import LastSietch.Chat.Tables
import LastSietch.Identity.System

/-!
# Mutes in force

Runs of moderation, retention and character transfers. A mute supersedes the unlifted mute of its
account and channel, so that lifting a mute ends it. `_carry_forward` copies the unlifted mutes of
the old account without superseding those of the new one.
-/

namespace LastSietch.Chat

open Runs (exec Along along_iff)

def Mutes.OneUnlifted (mutes : Mutes) : Prop :=
  Serial.UniqueWhere (fun m => m.isUnlifted = true) Mute.pair mutes

def Mutes.LiftEnds (mutes : Mutes) : Prop :=
  ∀ m ∈ mutes, m.isUnlifted = true → ∀ byDiscord now later,
    ∀ n ∈ (mutes.liftMute m.id byDiscord now).activeMute m.accountId (some m.channel) later,
      n.channel ≠ m.channel

structure World where
  db : Identity.Db
  tables : Tables

inductive Event
  | chat (x : Txn)
  | identity (a : Identity.Action)
  | relink (stamp : Identity.Stamp) (item : Identity.RelinkItem)

/-- `apply_item`, with the mutes that it carries forward in its transaction. -/
def relink (stamp : Identity.Stamp) (item : Identity.RelinkItem) (w : World) : World :=
  match w.db.applyItem stamp item with
  | .error _ => w
  | .ok db => ⟨db, { w.tables with mutes := w.tables.mutes.carryForward item.old item.new }⟩

def worldStep (w : World) : Event → Option World
  | .chat x => some { w with tables := x.run w.tables }
  | .identity a => some { w with db := a.run w.db }
  | .relink stamp item => some (relink stamp item w)

/-- The new account of a relink that goes through has no unlifted mute in a channel in which the
old one has one. -/
def Clear (w : World) : Event → Prop
  | .chat _ | .identity _ => True
  | .relink stamp item => (w.db.applyItem stamp item).toOption.isSome = true →
      ∀ m ∈ w.tables.mutes, m.accountId = item.old → m.isUnlifted = true →
        ∀ n ∈ w.tables.mutes, n.accountId = item.new → n.isUnlifted = true → n.channel ≠ m.channel

instance (w : World) : (e : Event) → Decidable (Clear w e)
  | .chat _ | .identity _ => .isTrue trivial
  | .relink _ _ => inferInstanceAs (Decidable (_ = true → _))

/-! ## One unlifted mute -/

namespace Mutes

variable {mutes mutes' : Mutes}

theorem OneUnlifted.liftEnds (h : OneUnlifted mutes) : LiftEnds mutes := by
  intro m hm hunlifted byDiscord now later n hn hchannel
  obtain ⟨hmem, hactive⟩ := List.mem_filter.mp (pick_mem hn)
  simp only [Bool.and_eq_true, decide_eq_true_eq, Mute.inForce] at hactive
  obtain ⟨⟨haccount, hn', -⟩, -⟩ := hactive
  obtain ⟨q, hq, rfl⟩ := Serial.mem_update.mp hmem
  by_cases hpicked : (q.id = m.id && q.isUnlifted) = true
  · rw [if_pos hpicked] at hn'
    exact absurd hn' (by simp [Mute.isUnlifted, Mute.lift])
  · rw [if_neg hpicked] at hn' haccount hchannel
    have hsame := h q hq m hm hn' hunlifted (Prod.ext haccount hchannel)
    exact hpicked (by simp [hsame, hunlifted])

theorem Change.oneUnlifted (h : OneUnlifted mutes) (hchange : mutes.Change mutes') :
    OneUnlifted mutes' := by
  have hlifted : ∀ (p : Mute → Bool) (s : Int) (by_ : String),
      OneUnlifted (mutes.update p (Mute.lift s by_)) :=
    fun p s by_ => Serial.UniqueWhere.update h (fun r _ _ hr => by
      simp [Mute.isUnlifted, Mute.lift] at hr)
  cases hchange with
  | none => exact h
  | lift muteId byDiscord now => exact hlifted _ _ _
  | sweep p => exact Serial.UniqueWhere.filter h p
  | @set args moment m mutes' hset =>
    obtain ⟨-, -, rfl⟩ := insertMute_spec hset
    refine Serial.UniqueWhere.insert_iff.mpr ⟨hlifted _ _ _, fun _ s hs hunlifted hpair => ?_⟩
    obtain ⟨q, hq, rfl⟩ := Serial.mem_update.mp hs
    by_cases hpicked : onPair args.accountId args.channel q = true
    · rw [if_pos hpicked] at hunlifted
      simp [Mute.isUnlifted, Mute.lift] at hunlifted
    · rw [if_neg hpicked] at hunlifted hpair
      simp only [Mute.pair, MuteArgs.row, Prod.mk.injEq] at hpair
      simp [onPair, hpair, hunlifted] at hpicked

theorem OneUnlifted.carryForward_iff (h : OneUnlifted mutes) (old new : Nat) :
    OneUnlifted (mutes.carryForward old new) ↔
      ∀ m ∈ mutes, m.accountId = old → m.isUnlifted = true →
        ∀ n ∈ mutes, n.accountId = new → n.isUnlifted = true → n.channel ≠ m.channel := by
  unfold OneUnlifted carryForward Serial.copyRows
  rw [Serial.UniqueWhere.insertAll_iff (fun m : Mute => (new, m.channel))
    (fun _ _ _ => by simp [Mute.isUnlifted]) (fun _ _ _ => rfl)]
  have hpair : (mutes.rows.filter fun m => m.accountId = old && m.isUnlifted).Pairwise
      (fun r s => (new, r.channel) ≠ (new, s.channel)) := by
    refine (mutes.sorted.filter _).imp_of_mem (fun {r s} hr hs hlt hchannel => ?_)
    obtain ⟨hr, hr'⟩ := List.mem_filter.mp hr
    obtain ⟨hs, hs'⟩ := List.mem_filter.mp hs
    simp only [Bool.and_eq_true, decide_eq_true_eq] at hr' hs'
    have hsame := h r hr s hs hr'.2 hs'.2
      (Prod.ext (hr'.1.trans hs'.1.symm) (Prod.mk.inj hchannel).2)
    rw [hsame] at hlt
    exact Nat.lt_irrefl _ hlt
  constructor
  · rintro ⟨-, hclear, -⟩ m hm hold hunlifted n hn hnew hunlifted' hchannel
    exact hclear m (List.mem_filter.mpr ⟨hm, by simp [hold, hunlifted]⟩) n hn hunlifted'
      (Prod.ext hnew hchannel)
  · intro hclear
    refine ⟨h, fun m hm n hn hunlifted hkey => ?_, hpair⟩
    obtain ⟨hm, hm'⟩ := List.mem_filter.mp hm
    simp only [Bool.and_eq_true, decide_eq_true_eq] at hm'
    exact hclear m hm hm'.1 hm'.2 n hn (Prod.mk.inj hkey).1 hunlifted (Prod.mk.inj hkey).2

end Mutes

theorem worldStep_iff {w : World} (h : w.tables.mutes.OneUnlifted) (e : Event) :
    Clear w e ↔ ∀ w', worldStep w e = some w' → w'.tables.mutes.OneUnlifted := by
  cases e with
  | chat x =>
    refine iff_of_true trivial (fun w' hstep => ?_)
    cases hstep
    exact (x.run_change w.tables).oneUnlifted h
  | identity a =>
    refine iff_of_true trivial (fun w' hstep => ?_)
    cases hstep
    exact h
  | relink stamp item =>
    simp only [Clear, worldStep, relink, Option.some.injEq, forall_eq']
    cases w.db.applyItem stamp item with
    | error e => exact iff_of_true (fun hok => by cases hok) h
    | ok db => exact (imp_iff_right rfl).trans (h.carryForward_iff item.old item.new).symm

/-- An account has one unlifted mute in a channel all through a run, and lifting it ends the mute,
exactly when no relink copies a mute to where the new account has one. -/
theorem one_mute_iff {w : World} {es : List Event} (h : w.tables.mutes.OneUnlifted) :
    (∀ ds w', ds <+: es → exec worldStep w ds = some w' →
      w'.tables.mutes.OneUnlifted ∧ w'.tables.mutes.LiftEnds) ↔ Along worldStep Clear w es := by
  refine along_iff (I := fun w => w.tables.mutes.OneUnlifted) (fun w h => ⟨h, h.liftEnds⟩)
    (fun w e h => (worldStep_iff h e).trans ?_) (fun w e w' h hclear hstep => ?_) h
  · exact ⟨fun hall w' hstep => ⟨hall w' hstep, (hall w' hstep).liftEnds⟩,
      fun hall w' hstep => (hall w' hstep).1⟩
  · exact (worldStep_iff h e).mp hclear w' hstep

def twoLinks : Identity.Links :=
  ⟨⟨[⟨⟨2, "4815162342", 1002, 60, none⟩, "Chani", "muaddib"⟩,
     ⟨⟨1, "4815162342", 1001, 50, none⟩, "Paul", "muaddib"⟩], by decide⟩, 3, by decide, by decide⟩

theorem twoLinks_starts : (Identity.backfilled twoLinks).toOption.isSome = true := by decide

def startWorld : World := ⟨(Identity.backfilled twoLinks).toOption.get twoLinks_starts, .empty⟩

def muteEverywhere (accountId : Nat) (second : Int) : Event :=
  .chat (.mute ⟨accountId, "", .admin, "2342", none, none⟩ (microseconds second))

/-- The characters of both accounts were transferred to 3003: `plan` moves the first link and
retires the second. -/
def transfers : List Event :=
  [.relink 200 ⟨1, "4815162342", 1001, 3003, "Paul", "muaddib", 50, true, by decide⟩,
   .relink 200 ⟨2, "4815162342", 1002, 3003, "Chani", "muaddib", 60, false, by decide⟩]

def liftFirst : Event := .chat (.lift 1 "2342" (microseconds 190))

/-- Both accounts were muted: the new account has two mutes, and lifting one leaves it muted. -/
theorem merged_mutes :
    startWorld.tables.mutes.OneUnlifted ∧
      ∃ w, exec worldStep startWorld
          ([muteEverywhere 1001 100, muteEverywhere 1002 101] ++ transfers) = some w ∧
        ¬ (w.tables.mutes.OneUnlifted ∧ w.tables.mutes.LiftEnds) ∧
        ((w.tables.mutes.liftMute 3 "2342" (microseconds 300)).activeMute 3003 (some "")
          (microseconds 301)).map (·.id) = some 4 := by
  have hruns : (exec worldStep startWorld
      ([muteEverywhere 1001 100, muteEverywhere 1002 101] ++ transfers)).any (fun w =>
        (∃ m ∈ w.tables.mutes, ∃ n ∈ w.tables.mutes, m.isUnlifted = true ∧ n.isUnlifted = true ∧
          m.pair = n.pair ∧ m ≠ n) ∧
        ((w.tables.mutes.liftMute 3 "2342" (microseconds 300)).activeMute 3003 (some "")
          (microseconds 301)).map (·.id) = some 4) = true := by
    decide
  obtain ⟨w, hw, hlast⟩ := (Option.any_eq_true _ _).mp hruns
  obtain ⟨⟨m, hm, n, hn, hmu, hnu, hpair, hne⟩, hlifted⟩ := of_decide_eq_true hlast
  refine ⟨fun m hm => absurd hm (Serial.not_mem_empty m), w, hw, fun h => ?_, hlifted⟩
  exact hne (h.1 m hm n hn hmu hnu hpair)

/-- The mute of the first account is lifted before the transfers: the new account has one mute. -/
theorem one_mute_iff_lifted : startWorld.tables.mutes.OneUnlifted ∧
    ∀ ds w, ds <+: [muteEverywhere 1001 100, muteEverywhere 1002 101, liftFirst] ++ transfers →
      exec worldStep startWorld ds = some w →
      w.tables.mutes.OneUnlifted ∧ w.tables.mutes.LiftEnds := by
  have hstart : startWorld.tables.mutes.OneUnlifted :=
    fun m hm => absurd hm (Serial.not_mem_empty m)
  exact ⟨hstart, (one_mute_iff hstart).mpr (by decide)⟩

end LastSietch.Chat
