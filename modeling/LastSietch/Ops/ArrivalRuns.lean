import LastSietch.Ops.Arrival

/-!
# Runs of the arrival script

Ticks one after the other, each of which may be cut short anywhere. `trail` is where a character was
seen since the last teleport of it that the file knows of, newest first: online and off the overmap;
or, where it comes into the file without that, in the partition that the database remembers.

* `unseen_arrivals`: a character that was never seen elsewhere is teleported, and one whose teleport
  was not written down is teleported again.
-/

namespace LastSietch.Arrival

open Dict

abbrev Trail := String → List Int

def Arrived (amtal : Int) (trail : List Int) : Prop :=
  ∃ newer older origin, trail = newer ++ amtal :: origin :: older ∧ origin ≠ amtal

def follow (trail : Trail) (r : PlayerRow) : Trail :=
  match r.map? with
  | some part => Function.update trail r.fls (part :: trail r.fls)
  | none => trail

def followNew (players : Players) (trail : Trail) (r : PlayerRow) : Trail :=
  if (players.lookup r.fls).isNone = true ∧ r.map? = none then
    Function.update trail r.fls (r.prev :: trail r.fls)
  else follow trail r

structure Sent where
  fls : String
  place : Place
  seen : List Int
  trail : List Int

structure Sys where
  file : File
  trail : Trail
  seen : Trail
  sent : List (List Sent)

variable (amtal : Int)

def look (firstRun : Bool) (now : ℚ) (s : Players × Trail) (r : PlayerRow) : Players × Trail :=
  (observe amtal firstRun now s.1 r, followNew s.1 s.2 r)

def Sys.looked (s : Sys) (t : Tick) : Players × Trail :=
  t.seenRows.foldl (look amtal s.file.players.isEmpty t.now) (s.file.players, s.trail)

def forget (sends : List (String × Place)) (trail : Trail) : Trail :=
  fun fls => if fls ∈ sends.map (·.1) then [] else trail fls

def Sys.step (s : Sys) (t : Tick) : Sys :=
  let sends := t.sends amtal s.file
  let trail := (s.looked amtal t).2
  let seen := t.seenRows.foldl follow s.seen
  { file := t.file amtal s.file
    trail := if t.saves = true then forget sends trail else t.seenRows.foldl follow s.trail
    seen := forget sends seen
    sent := sends.map (fun e => ⟨e.1, e.2, seen e.1, trail e.1⟩) :: s.sent }

def Sys.run (s : Sys) (ticks : List Tick) : Sys := ticks.foldl (Sys.step amtal) s

structure Sys.Start (s : Sys) : Prop where
  players : s.file.players = []
  trail : ∀ fls, s.trail fls = []
  sent : s.sent = []

/-! ## Arrivals -/

variable {amtal : Int} {trail : List Int}

theorem Arrived.cons (h : Arrived amtal trail) (part : Int) : Arrived amtal (part :: trail) := by
  obtain ⟨newer, older, origin, rfl, hne⟩ := h
  exact ⟨part :: newer, older, origin, rfl, hne⟩

theorem arrived_of_mem {part : Int} (hmem : part ∈ trail) (hne : part ≠ amtal) :
    Arrived amtal (amtal :: trail) := by
  induction trail with
  | nil => cases hmem
  | cons last older ih =>
    by_cases hlast : last = amtal
    · rw [hlast] at hmem ⊢
      exact (ih ((List.mem_cons.mp hmem).resolve_left hne)).cons amtal
    · exact ⟨[], older, last, rfl, hlast⟩

structure Rec.Fits (rec : Rec) (amtal : Int) (trail : List Int) : Prop where
  cur : rec.cur = amtal ∨ rec.cur ∈ trail
  pending : rec.pending = true → rec.cur = amtal ∧ Arrived amtal trail

theorem Rec.Fits.cons {rec : Rec} (h : rec.Fits amtal trail) (part : Int) :
    rec.Fits amtal (part :: trail) :=
  ⟨h.cur.imp_right (List.mem_cons_of_mem part), fun hp =>
    ⟨(h.pending hp).1, (h.pending hp).2.cons part⟩⟩

variable {rec : Rec}

theorem Rec.Fits.move (h : rec.Fits amtal trail) (now : ℚ) (r : PlayerRow) :
    (move amtal now rec r).Fits amtal (r.map?.toList ++ trail) := by
  unfold Arrival.move
  cases r.map? with
  | none => exact h
  | some part =>
    dsimp only
    split
    · exact h.cons part
    · rename_i hmoved
      split
      · rename_i harrived
        rw [harrived]
        have hne : rec.cur ≠ amtal := fun heq => hmoved (harrived.trans heq.symm)
        exact ⟨Or.inl rfl, fun _ => ⟨rfl, arrived_of_mem (h.cur.resolve_left hne) hne⟩⟩
      · exact ⟨Or.inr List.mem_cons_self, fun hpending => by cases hpending⟩

structure Fits (amtal : Int) (s : Players × Trail) : Prop where
  keys : (s.1.map (·.1)).Nodup
  fits : ∀ e ∈ s.1, e.2.Fits amtal (s.2 e.1)

theorem follow_self (trail : Trail) (r : PlayerRow) :
    follow trail r r.fls = r.map?.toList ++ trail r.fls := by
  unfold follow
  cases r.map? with
  | none => rfl
  | some part => exact Function.update_self _ _ _

variable {fls : String}

theorem follow_of_ne (trail : Trail) (r : PlayerRow) (hne : fls ≠ r.fls) :
    follow trail r fls = trail fls := by
  unfold follow
  cases r.map? with
  | none => rfl
  | some part => exact Function.update_of_ne hne _ _

theorem followNew_of_ne (players : Players) (trail : Trail) (r : PlayerRow)
    (hne : fls ≠ r.fls) : followNew players trail r fls = trail fls := by
  unfold followNew
  split
  · exact Function.update_of_ne hne _ _
  · exact follow_of_ne trail r hne

theorem followNew_self_new {players : Players} (trail : Trail) {r : PlayerRow}
    (hnew : players.lookup r.fls = none) :
    followNew players trail r r.fls = r.map?.getD r.prev :: trail r.fls := by
  unfold followNew
  cases hmap : r.map? with
  | none =>
    rw [if_pos ⟨Option.isNone_iff_eq_none.mpr hnew, rfl⟩, Function.update_self]
    rfl
  | some part =>
    rw [if_neg fun h => (by cases h.2), follow_self, hmap]
    rfl

theorem move_seeded (now : ℚ) (r : PlayerRow) :
    move amtal now ⟨r.map?.getD r.prev, false, none, r.pid, r.ctl, r.pawn⟩ r =
      ⟨r.map?.getD r.prev, false, none, r.pid, r.ctl, r.pawn⟩ := by
  unfold move
  cases r.map? with
  | none => rfl
  | some part => exact if_pos rfl

theorem Fits.look {s : Players × Trail} (h : Fits amtal s) (firstRun : Bool) (now : ℚ)
    (r : PlayerRow) : Fits amtal (look amtal firstRun now s r) := by
  obtain ⟨players, trail⟩ := s
  have hother : ∀ e ∈ players, e.1 ≠ r.fls →
      e.2.Fits amtal (followNew players trail r e.1) := by
    intro e he hne
    rw [followNew_of_ne players trail r hne]
    exact h.fits e he
  unfold Arrival.look observe
  dsimp only
  cases hlookup : players.lookup r.fls with
  | some rec =>
    dsimp only
    refine ⟨nodup_assign h.keys _ _, fun e he => ?_⟩
    rcases mem_assign_of_nodup h.keys he with rfl | ⟨he, hne⟩
    · have hrec : rec.Fits amtal (trail r.fls) := h.fits _ (mem_of_lookup hlookup)
      have hpawn : Rec.Fits { rec with pawn := r.pawn } amtal (trail r.fls) :=
        ⟨hrec.cur, hrec.pending⟩
      have hknown : ¬((players.lookup r.fls).isNone = true ∧ r.map? = none) := by
        rw [hlookup]
        exact fun hnone => (by cases hnone.1)
      dsimp only
      rw [followNew, if_neg hknown, follow_self]
      exact hpawn.move now r
    · exact hother e he hne
  | none =>
    dsimp only
    rw [move_seeded, ite_self]
    refine ⟨nodup_assign h.keys _ _, fun e he => ?_⟩
    rcases mem_assign_of_nodup h.keys he with rfl | ⟨he, hne⟩
    · dsimp only
      rw [followNew_self_new trail hlookup]
      exact ⟨Or.inr List.mem_cons_self, fun hpending => by cases hpending⟩
    · exact hother e he hne

theorem Fits.looks {s : Players × Trail} (h : Fits amtal s) (firstRun : Bool) (now : ℚ)
    (rows : List PlayerRow) : Fits amtal (rows.foldl (Arrival.look amtal firstRun now) s) := by
  induction rows generalizing s with
  | nil => exact h
  | cons r rows ih => exact ih (h.look firstRun now r)

theorem looks_fst (firstRun : Bool) (now : ℚ) (s : Players × Trail) (rows : List PlayerRow) :
    (rows.foldl (look amtal firstRun now) s).1 = rows.foldl (observe amtal firstRun now) s.1 := by
  induction rows generalizing s with
  | nil => rfl
  | cons r rows ih => exact ih _

theorem Rec.Fits.follows {trail : Trail} (h : rec.Fits amtal (trail fls))
    (rows : List PlayerRow) : rec.Fits amtal (rows.foldl follow trail fls) := by
  induction rows generalizing trail with
  | nil => exact h
  | cons r rows ih =>
    refine ih ?_
    by_cases hfls : fls = r.fls
    · subst hfls
      rw [follow_self]
      cases r.map? with
      | none => exact h
      | some part => exact h.cons part
    · rw [follow_of_ne trail r hfls]
      exact h

/-! ## Teleports -/

theorem handle_eq (live : Bool) (now : ℚ) (file : File) (answers : Answers) (fls : String)
    (rec : Rec) :
    handle live now file answers fls rec = (rec, none) ∨
      handle live now file answers fls rec = ({ rec with pending := false }, none) ∨
      rec.pending = true ∧ handle live now file answers fls rec =
        ({ rec with pending := false }, some (destination answers)) := by
  unfold handle
  dsimp only
  split
  · exact Or.inl rfl
  rename_i hpending
  split
  · exact Or.inr (Or.inl rfl)
  split
  · exact Or.inl rfl
  split
  · exact Or.inr (Or.inl rfl)
  split
  · exact Or.inr (Or.inl rfl)
  split
  · exact Or.inr (Or.inl rfl)
  · exact Or.inr (Or.inr ⟨Bool.not_eq_false _ ▸ hpending, rfl⟩)

theorem handle_pending {live : Bool} {now : ℚ} {file : File} {answers : Answers} {place : Place} (h : (handle live now file answers fls rec).2 = some place) :
    rec.pending = true ∧
      (handle live now file answers fls rec).1 = { rec with pending := false } := by
  rcases handle_eq live now file answers fls rec with heq | heq | ⟨hpending, heq⟩
  · rw [heq] at h
    cases h
  · rw [heq] at h
    cases h
  · exact ⟨hpending, by rw [heq]⟩

theorem Rec.Fits.handle {trail : List Int} (h : rec.Fits amtal trail) (live : Bool)
    (now : ℚ) (file : File) (answers : Answers) (fls : String) :
    (handle live now file answers fls rec).1.Fits amtal trail := by
  have hsettled : Rec.Fits { rec with pending := false } amtal trail :=
    ⟨h.cur, fun hpending => by cases hpending⟩
  rcases handle_eq live now file answers fls rec with heq | heq | ⟨_, heq⟩
  · rw [heq]
    exact h
  · rw [heq]
    exact hsettled
  · rw [heq]
    exact hsettled

variable {e : String × Place}

theorem mem_sendsOf {handled : List (String × Rec × Option Place)} :
    e ∈ sendsOf handled ↔ ∃ rec, (e.1, rec, some e.2) ∈ handled := by
  unfold sendsOf
  rw [List.mem_filterMap]
  constructor
  · rintro ⟨⟨fls, rec, place⟩, hmem, he⟩
    obtain ⟨place', hplace, rfl⟩ := Option.map_eq_some_iff.mp he
    dsimp only at hplace
    subst hplace
    exact ⟨rec, hmem⟩
  · rintro ⟨rec, hmem⟩
    exact ⟨_, hmem, rfl⟩

theorem sendsOf_sublist (handled : List (String × Rec × Option Place)) :
    ((sendsOf handled).map (·.1)).Sublist (handled.map (·.1)) := by
  induction handled with
  | nil => exact List.Sublist.refl _
  | cons e handled ih =>
    obtain ⟨fls, rec, place⟩ := e
    cases place with
    | none => exact ih.cons fls
    | some place => exact ih.cons_cons fls

variable {s : Sys} {t : Tick}

theorem mem_handled {e : String × Rec × Option Place} (he : e ∈ t.handled amtal s.file) :
    ∃ rec, (e.1, rec) ∈ (s.looked amtal t).1 ∧
      e.2 = handle t.live t.now (readLog t.now s.file t.lines) (t.answers e.1) e.1 rec := by
  obtain ⟨⟨fls, rec⟩, hmem, rfl⟩ := List.mem_map.mp he
  refine ⟨rec, ?_, rfl⟩
  rw [Sys.looked, looks_fst]
  exact hmem

theorem keys_handled : (t.handled amtal s.file).map (·.1) = (s.looked amtal t).1.map (·.1) := by
  rw [Sys.looked, looks_fst, Tick.handled, List.map_map]
  rfl

theorem sends_subset (he : e ∈ t.sends amtal s.file) :
    e ∈ sendsOf (t.handled amtal s.file) := by
  unfold Tick.sends at he
  split at he
  · cases he
  split at he
  · cases he
  · cases he
  · obtain ⟨rec, hmem⟩ := mem_sendsOf.mp he
    exact mem_sendsOf.mpr ⟨rec, List.mem_of_mem_take hmem⟩
  · exact he

theorem sends_nodup (h : Fits amtal (s.looked amtal t)) :
    ((t.sends amtal s.file).map (·.1)).Nodup := by
  have hkeys : ((t.handled amtal s.file).map (·.1)).Nodup := by
    rw [keys_handled]
    exact h.keys
  unfold Tick.sends
  split
  · exact List.nodup_nil
  split
  · exact List.nodup_nil
  · exact List.nodup_nil
  · exact hkeys.sublist ((sendsOf_sublist _).trans ((List.take_sublist _ _).map _))
  · exact hkeys.sublist (sendsOf_sublist _)

theorem arrived_of_send (h : Fits amtal (s.looked amtal t))
    (he : e ∈ t.sends amtal s.file) : Arrived amtal ((s.looked amtal t).2 e.1) := by
  obtain ⟨rec', hmem⟩ := mem_sendsOf.mp (sends_subset he)
  obtain ⟨rec, hrec, heq⟩ := mem_handled hmem
  have hplace := congrArg Prod.snd heq
  exact ((h.fits _ hrec).pending (handle_pending hplace.symm).1).2

/-! ## Ticks -/

theorem forget_of_mem {sends : List (String × Place)} {trail : Trail}
    (h : fls ∈ sends.map (·.1)) : forget sends trail fls = [] := if_pos h

theorem forget_of_not_mem {sends : List (String × Place)} {trail : Trail}
    (h : fls ∉ sends.map (·.1)) : forget sends trail fls = trail fls := if_neg h

theorem sends_of_saves (hsaves : t.saves = true) :
    t.sends amtal s.file = sendsOf (t.handled amtal s.file) := by
  obtain ⟨hkill, hcut⟩ := Bool.and_eq_true_iff.mp hsaves
  have hkill : ¬t.kill = true := by simpa using hkill
  unfold Tick.sends
  rw [if_neg hkill, Option.isNone_iff_eq_none.mp hcut]

theorem fits_written (h : Fits amtal (s.looked amtal t)) (hsaves : t.saves = true)
    {e : String × Rec × Option Place} (he : e ∈ t.handled amtal s.file) :
    e.2.1.Fits amtal (forget (t.sends amtal s.file) (s.looked amtal t).2 e.1) := by
  obtain ⟨rec, hrec, heq⟩ := mem_handled he
  by_cases hsent : e.1 ∈ (t.sends amtal s.file).map (·.1)
  · rw [forget_of_mem hsent]
    obtain ⟨⟨fls, place⟩, hsend, hfls⟩ := List.mem_map.mp hsent
    rw [sends_of_saves hsaves] at hsend
    obtain ⟨rec', hmem⟩ := mem_sendsOf.mp hsend
    -- The entry that is sent away is this one: there is no other of its character.
    have hkeys : ((t.handled amtal s.file).map (·.1)).Nodup := by
      rw [keys_handled]
      exact h.keys
    have hsame : e = (fls, rec', some place) := List.inj_on_of_nodup_map hkeys he hmem hfls.symm
    have hplace : (handle t.live t.now (readLog t.now s.file t.lines) (t.answers e.1) e.1 rec).2 =
        some place := by
      rw [← heq, hsame]
    obtain ⟨hpending, hsettled⟩ := handle_pending hplace
    rw [heq, hsettled]
    exact ⟨Or.inl ((h.fits _ hrec).pending hpending).1, fun hfalse => by cases hfalse⟩
  · rw [forget_of_not_mem hsent, heq]
    exact (h.fits _ hrec).handle _ _ _ _ _

theorem Fits.step (h : Fits amtal (s.file.players, s.trail)) :
    Fits amtal ((s.step amtal t).file.players, (s.step amtal t).trail) := by
  have hlooked : Fits amtal (s.looked amtal t) := h.looks _ _ _
  unfold Sys.step Tick.file
  dsimp only
  by_cases hsaves : t.saves = true
  · rw [if_pos hsaves, if_pos hsaves]
    refine ⟨?_, fun e he => ?_⟩
    · have hkeys := hlooked.keys
      rw [← keys_handled] at hkeys
      rw [List.map_map]
      exact hkeys
    · obtain ⟨e', he', rfl⟩ := List.mem_map.mp he
      exact fits_written hlooked hsaves he'
  · rw [if_neg hsaves, if_neg hsaves]
    exact ⟨h.keys, fun e he => (h.fits e he).follows t.seenRows⟩

def Sound (amtal : Int) (tick : List Sent) : Prop :=
  (tick.map (·.fls)).Nodup ∧ ∀ e ∈ tick, Arrived amtal e.trail

theorem sound_step (h : Fits amtal (s.file.players, s.trail))
    (hsent : ∀ tick ∈ s.sent, Sound amtal tick) :
    ∀ tick ∈ (s.step amtal t).sent, Sound amtal tick := by
  have hlooked : Fits amtal (s.looked amtal t) := h.looks _ _ _
  intro tick htick
  rcases List.mem_cons.mp htick with rfl | htick
  · refine ⟨?_, fun e he => ?_⟩
    · rw [List.map_map]
      exact sends_nodup hlooked
    · obtain ⟨send, hsend, rfl⟩ := List.mem_map.mp he
      exact arrived_of_send hlooked hsend
  · exact hsent tick htick

/-- Whatever the ticks see and wherever they fail, a character is sent away at most once in a tick,
and only where it has come to Amtal from another partition since its last teleport that was written
down. -/
theorem teleported_after_arrival (amtal : Int) (hstart : s.Start) (ticks : List Tick) :
    ∀ tick ∈ (s.run amtal ticks).sent, Sound amtal tick := by
  have hfits : Fits amtal (s.file.players, s.trail) := by
    rw [hstart.players]
    exact ⟨List.nodup_nil, fun e he => by cases he⟩
  have hsent : ∀ tick ∈ s.sent, Sound amtal tick := by
    rw [hstart.sent]
    exact fun tick htick => by cases htick
  clear hstart
  induction ticks generalizing s with
  | nil => exact hsent
  | cons t ticks ih => exact ih hfits.step (sound_step hfits hsent)

def noFile : Sys := ⟨⟨[], [], []⟩, fun _ => [], fun _ => [], []⟩

theorem noFile_start : noFile.Start := ⟨rfl, fun _ => rfl, rfl⟩

def tickOf (now : ℚ) (part : Option Int) (prev : Int) (lines : List LogLine) (cut : Option Cut) :
    Tick where
  kill := false
  live := true
  now := now
  rows := [⟨"A1", 1, 1, part.getD (-1), some "Survival_1",
    if part.isSome = true then "Online" else "Offline", prev, 1⟩]
  lines := lines
  answers := fun _ => ⟨some 1, none, none, some 2, true⟩
  cut := cut

def arrives : List Tick :=
  [tickOf 1000 (some 5) (-1) [] none, tickOf 1003 (some 33) 5 [.inWorld 1003 "A1"] none]

theorem teleported_arrives : (noFile.run 33 arrives).sent.map List.length = [1, 0] ∧
    ∀ tick ∈ (noFile.run 33 arrives).sent, Sound 33 tick :=
  ⟨by decide +kernel, teleported_after_arrival 33 noFile_start arrives⟩

def remembered : List Tick :=
  [tickOf 1000 none 7 [] none, tickOf 1003 (some 33) 7 [.inWorld 1003 "A1"] none]

/-- As `arrives`, but the file is not written after the teleport. -/
def unwritten : List Tick :=
  [tickOf 1000 (some 5) (-1) [] none,
   tickOf 1003 (some 33) 5 [.inWorld 1003 "A1"] (some (.players 1)),
   tickOf 1006 (some 33) 5 [.inWorld 1003 "A1"] none]

theorem not_arrived_singleton (part : Int) : ¬Arrived part [part] := by
  rintro ⟨newer, older, origin, heq, _⟩
  have hlength := congrArg List.length heq
  simp only [List.length_append, List.length_cons, List.length_nil] at hlength
  omega

theorem not_arrived_of_any {s : Sys} {part : Int}
    (h : (s.sent.any fun tick => tick.any fun e => e.seen = [part]) = true) :
    ∃ tick ∈ s.sent, ∃ e ∈ tick, ¬Arrived part e.seen := by
  obtain ⟨tick, htick, h⟩ := List.any_eq_true.mp h
  obtain ⟨e, he, h⟩ := List.any_eq_true.mp h
  refine ⟨tick, htick, e, he, ?_⟩
  rw [of_decide_eq_true h]
  exact not_arrived_singleton part

theorem unseen_arrivals : noFile.Start ∧
    (∃ tick ∈ (noFile.run 33 remembered).sent, ∃ e ∈ tick, ¬Arrived 33 e.seen) ∧
      ∃ tick ∈ (noFile.run 33 unwritten).sent, ∃ e ∈ tick, ¬Arrived 33 e.seen :=
  ⟨noFile_start, not_arrived_of_any (by decide +kernel), not_arrived_of_any (by decide +kernel)⟩

end LastSietch.Arrival
