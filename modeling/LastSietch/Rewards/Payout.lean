import Mathlib.Algebra.Order.BigOperators.Group.List
import Mathlib.Tactic.IntervalCases
import LastSietch.Rewards.Claim

/-!
# Each login day is paid at most once

`Earned` is what a day is worth over the whole login history. In a run whose claims are pressed
while the feed agrees with the history (`Fits`), every amount that a claim, a call or a payment
carries is earned (`Sound`), whatever answers and mirror writes are lost. The writer's gate
admits a day once, so the payments of a character are bounded by its login days.

* `longRun_overpaid`: after sixty-one days in a row the windowed feed pays a fixed rung, and in
  time more than the ramp.
-/

namespace LastSietch.Rewards

open Karum Runs Streak

/-- The account logged in on `day`, and `amount` is its ramp amount. -/
def Earned (logins : List (Nat × Int)) (accountId : Nat) (day amount : Int) : Prop :=
  day ∈ daysOf logins accountId ∧ amount = dailyAmount (runEnding (daysOf logins accountId) day)

section

variable {logins : List (Nat × Int)} {a b : Nat} {day d amount : Int}

theorem daysOf_cons :
    daysOf ((b, day) :: logins) a = if b = a then day :: daysOf logins a else daysOf logins a := by
  unfold daysOf
  rw [List.filter_cons]
  by_cases hab : b = a
  · simp [hab]
  · simp [hab]

theorem mem_login (hlast : ∀ e ∈ daysOf logins b, e ≤ day) (hd : d ∈ daysOf logins a) {e : Int}
    (he : e ≤ d) : e ∈ daysOf ((b, day) :: logins) a ↔ e ∈ daysOf logins a := by
  rw [daysOf_cons]
  by_cases hab : b = a
  · subst hab
    rw [if_pos rfl, List.mem_cons]
    constructor
    · rintro (rfl | hmem)
      · have heq : d = e := le_antisymm (hlast d hd) he
        exact heq ▸ hd
      · exact hmem
    · exact Or.inr
  · rw [if_neg hab]

theorem Earned.login (h : Earned logins a d amount) (hlast : ∀ e ∈ daysOf logins b, e ≤ day) :
    Earned ((b, day) :: logins) a d amount := by
  obtain ⟨hd, hamount⟩ := h
  refine ⟨(mem_login hlast hd (le_refl d)).mpr hd, ?_⟩
  rw [hamount, runEnding_eq, runEnding_eq]
  congr 1
  exact (run_congr (fun e he => mem_login hlast hd he)).symm

theorem Views.login {since : Int} {days : List Int} (h : Views (daysOf logins a) since days)
    (hlast : ∀ e ∈ daysOf logins b, e ≤ day) :
    Views (daysOf ((b, day) :: logins) a) since days where
  sound e he := by
    obtain ⟨hmem, hge⟩ := h.sound e he
    exact ⟨(mem_login hlast hmem (le_refl e)).mpr hmem, hge⟩
  whole e he hge e' he' hle := by
    have hmem := (mem_login hlast (h.sound e' he').1 hle).mp he
    exact h.whole e hmem hge e' he' hle

end

/-! ## The invariant -/

def Fits (w : Sys) (accountId : Nat) : Prop :=
  ∀ feed ∈ w.feeds, feed.accountId = accountId →
    run (w.loginsOf accountId) (w.today - 1) ≤ (w.today - feed.since).toNat ∨
      run (w.loginsOf accountId) (w.today - 1) % 7 = (w.today - feed.since).toNat % 7

instance (w : Sys) (accountId : Nat) : Decidable (Fits w accountId) :=
  inferInstanceAs (Decidable (∀ feed ∈ w.feeds.rows, feed.accountId = accountId → _ ∨ _))

def PressFits (w : Sys) : Event → Prop
  | .press accountId => Fits w accountId
  | _ => True

instance (w : Sys) (e : Event) : Decidable (PressFits w e) :=
  match e with
  | .press accountId => inferInstanceAs (Decidable (Fits w accountId))
  | .nextDay | .login .. | .fetch _ | .players _ | .goLive _ | .grant .. | .serve _ =>
    .isTrue trivial

def Event.Owned (owner : Nat → Nat) : Event → Prop
  | .players rows => ∀ p ∈ rows, ∀ ctrl, p.playerControllerId = some ctrl →
      owner ctrl = p.accountId
  | _ => True

def RewardCall.ForDay (c : RewardCall) (day : Int) : Prop :=
  c.idem = deterministicIdem c.accountId .dailySolari day

structure Booked (w : Sys) : Prop where
  keys : w.game.paid.map Payment.idem = w.game.claims.rows.map ClaimRow.idem
  daily : ∀ p ∈ w.game.paid, p.idem.rewardKind = .dailySolari
  calls : ∀ c ∈ w.calls, ∃ day, c.ForDay day

namespace Booked

variable {w w' : Sys}

theorem start : Booked Sys.start :=
  ⟨rfl, fun _ hp => absurd hp List.not_mem_nil, fun _ hc => absurd hc List.not_mem_nil⟩

theorem doOp (h : Booked w) {c : RewardCall} {day : Int} (hday : c.ForDay day)
    (enabled : Bool) (players : List PlayerState) (today : Int) :
    Booked { w with game := (w.game.doOp enabled players today c).1 } := by
  rcases doOp_cases w.game enabled players today c with heq | ⟨row, hrows, hidem, -, hpaid⟩
  · rw [heq]
    exact h
  · refine ⟨?_, fun p hp => ?_, h.calls⟩
    · show (w.game.doOp enabled players today c).1.paid.map Payment.idem = _
      rw [hpaid, hrows, List.map_cons, List.map_cons, h.keys, hidem]
    · have hp : p ∈ (w.game.doOp enabled players today c).1.paid := hp
      rw [hpaid] at hp
      rcases List.mem_cons.mp hp with rfl | hp
      · exact congrArg IdemKey.rewardKind hday
      · exact h.daily p hp

theorem grant (h : Booked w) {i : Nat} {answer : Answer} (hgrant : w.grant i answer = some w') :
    Booked w' := by
  obtain ⟨ses, -, day, amount, hsent⟩ := grant_cases hgrant
  have hcalls : ∀ c ∈ w'.calls, ∃ day, c.ForDay day := by
    intro c hc
    rw [hsent.calls] at hc
    rcases List.mem_cons.mp hc with rfl | hc
    · exact ⟨day, rfl⟩
    · exact h.calls c hc
  rcases hsent.game with heq | heq
  · exact ⟨heq ▸ h.keys, heq ▸ h.daily, hcalls⟩
  · have hday : RewardCall.ForDay
        ⟨ses.accountId, deterministicIdem ses.accountId .dailySolari day, amount⟩ day := rfl
    have hbooked := h.doOp hday w.enabled w.players w.today
    exact ⟨heq ▸ hbooked.keys, heq ▸ hbooked.daily, hcalls⟩

theorem step (h : Booked w) {e : Event} (hstep : Rewards.step w e = some w') : Booked w' := by
  cases e with
  | nextDay | fetch | players | goLive =>
    obtain rfl := Option.some.inj hstep
    exact ⟨h.keys, h.daily, h.calls⟩
  | login b day =>
    simp only [Rewards.step] at hstep
    split at hstep
    · split at hstep
      · obtain rfl := Option.some.inj hstep
        exact h
      · obtain rfl := Option.some.inj hstep
        exact ⟨h.keys, h.daily, h.calls⟩
    · cases hstep
  | press a =>
    obtain rfl := Option.some.inj hstep
    unfold Sys.press
    cases w.feeds.get? a with
    | none => exact ⟨h.keys, h.daily, h.calls⟩
    | some feed =>
      simp only []
      split
      · exact ⟨h.keys, h.daily, h.calls⟩
      · exact ⟨h.keys, h.daily, h.calls⟩
  | grant i answer => exact h.grant hstep
  | serve c =>
    simp only [Rewards.step] at hstep
    split at hstep
    · rename_i hc
      obtain rfl := Option.some.inj hstep
      obtain ⟨day, hday⟩ := h.calls c hc
      exact h.doOp hday _ _ _
    · cases hstep

theorem nodup (h : Booked w) :
    (w.game.paid.map (fun p => (p.idem.accountId, p.idem.periodKey))).Nodup := by
  have hkeys : (w.game.paid.map Payment.idem).Nodup := by
    rw [h.keys]
    exact w.game.claims.unique
  have hinj := List.inj_on_of_nodup_map hkeys
  apply List.Nodup.map_on _ hkeys.of_map
  intro p hp q hq heq
  rw [Prod.mk.injEq] at heq
  have hkind := (h.daily p hp).trans (h.daily q hq).symm
  exact hinj hp hq (IdemKey.ext heq.1 hkind heq.2)

end Booked

theorem day_paid_once {w : Sys} {events : List Event}
    (hrun : exec step Sys.start events = some w) :
    (w.game.paid.map (fun p => (p.idem.accountId, p.idem.periodKey))).Nodup :=
  (exec_invariant' (fun _ _ _ h hstep => Booked.step h hstep) Booked.start hrun).nodup

section

variable (owner : Nat → Nat)

structure GameSound (logins : List (Nat × Int)) (g : Game) : Prop where
  owned : ∀ p ∈ g.paid, owner p.controllerId = p.idem.accountId
  earned : ∀ p ∈ g.paid, Earned logins p.idem.accountId p.idem.periodKey p.amount

structure Sound (w : Sys) : Prop where
  players : ∀ p ∈ w.players, ∀ ctrl, p.playerControllerId = some ctrl → owner ctrl = p.accountId
  feeds : ∀ f ∈ w.feeds, Views (w.loginsOf f.accountId) f.since f.days
  sessions : ∀ ses ∈ w.sessions, ∀ e ∈ ses.ledgerRows, Earned w.logins ses.accountId e.1 e.2
  calls : ∀ c ∈ w.calls, ∃ day, c.ForDay day ∧ Earned w.logins c.accountId day c.amount
  game : GameSound owner w.logins w.game

variable {owner} {w : Sys}

theorem sound_start : Sound owner Sys.start where
  players _ hp := absurd hp List.not_mem_nil
  feeds f hf := absurd hf (Table.not_mem_empty f)
  sessions _ hses := absurd hses List.not_mem_nil
  calls _ hc := absurd hc List.not_mem_nil
  game := ⟨fun _ hp => absurd hp List.not_mem_nil, fun _ hp => absurd hp List.not_mem_nil⟩

theorem owner_latestController {players : List PlayerState}
    (h : ∀ p ∈ players, ∀ ctrl, p.playerControllerId = some ctrl → owner ctrl = p.accountId)
    {a ctrl : Nat} (hctrl : latestController players a = some ctrl) : owner ctrl = a := by
  obtain ⟨p, hp, hc⟩ := Option.bind_eq_some_iff.mp hctrl
  obtain ⟨hmem, hlive⟩ := List.mem_filter.mp (pick_mem hp)
  rw [h p hmem ctrl hc]
  exact (of_decide_eq_true hlive).1

theorem GameSound.doOp {logins : List (Nat × Int)} {g : Game} (h : GameSound owner logins g)
    {players : List PlayerState}
    (hplayers : ∀ p ∈ players, ∀ ctrl, p.playerControllerId = some ctrl → owner ctrl = p.accountId)
    {c : RewardCall} {day : Int} (hday : c.ForDay day)
    (hearned : Earned logins c.accountId day c.amount) (enabled : Bool) (today : Int) :
    GameSound owner logins (g.doOp enabled players today c).1 := by
  rcases doOp_cases g enabled players today c with heq | ⟨row, -, -, hctrl, hpaid⟩
  · rw [heq]
    exact h
  · have howner := owner_latestController hplayers hctrl
    constructor
    · intro p hp
      rw [hpaid] at hp
      rcases List.mem_cons.mp hp with rfl | hp
      · exact howner.trans (congrArg IdemKey.accountId hday).symm
      · exact h.owned p hp
    · intro p hp
      rw [hpaid] at hp
      rcases List.mem_cons.mp hp with rfl | hp
      · show Earned logins c.idem.accountId c.idem.periodKey c.amount
        rw [hday]
        exact hearned
      · exact h.earned p hp

namespace Sound

theorem login (h : Sound owner w) {b : Nat} {day : Int}
    (hlast : ∀ e ∈ w.loginsOf b, e ≤ day) :
    Sound owner { w with logins := (b, day) :: w.logins } where
  players := h.players
  feeds f hf := (h.feeds f hf).login hlast
  sessions ses hses e he := (h.sessions ses hses e he).login hlast
  calls c hc := by
    obtain ⟨d, hday, hearned⟩ := h.calls c hc
    exact ⟨d, hday, hearned.login hlast⟩
  game := ⟨h.game.owned, fun p hp => (h.game.earned p hp).login hlast⟩

theorem fetch (h : Sound owner w) (a : Nat) :
    Sound owner
      { w with
        feeds := w.feeds.put ⟨a, w.today - feedDays, feed (w.loginsOf a) w.today⟩ } where
  players := h.players
  feeds f hf := by
    rcases Table.mem_put.mp hf with rfl | ⟨hf, -⟩
    · exact views_feed _ _
    · exact h.feeds f hf
  sessions := h.sessions
  calls := h.calls
  game := h.game

theorem press (h : Sound owner w) {a : Nat} (hfits : Fits w a) : Sound owner (w.press a) := by
  unfold Sys.press
  cases hget : w.feeds.get? a with
  | none => exact ⟨h.players, h.feeds, h.sessions, h.calls, h.game⟩
  | some feed =>
    simp only []
    split
    · exact ⟨h.players, h.feeds, h.sessions, h.calls, h.game⟩
    · have hfeed := Table.mem_of_get? hget
      have hacct : feed.accountId = a := Table.key_of_get? hget
      have hview := h.feeds feed hfeed
      rw [hacct] at hview
      refine ⟨h.players, h.feeds, fun ses hses e he => ?_, h.calls, h.game⟩
      rcases List.mem_append.mp hses with hses | hses
      · exact h.sessions ses hses e he
      · obtain rfl := List.mem_singleton.mp hses
        exact hview.amount_eq he (hfits feed hfeed hacct)

theorem serve (h : Sound owner w) {c : RewardCall} {day : Int} (hday : c.ForDay day)
    (hearned : Earned w.logins c.accountId day c.amount) :
    Sound owner { w with game := (w.game.doOp w.enabled w.players w.today c).1 } where
  players := h.players
  feeds := h.feeds
  sessions := h.sessions
  calls := h.calls
  game := h.game.doOp h.players hday hearned _ _

theorem grant (h : Sound owner w) {i : Nat} {answer : Answer} {w' : Sys}
    (hgrant : w.grant i answer = some w') : Sound owner w' := by
  obtain ⟨ses, hses, day, amount, hsent⟩ := grant_cases hgrant
  have hearned := h.sessions ses hses _ hsent.row
  constructor
  · rw [hsent.players]
    exact h.players
  · intro f hf
    rw [hsent.feeds] at hf
    show Views (daysOf w'.logins f.accountId) f.since f.days
    rw [hsent.logins]
    exact h.feeds f hf
  · intro s hs e he
    rw [hsent.logins]
    rcases hsent.sessions s hs with hold | ⟨hacct, hrows⟩
    · exact h.sessions s hold e he
    · rw [hacct]
      exact h.sessions ses hses e (hrows e he)
  · intro c hc
    rw [hsent.calls] at hc
    rw [hsent.logins]
    rcases List.mem_cons.mp hc with rfl | hc
    · exact ⟨day, rfl, hearned⟩
    · exact h.calls c hc
  · rw [hsent.logins]
    rcases hsent.game with heq | heq
    · rw [heq]
      exact h.game
    · have hday : RewardCall.ForDay
          ⟨ses.accountId, deterministicIdem ses.accountId .dailySolari day, amount⟩ day := rfl
      rw [heq]
      exact h.game.doOp h.players hday hearned _ _

theorem step (h : Sound owner w) {e : Event} (hfits : PressFits w e) (hown : e.Owned owner)
    {w' : Sys} (hstep : Rewards.step w e = some w') : Sound owner w' := by
  cases e with
  | nextDay =>
    obtain rfl := Option.some.inj hstep
    exact ⟨h.players, h.feeds, h.sessions, h.calls, h.game⟩
  | login b day =>
    simp only [Rewards.step] at hstep
    split at hstep
    · rename_i hlast
      split at hstep
      · obtain rfl := Option.some.inj hstep
        exact h
      · obtain rfl := Option.some.inj hstep
        exact h.login hlast.2
    · cases hstep
  | fetch a =>
    obtain rfl := Option.some.inj hstep
    exact h.fetch a
  | players rows =>
    obtain rfl := Option.some.inj hstep
    exact ⟨hown, h.feeds, h.sessions, h.calls, h.game⟩
  | goLive enabled =>
    obtain rfl := Option.some.inj hstep
    exact ⟨h.players, h.feeds, h.sessions, h.calls, h.game⟩
  | press a =>
    obtain rfl := Option.some.inj hstep
    exact h.press hfits
  | grant i answer => exact h.grant hstep
  | serve c =>
    simp only [Rewards.step] at hstep
    split at hstep
    · rename_i hc
      obtain rfl := Option.some.inj hstep
      obtain ⟨day, hday, hearned⟩ := h.calls c hc
      exact h.serve hday hearned
    · cases hstep

end Sound

/-! ## The bound -/

theorem sum_le_of_nodup {α : Type} {l : List α} {key value : α → Int} {days : List Int}
    {worth : Int → Int} (hnodup : (l.map key).Nodup)
    (hmem : ∀ x ∈ l, key x ∈ days ∧ value x = worth (key x)) (hworth : ∀ d, 0 ≤ worth d) :
    (l.map value).sum ≤ (days.dedup.map worth).sum := by
  have hvalue : l.map value = (l.map key).map worth := by
    rw [List.map_map]
    exact List.map_congr_left (fun x hx => (hmem x hx).2)
  have hsub : List.Subperm (l.map key) days.dedup := by
    apply List.subperm_of_subset hnodup
    intro d hd
    obtain ⟨x, hx, rfl⟩ := List.mem_map.mp hd
    exact List.mem_dedup.mpr (hmem x hx).1
  obtain ⟨kept, hperm, hkept⟩ := hsub
  rw [hvalue, ← (hperm.map worth).sum_eq]
  apply (hkept.map worth).sum_le_sum
  intro v hv
  obtain ⟨d, -, rfl⟩ := List.mem_map.mp hv
  exact hworth d

theorem Sound.paid_le (h : Sound owner w) (hbooked : Booked w) (ctrl : Nat) :
    w.paidTo ctrl ≤ w.rampTotal (owner ctrl) := by
  have hacct : ∀ p ∈ w.game.paid.filter (fun p => p.controllerId = ctrl),
      p ∈ w.game.paid ∧ p.idem.accountId = owner ctrl := by
    intro p hp
    obtain ⟨hp, hctrl⟩ := List.mem_filter.mp hp
    have howner := h.game.owned p hp
    rw [of_decide_eq_true hctrl] at howner
    exact ⟨hp, howner.symm⟩
  have hnodup : ((w.game.paid.filter (fun p => p.controllerId = ctrl)).map
      (fun p => p.idem.periodKey)).Nodup := by
    have hpairs := hbooked.nodup.sublist
      ((List.filter_sublist (p := fun p : Payment => decide (p.controllerId = ctrl))).map
        (fun p => (p.idem.accountId, p.idem.periodKey)))
    -- the payments of one character are for one account
    have heq : (w.game.paid.filter (fun p => p.controllerId = ctrl)).map
        (fun p => (p.idem.accountId, p.idem.periodKey)) =
        ((w.game.paid.filter (fun p => p.controllerId = ctrl)).map
          (fun p => p.idem.periodKey)).map (fun d => (owner ctrl, d)) := by
      rw [List.map_map]
      apply List.map_congr_left
      intro p hp
      rw [(hacct p hp).2]
      rfl
    rw [heq] at hpairs
    exact hpairs.of_map
  refine sum_le_of_nodup hnodup (fun p hp => ?_) (fun d => dailyAmount_nonneg _)
  obtain ⟨hmem, heq⟩ := hacct p hp
  have hearned := h.game.earned p hmem
  rw [heq] at hearned
  exact hearned

end

/-- Each login day is paid at most once, in a run whose claims are all pressed while the feed
shows the whole run of logins that ended yesterday or cuts whole cycles off it: no day is in
two payments, and a character is paid at most the ramp amounts of its account's login days. -/
theorem paid_once {owner : Nat → Nat} {w : Sys} {events : List Event}
    (hfits : Along step PressFits Sys.start events) (hown : ∀ e ∈ events, e.Owned owner)
    (hrun : exec step Sys.start events = some w) :
    (w.game.paid.map (fun p => (p.idem.accountId, p.idem.periodKey))).Nodup ∧
      ∀ ctrl, w.paidTo ctrl ≤ w.rampTotal (owner ctrl) := by
  have hbooked : Booked w :=
    exec_invariant' (fun _ _ _ h hstep => Booked.step h hstep) Booked.start hrun
  have hsound : Sound owner w :=
    exec_invariant (fun _ _ _ h hg hstep => Sound.step h hg.2 hg.1 hstep) sound_start
      (along_and hown hfits) hrun
  exact ⟨hbooked.nodup, hsound.paid_le hbooked⟩

/-! Account 1 logs in on each of the days 1 to 64 and claims a cycle's days on its last, then
each day from day 61 on. -/

def alwaysThere : PlayerState := ⟨1, some 7, none, none, none, none, none⟩

def loginDay (day : Int) : List Event := [.nextDay, .login 1 day]

/-- A claim of `n` days from a feed that is read just before. -/
def claimDays (n : Nat) : List Event :=
  [.fetch 1, .press 1] ++ List.replicate n (.grant 0 (.answered true))

def claimWeek (k : Nat) : List Event :=
  (List.range 7).flatMap (fun i : Nat => loginDay (7 * k + i + 1)) ++ claimDays 7

def longRun : List Event :=
  [.players [alwaysThere], .goLive true] ++ (List.range 8).flatMap claimWeek ++
    (List.range 5).flatMap (fun i : Nat => loginDay (57 + i)) ++ claimDays 5 ++
    (List.range 3).flatMap (fun i : Nat => loginDay (62 + i) ++ claimDays 1)

theorem owned_alwaysThere : (Event.players [alwaysThere]).Owned (fun _ => 1) := by
  simp [Event.Owned, alwaysThere]

theorem runEnding_dailyLogins {n : Nat} {s : List Int} (hs : s = (dailyLogins n).reverse)
    {d : Int} (hd : d ∈ s) : runEnding s d = d.toNat := by
  have hmem : ∀ e : Int, e ∈ s ↔ 1 ≤ e ∧ e ≤ n := by
    intro e
    simp only [hs, dailyLogins, List.mem_reverse, List.mem_map, List.mem_range]
    constructor
    · rintro ⟨i, hi, rfl⟩
      omega
    · rintro ⟨hlow, hhigh⟩
      exact ⟨(e - 1).toNat, by omega, by omega⟩
  have hrange := (hmem d).mp hd
  rw [runEnding_eq]
  apply run_eq
  · intro i hi
    rw [hmem]
    omega
  · rw [hmem]
    omega

def dailyRow (d : Int) : ClaimRow :=
  ⟨deterministicIdem 1 .dailySolari d, 1, .dailySolari, dailyAmount d.toNat, 7,
    min ((d + 6) / 7 * 7) 61⟩

theorem unique_dailyRow (n : Nat) :
    (((dailyLogins n).reverse.map dailyRow).map ClaimRow.idem).Nodup := by
  have hkeys : ((dailyLogins n).reverse.map dailyRow).map ClaimRow.idem =
      (List.range n).reverse.map fun i : Nat => (dailyRow (i + 1)).idem := by
    simp [dailyLogins]
  rw [hkeys]
  refine List.Nodup.map ?_ (List.nodup_reverse.mpr List.nodup_range)
  intro i j hij
  have hday := congrArg IdemKey.periodKey hij
  simp only [dailyRow, deterministicIdem] at hday
  omega

/-- The system after `n` days, when each of them is paid. -/
def paidUp (n : Nat) (replies : List (Nat × ClaimReply)) : Sys :=
  let days := (dailyLogins n).reverse
  { today := n
    logins := days.map (1, ·)
    feeds := if n = 0 then Table.empty else Table.empty.put ⟨1, n - feedDays, feed days n⟩
    players := [alwaysThere]
    enabled := true
    game := ⟨⟨days.map dailyRow, unique_dailyRow n⟩,
      days.map fun d => ⟨(dailyRow d).idem, 7, (dailyRow d).amount⟩⟩
    calls := days.map fun d => ⟨1, (dailyRow d).idem, (dailyRow d).amount⟩
    mirror := days.map (1, ·)
    sessions := []
    replies }

def weeks (k : Nat) : Sys := paidUp (7 * k) (List.replicate k (1, .applied 122000 7))

theorem exec_claimWeek {k : Nat} (hk : k < 8) :
    exec step (weeks k) (claimWeek k) = some (weeks (k + 1)) := by
  interval_cases k <;> decide +kernel

theorem exec_claimWeeks {n : Nat} (hn : n ≤ 8) :
    exec step (weeks 0) ((List.range n).flatMap claimWeek) = some (weeks n) := by
  induction n with
  | zero => rfl
  | succ n ih =>
    rw [List.range_succ, List.flatMap_append, List.flatMap_singleton, exec_append]
    exact ⟨weeks n, ih (by omega), exec_claimWeek hn⟩

def fullWindow : Sys := paidUp 61 ((1, .applied 75000 5) :: (weeks 8).replies)

theorem exec_fullWindow :
    exec step (weeks 8) ((List.range 5).flatMap (fun i : Nat => loginDay (57 + i)) ++
      claimDays 5) = some fullWindow := by
  decide +kernel

theorem longRun_overpaid :
    ¬ ∀ (owner : Nat → Nat) (events : List Event) (w : Sys),
      (∀ e ∈ events, e.Owned owner) → exec step Sys.start events = some w →
        (w.game.paid.map (fun p => (p.idem.accountId, p.idem.periodKey))).Nodup ∧
          ∀ ctrl, w.paidTo ctrl ≤ w.rampTotal (owner ctrl) := by
  intro hclaim
  have hend : (exec step fullWindow ((List.range 3).flatMap (fun i : Nat =>
      loginDay (62 + i) ++ claimDays 1))).map
      (fun w => decide (w.loginsOf 1 = (dailyLogins 64).reverse ∧ w.paidTo 7 = 1111000)) =
        some true := by
    decide +kernel
  obtain ⟨w, hlast, hw⟩ := Option.map_eq_some_iff.mp hend
  obtain ⟨hlogins, hpaid⟩ := of_decide_eq_true hw
  have hrun : exec step Sys.start longRun = some w := by
    rw [longRun, exec_append]
    refine ⟨fullWindow, ?_, hlast⟩
    rw [List.append_assoc, exec_append]
    refine ⟨weeks 8, ?_, exec_fullWindow⟩
    rw [exec_append]
    exact ⟨weeks 0, rfl, exec_claimWeeks (le_refl 8)⟩
  have hramp : w.rampTotal 1 = 1108000 := by
    have hruns : (w.loginsOf 1).dedup.map (fun d => dailyAmount (runEnding (w.loginsOf 1) d)) =
        (w.loginsOf 1).dedup.map (fun d => dailyAmount d.toNat) := by
      apply List.map_congr_left
      intro d hd
      rw [runEnding_dailyLogins hlogins (List.mem_dedup.mp hd)]
    rw [Sys.rampTotal, hruns, hlogins]
    decide +kernel
  have howned : ∀ e ∈ longRun, e.Owned (fun _ => 1) := by
    intro e he
    cases e with
    | players rows =>
      have hrows : rows = [alwaysThere] := by
        simpa [longRun, claimWeek, loginDay, claimDays] using he
      rw [hrows]
      exact owned_alwaysThere
    | nextDay | login | fetch | goLive | press | grant | serve => trivial
  have hle := (hclaim (fun _ => 1) longRun w howned hrun).2 7
  rw [hpaid, hramp] at hle
  omega

def lostWrites : List Event :=
  [.players [alwaysThere], .goLive true] ++ loginDay 1 ++ loginDay 2 ++
    [.fetch 1, .press 1, .grant 0 (.answered false), .grant 0 .lost,
      .serve ⟨1, ⟨1, .dailySolari, 2⟩, 12000⟩] ++ claimDays 2

theorem paid_once_lostWrites :
    ∃ w, exec step Sys.start lostWrites = some w ∧ w.paidTo 7 = 22000 ∧
      w.paidTo 7 ≤ w.rampTotal 1 := by
  have hrun := (Option.some_get
    (show (exec step Sys.start lostWrites).isSome by decide +kernel)).symm
  have howned : ∀ e ∈ lostWrites, e.Owned (fun _ => 1) := by
    simp [lostWrites, loginDay, claimDays, Event.Owned, alwaysThere]
  refine ⟨_, hrun, by decide +kernel, ?_⟩
  exact (paid_once (by decide) howned hrun).2 7

end LastSietch.Rewards
