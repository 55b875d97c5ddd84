import Mathlib.Algebra.BigOperators.Ring.Finset
import LastSietch.Contests.Runs
import LastSietch.Nights.Books

/-!
# Who is paid

`PaidFairly` is what the invariant gives at the end of any run: one vote for each member and
none for oneself, awards that cost at most one reward for each entrant and one for each place,
places that go to the entrants `winners` ranked at the confirmation, and awards that are the
whole plan as soon as each of its cases is recorded as final.

A confirm that stops halfway leaves final statuses for a part of the plan only, so statuses say
that the plan is paid when they cover it: after a confirm that went through, or case by case.
-/

namespace LastSietch.Contests

open Nights Runs

def awardedTotal (c : Contest) (s : Sys) : Int := ((caseRows s.shop c.id).map LedgerRow.delta).sum

def AllFinal (m : State) : Prop := ∀ p ∈ m.payouts, p.status.isFinal = true

instance (m : State) : Decidable (AllFinal m) :=
  inferInstanceAs (Decidable (∀ p ∈ m.payouts.rows, p.status.isFinal = true))

def AllRecorded (c : Contest) (m : State) : Prop :=
  ∀ item ∈ payoutPlan c m, ∃ p ∈ m.payouts, p.caseId = item.caseId

structure PaidFairly (c : Contest) (s : Sys) : Prop where
  oneVote : ∀ v ∈ s.mem.votes, ∀ w ∈ s.mem.votes, v.voter = w.voter → v = w
  ownVotes : ∀ v ∈ s.mem.votes, v.voter ≠ v.entrant
  final : ∀ r, s.results = some r → s.mem.entries = r.entries ∧ s.mem.votes = r.votes
  ledger : (caseRows s.shop c.id).map rowFacts = s.awards.map Award.facts
  total : awardedTotal c s ≤
    (c.entrantReward * s.mem.entries.rows.length + c.winnerRewards.sum : Nat)
  places : ∀ a ∈ s.awards, ∀ n, a.item.caseId = placeCase c n →
    ∃ r, s.results = some r ∧ ∃ w ∈ winners c r, w.place = n ∧ w.entrant = a.item.discordId
  onePlace : ∀ a ∈ s.awards, ∀ b ∈ s.awards, ∀ n m, a.item.caseId = placeCase c n →
    b.item.caseId = placeCase c m → a.item.discordId = b.item.discordId → a.item = b.item ∧ n = m
  settled : AllRecorded c s.mem → AllFinal s.mem →
    (s.awards.map Award.item).Perm (payoutPlan c s.mem)
  recorded : s.through = true → AllRecorded c s.mem

section Final

variable {c : Contest} {s : Sys}

theorem Inv.plan_eq (h : Inv c s) (hresults : s.results ≠ none) :
    planOf c s.results = payoutPlan c s.mem := by
  cases hr : s.results with
  | none => exact absurd hr hresults
  | some r =>
    obtain ⟨hentries, hvotes, -⟩ := h.mem.frozen r hr
    exact (payoutPlan_congr hentries hvotes).symm

theorem Inv.total_eq (h : Inv c s) :
    awardedTotal c s = (((s.awards.map Award.item).map PlanItem.amount).sum : Nat) := by
  have hdeltas := congrArg (List.map fun f => f.2.1) h.rows
  rw [List.map_map, List.map_map] at hdeltas
  calc awardedTotal c s = (s.awards.map fun a => (a.item.amount : Int)).sum := congrArg List.sum hdeltas
    _ = _ := by
      rw [List.map_map, Nat.cast_list_sum, List.map_map]
      rfl

theorem Inv.awarded_le (h : Inv c s) : awardedTotal c s ≤
    (c.entrantReward * s.mem.entries.rows.length + c.winnerRewards.sum : Nat) := by
  rw [h.total_eq]
  refine Int.ofNat_le.mpr ?_
  cases hr : s.results with
  | none =>
    rw [(h.nothing hr).2.1]
    exact Nat.zero_le _
  | some r =>
    have hplan := h.plan_eq (by simp [hr])
    calc ((s.awards.map Award.item).map PlanItem.amount).sum
        ≤ ((planOf c s.results).map PlanItem.amount).sum := h.paid.sum_le PlanItem.amount
      _ = ((payoutPlan c s.mem).map PlanItem.amount).sum := by rw [hplan]
      _ ≤ _ := sum_payoutPlan_le c s.mem

theorem Inv.place_of_award (h : Inv c s) {a : Award} (ha : a ∈ s.awards) {n : Nat}
    (hcase : a.item.caseId = placeCase c n) :
    ∃ r, s.results = some r ∧ ∃ w ∈ winners c r, w.place = n ∧ w.entrant = a.item.discordId := by
  have hplanned := h.paid.planned _ (List.mem_map_of_mem ha)
  cases hr : s.results with
  | none =>
    rw [hr] at hplanned
    cases hplanned
  | some r =>
    rw [hr] at hplanned
    exact ⟨r, rfl, mem_payoutPlan_place hplanned hcase⟩

theorem Inv.place_unique (h : Inv c s) {a b : Award} (ha : a ∈ s.awards) (hb : b ∈ s.awards)
    {n m : Nat} (hn : a.item.caseId = placeCase c n) (hm : b.item.caseId = placeCase c m)
    (hsame : a.item.discordId = b.item.discordId) : a.item = b.item ∧ n = m := by
  obtain ⟨r, hr, w, hw, rfl, hwa⟩ := h.place_of_award ha hn
  obtain ⟨r', hr', w', hw', rfl, hwb⟩ := h.place_of_award hb hm
  cases Option.some.inj (hr.symm.trans hr')
  have hwinner : w = w' := List.inj_on_of_nodup_map (winners_entrants_nodup c r) hw hw'
    (hwa.trans (hsame.trans hwb.symm))
  refine ⟨?_, by rw [hwinner]⟩
  refine List.inj_on_of_nodup_map h.paid.once (List.mem_map_of_mem ha) (List.mem_map_of_mem hb) ?_
  rw [hn, hm, hwinner]

theorem Inv.settle (h : Inv c s) (hrecorded : AllRecorded c s.mem) (hfinal : AllFinal s.mem) :
    (s.awards.map Award.item).Perm (payoutPlan c s.mem) := by
  have hpaid : ∀ item ∈ payoutPlan c s.mem, ∃ x ∈ s.awards.map Award.item,
      x.caseId = item.caseId := by
    intro item hitem
    obtain ⟨p, hp, hcase⟩ := hrecorded item hitem
    obtain ⟨a, ha, hacase⟩ := h.mem.recorded p hp (hfinal p hp)
    exact ⟨a.item, List.mem_map_of_mem ha, hacase.trans hcase⟩
  cases hr : s.results with
  | none =>
    have hawards := (h.nothing hr).2.1
    have hnil : payoutPlan c s.mem = [] := by
      refine List.eq_nil_iff_forall_not_mem.mpr fun item hitem => ?_
      obtain ⟨x, hx, -⟩ := hpaid item hitem
      rw [hawards] at hx
      cases hx
    rw [hawards, hnil]
    exact List.Perm.nil
  | some r =>
    have hplan := h.plan_eq (by simp [hr])
    have hof := h.paid
    rw [hplan] at hof
    exact hof.perm (payoutPlan_caseIds_nodup c s.mem) hpaid

theorem Inv.paidFairly (h : Inv c s) : PaidFairly c s where
  oneVote v hv w hw heq := Table.eq_of_key_eq hv hw heq
  ownVotes := h.mem.ownVotes
  final r hr := ⟨(h.mem.frozen r hr).1, (h.mem.frozen r hr).2.1⟩
  ledger := h.rows
  total := h.awarded_le
  places _ ha _ hcase := h.place_of_award ha hcase
  onePlace _ ha _ hb _ _ hn hm hsame := h.place_unique ha hb hn hm hsame
  settled := h.settle
  recorded := by
    intro hthrough item hitem
    rw [← h.plan_eq (h.throughPlan hthrough)] at hitem
    exact h.mem.covered hthrough item hitem

end Final

/-- Every run of a contest, from a ledger that has no case of it. -/
theorem contest_paid_fairly (c : Contest) {shop : Shop} (hshop : caseRows shop c.id = [])
    {acts : List Act} {s : Sys} (hrun : exec (step c) (Sys.start shop) acts = some s) :
    PaidFairly c s :=
  (Inv.run hshop hrun).paidFairly

def moonPhotos : Contest where
  id := "moon"
  eventLabel := "Moon nights"
  title := "Best moon"
  submitOpensAt := 100
  submitClosesAt := 200
  voteOpensAt := 200
  voteClosesAt := 300
  entrantReward := 2
  winnerRewards := [10, 5]
  idOk := by decide
  windows := by decide
  places := by decide
  rewards := by decide

def enters (uid : Nat) (now : Int) : List Act :=
  [.submit uid false " The  moon " "" now, .start 0 now, .compose 0 "Member" ".png" now,
    .post 0 (1000 + uid) now]

def moonUpToConfirm : List Act :=
  enters 11 110 ++ enters 12 120 ++
    [.vote 12 false 11 210, .vote 13 false 11 220, .vote 11 false 12 230, .press 7 310, .enter 311]

def paysCase (k : Nat) (profile : Nat) : List Act :=
  [.send, .serve k (some profile) ["moon"], .receive]

theorem moon_paid_in_full : ∃ s, exec (step moonPhotos) (Sys.start Shop.start)
      (moonUpToConfirm ++ paysCase 0 1 ++ paysCase 1 2 ++ paysCase 2 1 ++ paysCase 3 2 ++
        [.finish]) = some s ∧
    PaidFairly moonPhotos s ∧ s.through = true ∧ AllFinal s.mem ∧ awardedTotal moonPhotos s = 19 := by
  have goes : (exec (step moonPhotos) (Sys.start Shop.start)
      (moonUpToConfirm ++ paysCase 0 1 ++ paysCase 1 2 ++ paysCase 2 1 ++ paysCase 3 2 ++
        [.finish])).any (fun s => s.through && decide (AllFinal s.mem) &&
          decide (awardedTotal moonPhotos s = 19)) = true := by
    decide
  obtain ⟨s, hrun, hs⟩ := (Option.any_eq_true _ _).mp goes
  simp only [Bool.and_eq_true, decide_eq_true_eq] at hs
  exact ⟨s, hrun, contest_paid_fairly moonPhotos rfl hrun, hs.1.1, hs.1.2, hs.2⟩

/-- The bot stops after the first of four cases: each recorded status is final, yet the awards
are not the plan. -/
theorem moon_stopped_halfway : ∃ s, exec (step moonPhotos) (Sys.start Shop.start)
      (moonUpToConfirm ++ paysCase 0 1 ++ [.abort, .restart]) = some s ∧
    s.mem.payouts.rows ≠ [] ∧ AllFinal s.mem ∧
    ¬ (s.awards.map Award.item).Perm (payoutPlan moonPhotos s.mem) := by
  have goes : (exec (step moonPhotos) (Sys.start Shop.start)
      (moonUpToConfirm ++ paysCase 0 1 ++ [.abort, .restart])).any (fun s =>
        decide (s.mem.payouts.rows ≠ []) && decide (AllFinal s.mem) &&
          decide ((s.awards.map Award.item).length ≠ (payoutPlan moonPhotos s.mem).length)) = true := by
    decide
  obtain ⟨s, hrun, hs⟩ := (Option.any_eq_true _ _).mp goes
  simp only [Bool.and_eq_true, decide_eq_true_eq] at hs
  exact ⟨s, hrun, hs.1.1, hs.1.2, fun hperm => hs.2 hperm.length_eq⟩

/-! ## The contest among the operations of the Stall -/

variable {c : Contest} {s s' : Sys}

theorem awardRoute_performs (shop : Shop) (item : PlanItem) (profile : Option Nat)
    (allowed : List String) : (awardRoute shop item profile allowed).1 = shop ∨
      ∃ op, (awardRoute shop item profile allowed).1 = shop.perform op := by
  unfold awardRoute
  dsimp only
  split
  · exact Or.inl rfl
  split
  · exact Or.inl rfl
  split
  · exact Or.inl rfl
  cases hcase : parseCase item.caseId with
  | none => exact Or.inl rfl
  | some kase =>
    by_cases hallowed : allowed = []
    · exact Or.inl (by simp [hallowed])
    · simp only [if_neg hallowed]
      split
      · rename_i hamount _ _ _ haward
        refine Or.inr ⟨.contestAward (toString item.discordId) profile item.amount kase allowed, ?_⟩
        simp only [Shop.perform]
        rw [if_pos (by omega), haward]
      all_goals exact Or.inl rfl

def Act.ofPortal : Act → Bool
  | .portal _ => true
  | _ => false

/-- The portal changes the ledger by operations of the Stall. -/
def OnStall (s : Sys) : Act → Prop
  | .portal shop => ∃ ops, exec shopStep s.shop ops = some shop
  | _ => True

theorem step_shop {a : Act} (hs : Contests.step c s a = some s') (hstall : OnStall s a) :
    ∃ ops, exec shopStep s.shop ops = some s'.shop := by
  have hsame : s'.shop = s.shop → ∃ ops, exec shopStep s.shop ops = some s'.shop :=
    fun h => ⟨[], congrArg some h.symm⟩
  cases a with
  | serve k profile allowed =>
    simp only [Contests.step, serve] at hs
    split at hs
    · cases hs
    · rename_i request hrequest
      cases hs
      rcases awardRoute_performs s.shop request.item profile allowed with hshop | ⟨op, hshop⟩
      · exact hsame hshop
      · exact ⟨[op], congrArg some hshop.symm⟩
  | portal shop =>
    simp only [Contests.step] at hs
    split_ifs at hs
    cases hs
    exact hstall
  | _ =>
    refine hsame ?_
    simp only [Contests.step, submitEntry, startUpload, composeEntry, postEntry, handleVote,
      removeCommand, tick, pressConfirm, enterConfirm, sendNext, receive, fail, finish, abort,
      restart, recordStatus, Sys.saved] at hs
    grind

/-- A contest pays by operations of the Stall: from a ledger that such a run has left, with a portal
that keeps to them, it leaves one. So no balance is negative, and the rows of each order still add
up. -/
theorem contest_on_stall {before : List ShopOp} {shop : Shop}
    (hbefore : exec shopStep Shop.start before = some shop) {acts : List Act}
    (hstall : Along (Contests.step c) OnStall (Sys.start shop) acts)
    (hrun : exec (Contests.step c) (Sys.start shop) acts = some s) :
    (∃ ops, exec shopStep Shop.start ops = some s.shop) ∧ (∀ p, 0 ≤ s.shop.balance p) ∧
      ∀ o ∈ s.shop.orders, orderSum s.shop.ledger o.id =
        if o.status = .refunded then 0 else -(o.price : Int) := by
  have hreached : ∃ ops, exec shopStep Shop.start ops = some s.shop := by
    refine exec_invariant (I := fun s => ∃ ops, exec shopStep Shop.start ops = some s.shop) ?_
      ⟨before, hbefore⟩ hstall hrun
    rintro m a m' ⟨ops, hops⟩ hon hstep
    obtain ⟨more, hmore⟩ := step_shop hstep hon
    exact ⟨ops ++ more, exec_append.mpr ⟨m.shop, hops, hmore⟩⟩
  obtain ⟨ops, hops⟩ := hreached
  have hbooks : Books s.shop :=
    exec_invariant' (fun m op m' hm hop => Option.some.inj hop ▸ hm.step op) books_start hops
  exact ⟨⟨ops, hops⟩, hbooks.solvent, fun o ho => hbooks.orderSum ho⟩

theorem contest_on_stall_moon : ∃ s, exec (Contests.step moonPhotos) (Sys.start Shop.start)
      (moonUpToConfirm ++ paysCase 0 1) = some s ∧ s.shop.balance 1 = 2 ∧
    ∃ ops, exec shopStep Shop.start ops = some s.shop := by
  obtain ⟨s, hrun, hbalance⟩ : ∃ s, exec (Contests.step moonPhotos) (Sys.start Shop.start)
      (moonUpToConfirm ++ paysCase 0 1) = some s ∧ s.shop.balance 1 = 2 :=
    exec_shows (by decide)
  have hstall : Along (Contests.step moonPhotos) OnStall (Sys.start Shop.start)
      (moonUpToConfirm ++ paysCase 0 1) := by
    have hown : ∀ a ∈ moonUpToConfirm ++ paysCase 0 1, a.ofPortal = false := by decide
    refine along_mono (fun s a h => ?_) (along_and hown (along_true _ _))
    cases a <;> first | trivial | cases h.1
  have hbefore : exec shopStep Shop.start [] = some Shop.start := rfl
  exact ⟨s, hrun, hbalance, (contest_on_stall hbefore hstall hrun).1⟩

end LastSietch.Contests
