import LastSietch.Nights.Cap

/-!
# What a profile is credited

A credit is never changed: the first pass that credits a key (night, source, ref) decides
its amount, from the evidence of the accounts linked at that time. `Recorded` watches a run
with a history variable `seen`: for every profile and key the maximum that the last pass saw
which found the key uncredited, so for a credited key the maximum at the pass that credited
it.

* `lateEvidence_uncredited`: the maxima seen need not be those of the evidence as it is.
-/

namespace LastSietch.Nights

open Quota Runs

def Sys.best (s : Sys) (accounts : List Nat) (k : Key) : Int :=
  maxAmount (s.earn.rows.filter (fun e => e.accountId ∈ accounts)) k

def Sys.credit (s : Sys) (p : Nat) (k : Key) : Int :=
  ((s.credits.get? (p, k)).map CreditRow.delta).getD 0

def Sys.refs (s : Sys) (night : String) (source : Source) : List String :=
  ((s.earn.rows.filter (fun e => e.night = night ∧ e.source.1 = source)).map EarnRow.ref).dedup

variable {s : Sys}

theorem mem_refs {night : String} {source : Source} {ref : String} :
    ref ∈ s.refs night source ↔ ∃ e ∈ s.earn, e.key = ⟨night, source, ref⟩ := by
  simp only [Sys.refs, List.mem_dedup, List.mem_map, List.mem_filter, decide_eq_true_eq,
    EarnRow.key, Key.mk.injEq, SerialTable.mem_def]
  constructor
  · rintro ⟨e, ⟨he, hn, hs⟩, hr⟩
    exact ⟨e, he, hn, hs, hr⟩
  · rintro ⟨e, he, hn, hs, hr⟩
    exact ⟨e, ⟨he, hn, hs⟩, hr⟩

theorem best_nonneg (s : Sys) (accounts : List Nat) (k : Key) : 0 ≤ s.best accounts k :=
  maxAmount_nonneg _ k

theorem credit_of_mem {c : CreditRow} (hc : c ∈ s.credits) :
    s.credit c.profileId c.key = c.delta := by
  have hget : s.credits.get? (c.profileId, c.key) = some c := Table.get?_eq_some.mpr ⟨hc, rfl⟩
  rw [Sys.credit, hget]
  rfl

theorem credit_of_none {p : Nat} {k : Key} (h : s.credits.get? (p, k) = none) :
    s.credit p k = 0 := by
  rw [Sys.credit, h]
  rfl

theorem mem_of_credited {p : Nat} {k : Key} {c : CreditRow}
    (h : s.credits.get? (p, k) = some c) : c ∈ s.credits ∧ c.profileId = p ∧ c.key = k := by
  obtain ⟨hc, hkey⟩ := Table.get?_eq_some.mp h
  exact ⟨hc, congrArg Prod.fst hkey, congrArg Prod.snd hkey⟩

theorem maxAmount_pending {p : Nat} {accounts : List Nat} {k : Key}
    (h : s.credits.get? (p, k) = none) :
    maxAmount (s.pending p accounts) k = s.best accounts k := by
  simp only [maxAmount, Sys.best, Sys.pending, List.filter_filter]
  congr 2
  apply List.filter_congr
  intro e _
  by_cases hk : e.key = k
  · simp [hk, h]
  · simp [hk]

/-! ## The ledger only grows -/

/-- `P` survives one more row. -/
def Grows (P : Credits → Prop) : Prop :=
  ∀ (t t' : Credits) (row : CreditRow), t'.rows = row :: t.rows → 0 < row.delta → P t → P t'

namespace Grows

variable {P : Credits → Prop}

theorem creditGroup (hP : Grows P) {t : Credits} (p : Nat) (g : Group) (h : P t) :
    P (creditGroup p t g).1 := by
  rcases creditGroup_cases p t g with ⟨row, hrows, -, -, -, hpos, -⟩ | ⟨heq, -⟩
  · exact hP t _ row hrows hpos h
  · rw [heq]
    exact h

theorem creditGroups (hP : Grows P) {t : Credits} (p : Nat) (gs : List Group) (h : P t) :
    P (creditGroups p t gs).1 :=
  creditGroups_induct (fun _ g _ ht => hP.creditGroup p g ht) h

theorem creditStreak (hP : Grows P) {t : Credits} (p : Nat) (h : P t) :
    P (creditStreak p t).1 := by
  rcases creditStreak_cases p t with ⟨hrows, -, -⟩ | ⟨heq, -⟩
  · exact hP t _ _ hrows streakAward_pos h
  · rw [heq]
    exact h

theorem apply (hP : Grows P) {s : Sys} (a : Act) (h : P s.credits) : P (s.apply a).credits :=
  apply_credits_induct (fun _ p g _ ht => hP.creditGroup p g ht)
    (fun _ p ht => hP.creditStreak p ht) a h

theorem mem (c : CreditRow) : Grows (fun t => c ∈ t) :=
  fun _ _ _ hrows _ hc => (Table.mem_of_rows hrows).mpr (Or.inr hc)

theorem credited (x : Int) (p : Nat) (night : String) (source : Source) :
    Grows (fun t => x ≤ credited t p night source) := by
  intro t t' row hrows hpos h
  show x ≤ Nights.credited t' p night source
  rw [credited_of_rows hrows]
  split
  · exact le_trans h (by omega)
  · rw [zero_add]
    exact h

theorem visitNights (n p : Nat) : Grows (fun t => n ≤ visitNights t p) := by
  intro t t' row hrows _ h
  refine le_trans h ?_
  unfold Nights.visitNights
  apply List.Subperm.length_le
  apply List.subperm_of_subset (List.nodup_dedup _)
  intro night hnight
  obtain ⟨c, hc, rfl⟩ := List.mem_map.mp (List.mem_dedup.mp hnight)
  obtain ⟨hc, hvisit⟩ := List.mem_filter.mp hc
  refine List.mem_dedup.mpr (List.mem_map.mpr ⟨c, List.mem_filter.mpr ⟨?_, hvisit⟩, rfl⟩)
  rw [hrows]
  exact List.mem_cons_of_mem row hc

end Grows

theorem get?_apply {s : Sys} {p : Nat} {k : Key} {c : CreditRow}
    (h : s.credits.get? (p, k) = some c) (a : Act) :
    (s.apply a).credits.get? (p, k) = some c := by
  obtain ⟨hc, hkey⟩ := Table.get?_eq_some.mp h
  exact Table.get?_eq_some.mpr ⟨(Grows.mem c).apply a hc, hkey⟩

theorem creditGroups_complete (p : Nat) {gs : List Group} {g : Group} (hg : g ∈ gs)
    (hpos : 0 < g.amount) (t : Credits) :
    (∃ c ∈ (creditGroups p t gs).1, c.profileId = p ∧ c.key = g.key) ∨
      ∃ cap, capFor g.key.night g.key.source = some cap ∧
        cap ≤ credited (creditGroups p t gs).1 p g.key.night g.key.source := by
  induction gs generalizing t with
  | nil => cases hg
  | cons g' gs ih =>
    rcases List.mem_cons.mp hg with rfl | hg
    · rcases creditGroup_cases p t g with ⟨row, hrows, hp, hkey, -⟩ | ⟨-, hle | ⟨c, hc, hp, hkey⟩⟩
      · have hrow : row ∈ (creditGroup p t g).1 := (Table.mem_of_rows hrows).mpr (Or.inl rfl)
        exact Or.inl ⟨row, (Grows.mem row).creditGroups p gs hrow, hp, hkey⟩
      · obtain ⟨cap, hcap, hfull⟩ := exists_cap_of_grant_nonpos hpos hle
        have hgrows := Grows.credited cap p g.key.night g.key.source
        exact Or.inr ⟨cap, hcap, hgrows.creditGroups p gs (hgrows.creditGroup p g hfull)⟩
      · have hgrows := Grows.mem c
        exact Or.inl ⟨c, hgrows.creditGroups p gs (hgrows.creditGroup p g hc), hp, hkey⟩
    · exact ih hg _

/-! ## Fair credits -/

/-- The credits of the profile against the maxima `want`: none is larger, and one that falls
short found its night and source at the cap. -/
structure Fair (t : Credits) (p : Nat) (want : Key → Int) : Prop where
  le : ∀ c ∈ t, c.profileId = p → c.key.source ≠ .streak → c.delta ≤ want c.key
  full : ∀ c ∈ t, c.profileId = p → c.key.source ≠ .streak → c.delta < want c.key →
    ∃ cap, capFor c.key.night c.key.source = some cap ∧
      cap ≤ credited t p c.key.night c.key.source

namespace Fair

variable {t : Credits} {p : Nat} {want : Key → Int}

theorem empty (p : Nat) (want : Key → Int) : Fair Table.empty p want where
  le c hc := absurd hc (Table.not_mem_empty c)
  full c hc := absurd hc (Table.not_mem_empty c)

theorem congr (h : Fair t p want) {want' : Key → Int}
    (heq : ∀ c ∈ t, c.profileId = p → want' c.key = want c.key) : Fair t p want' where
  le c hc hp hs := by
    rw [heq c hc hp]
    exact h.le c hc hp hs
  full c hc hp hs hlt := by
    rw [heq c hc hp] at hlt
    exact h.full c hc hp hs hlt

theorem creditGroup (h : Fair t p want) {q : Nat} {g : Group}
    (hg : q = p → g.amount = want g.key) : Fair (creditGroup q t g).1 p want := by
  rcases creditGroup_cases q t g with ⟨row, hrows, rfl, hkey, hdelta, hpos, -⟩ | ⟨heq, -⟩
  · constructor
    · intro c hc hp hs
      rcases (Table.mem_of_rows hrows).mp hc with rfl | hc
      · rw [hdelta, hkey, ← hg hp]
        exact grant_le _ _ _
      · exact h.le c hc hp hs
    · intro c hc hp hs hlt
      rcases (Table.mem_of_rows hrows).mp hc with rfl | hc
      · -- the new row is clipped: it has used up what was left
        rw [hdelta, hkey, ← hg hp] at hlt
        obtain ⟨cap, hcap, hused⟩ := exists_cap_of_grant_lt hlt
        refine ⟨cap, hkey ▸ hcap, ?_⟩
        rw [← hp, credited_of_self hrows, hdelta, hkey, hused]
      · obtain ⟨cap, hcap, hfull⟩ := h.full c hc hp hs hlt
        exact ⟨cap, hcap, Grows.credited cap p _ _ t _ row hrows hpos hfull⟩
  · rw [heq]
    exact h

theorem creditStreak (h : Fair t p want) (q : Nat) : Fair (creditStreak q t).1 p want := by
  rcases creditStreak_cases q t with ⟨hrows, -, -⟩ | ⟨heq, -⟩
  · constructor
    · intro c hc hp hs
      rcases (Table.mem_of_rows hrows).mp hc with rfl | hc
      · exact absurd rfl hs
      · exact h.le c hc hp hs
    · intro c hc hp hs hlt
      rcases (Table.mem_of_rows hrows).mp hc with rfl | hc
      · exact absurd rfl hs
      · obtain ⟨cap, hcap, hfull⟩ := h.full c hc hp hs hlt
        exact ⟨cap, hcap, Grows.credited cap p _ _ t _ _ hrows streakAward_pos hfull⟩
  · rw [heq]
    exact h

end Fair

/-! ## The streak and the evidence behind the credits -/

def Moon (t : Credits) : Prop :=
  ∀ c ∈ t, c.key.source = .streak → nightKeys.length ≤ visitNights t c.profileId

theorem Moon.creditGroup {t : Credits} (h : Moon t) (p : Nat) {g : Group}
    (hg : g.key.source ≠ .streak) : Moon (creditGroup p t g).1 := by
  rcases creditGroup_cases p t g with ⟨row, hrows, -, hkey, -, hpos, -⟩ | ⟨heq, -⟩
  · intro c hc hs
    rcases (Table.mem_of_rows hrows).mp hc with rfl | hc
    · exact absurd (hkey ▸ hs) hg
    · exact Grows.visitNights _ _ t _ row hrows hpos (h c hc hs)
  · rw [heq]
    exact h

theorem Moon.creditStreak {t : Credits} (h : Moon t) (p : Nat) : Moon (creditStreak p t).1 := by
  rcases creditStreak_cases p t with ⟨hrows, hnights, -⟩ | ⟨heq, -⟩
  · intro c hc hs
    apply Grows.visitNights _ _ t _ _ hrows streakAward_pos
    rcases (Table.mem_of_rows hrows).mp hc with rfl | hc
    · exact hnights
    · exact h c hc hs
  · rw [heq]
    exact h

def Evidenced (earn : EarnTable) (t : Credits) : Prop :=
  ∀ c ∈ t, c.key.source ≠ .streak → ∃ e ∈ earn, e.key = c.key

theorem Evidenced.creditGroup {earn : EarnTable} {t : Credits} (h : Evidenced earn t) (p : Nat)
    {g : Group} (hg : ∃ e ∈ earn, e.key = g.key) : Evidenced earn (creditGroup p t g).1 := by
  rcases creditGroup_cases p t g with ⟨row, hrows, -, hkey, -⟩ | ⟨heq, -⟩
  · intro c hc hs
    rcases (Table.mem_of_rows hrows).mp hc with rfl | hc
    · rw [hkey]
      exact hg
    · exact h c hc hs
  · rw [heq]
    exact h

theorem Evidenced.creditStreak {earn : EarnTable} {t : Credits} (h : Evidenced earn t) (p : Nat) :
    Evidenced earn (creditStreak p t).1 := by
  rcases creditStreak_cases p t with ⟨hrows, -, -⟩ | ⟨heq, -⟩
  · intro c hc hs
    rcases (Table.mem_of_rows hrows).mp hc with rfl | hc
    · exact absurd rfl hs
    · exact h c hc hs
  · rw [heq]
    exact h

theorem mem_earn_apply {s : Sys} {e : EarnRow} (he : e ∈ s.earn) (a : Act) :
    e ∈ (s.apply a).earn := by
  cases a with
  | addEarn accountId night source ref amount =>
    rcases addEarn_cases s accountId night source ref amount with h | ⟨earn, h, hold⟩
    · rw [Sys.apply, h]
      exact he
    · rw [Sys.apply, h]
      exact hold e he
  | link profileId accountId =>
    simp only [Sys.apply, Sys.link]
    split <;> exact he
  | unlink profileId accountId => exact he
  | recordEarly accountId early =>
    simp only [Sys.apply, Sys.recordEarly]
    split <;> exact he
  | recordLevel accountId lvl =>
    simp only [Sys.apply, Sys.recordLevel]
    split
    · exact he
    · split <;> exact he
  | creditProfile p accounts =>
    rw [Sys.apply, (pass_earn s p accounts).1]
    exact he
  | post entry => exact he

theorem Evidenced.apply {s : Sys} (h : Evidenced s.earn s.credits) (a : Act) :
    Evidenced (s.apply a).earn (s.apply a).credits := by
  have hgrow : Evidenced (s.apply a).earn s.credits := by
    intro c hc hs
    obtain ⟨e, he, hkey⟩ := h c hc hs
    exact ⟨e, mem_earn_apply he a, hkey⟩
  rcases apply_credits s a with heq | ⟨p, accounts, rfl⟩
  · rw [heq]
    exact hgrow
  · refine pass_induct (fun t g hg ht => ?_) (fun t ht => ht.creditStreak p) hgrow
    obtain ⟨e, he, rfl⟩ := mem_groups.mp hg
    exact ht.creditGroup p ⟨e, mem_earn_apply (mem_pending.mp he).1 _, rfl⟩

theorem best_pass (s : Sys) (q : Nat) (accounts : Option (List Nat)) (p : Nat) (k : Key) :
    (s.apply (.creditProfile q accounts)).best
        ((s.apply (.creditProfile q accounts)).profileAccounts p) k =
      s.best (s.profileAccounts p) k := by
  obtain ⟨hearn, -, hlinks⟩ := pass_earn s q accounts
  have haccounts : (s.creditProfile q accounts).1.profileAccounts p = s.profileAccounts p := by
    rw [Sys.profileAccounts, hlinks]
    rfl
  rw [Sys.apply, haccounts, Sys.best, hearn]
  rfl

/-! ## Runs with their history -/

structure Recorded where
  sys : Sys
  seen : Nat → Key → Int

def Recorded.start : Recorded := ⟨Sys.start, fun _ _ => 0⟩

def Recorded.apply (r : Recorded) (a : Act) : Recorded where
  sys := r.sys.apply a
  seen p k :=
    match a with
    | .creditProfile q accounts =>
      if q = p ∧ r.sys.credits.get? (p, k) = none then
        r.sys.best (accounts.getD (r.sys.profileAccounts q)) k
      else r.seen p k
    | _ => r.seen p k

def recordedStep (r : Recorded) (a : Act) : Option Recorded := some (r.apply a)

theorem seen_kept {r : Recorded} {p : Nat} {k : Key} {c : CreditRow}
    (h : r.sys.credits.get? (p, k) = some c) (a : Act) : (r.apply a).seen p k = r.seen p k := by
  cases a with
  | creditProfile q accounts => exact if_neg (fun hq => by rw [h] at hq; cases hq.2)
  | addEarn | link | unlink | recordEarly | recordLevel | post => rfl

structure History (r : Recorded) : Prop where
  nonneg : ∀ p k, 0 ≤ r.seen p k
  bounded : Bounded r.sys.credits
  fair : ∀ p, Fair r.sys.credits p (r.seen p)
  evidenced : Evidenced r.sys.earn r.sys.credits
  moon : Moon r.sys.credits

namespace History

theorem start : History Recorded.start where
  nonneg _ _ := le_refl _
  bounded := Bounded.empty
  fair p := Fair.empty p _
  evidenced c hc := absurd hc (Table.not_mem_empty c)
  moon c hc := absurd hc (Table.not_mem_empty c)

theorem fair_apply {r : Recorded} (h : History r) (a : Act) (p : Nat) :
    Fair (r.apply a).sys.credits p ((r.apply a).seen p) := by
  have hold : Fair r.sys.credits p ((r.apply a).seen p) := by
    apply (h.fair p).congr
    rintro c hc rfl
    exact seen_kept (Table.get?_eq_some.mpr ⟨hc, rfl⟩) a
  obtain ⟨want, hwant⟩ : ∃ want, (r.apply a).seen p = want := ⟨_, rfl⟩
  rw [hwant] at hold ⊢
  show Fair (r.sys.apply a).credits p want
  rcases apply_credits r.sys a with heq | ⟨q, accounts, rfl⟩
  · rw [heq]
    exact hold
  · refine @pass_induct (fun t => Fair t p want) _ _ _ (fun t g hg ht => ?_)
      (fun t ht => ht.creditStreak q) hold
    apply ht.creditGroup
    rintro rfl
    obtain ⟨e, he, rfl⟩ := mem_groups.mp hg
    have hnone := (mem_pending.mp he).2.2
    rw [← hwant, maxAmount_pending hnone]
    exact (if_pos ⟨rfl, hnone⟩).symm

theorem nonneg_apply {r : Recorded} (h : History r) (a : Act) (p : Nat) (k : Key) :
    0 ≤ (r.apply a).seen p k := by
  cases a with
  | creditProfile q accounts =>
    simp only [Recorded.apply]
    split
    · exact best_nonneg _ _ _
    · exact h.nonneg p k
  | addEarn | link | unlink | recordEarly | recordLevel | post => exact h.nonneg p k

theorem apply {r : Recorded} (h : History r) (a : Act) : History (r.apply a) where
  nonneg := h.nonneg_apply a
  bounded := h.bounded.apply a
  fair p := h.fair_apply a p
  evidenced := h.evidenced.apply a
  moon := apply_credits_induct (fun _ p _ hg ht => ht.creditGroup p hg)
    (fun _ p ht => ht.creditStreak p) a h.moon

theorem exec {r : Recorded} {acts : List Act}
    (hrun : Runs.exec recordedStep Recorded.start acts = some r) : History r :=
  exec_invariant' (fun _ a _ h ha => Option.some.inj ha ▸ h.apply a) start hrun

/-! ## The credits after a pass -/

variable {r : Recorded} {p : Nat}

theorem sum_credit (h : History r) {night : String} {source : Source} (hs : source ≠ .streak) :
    ((r.sys.refs night source).map (fun ref => r.sys.credit p ⟨night, source, ref⟩)).sum =
      credited r.sys.credits p night source := by
  refine Table.sum_keys r.sys.credits (g := fun ref => (p, (⟨night, source, ref⟩ : Key)))
    (List.nodup_dedup _) ?_ CreditRow.delta ?_
  · intro ref ref' heq
    simpa using heq
  · intro c hc
    simp only [decide_eq_true_eq, Prod.mk.injEq]
    constructor
    · rintro ⟨hp, hn, hsrc⟩
      obtain ⟨e, he, hkey⟩ := h.evidenced c hc (hsrc ▸ hs)
      refine ⟨c.key.ref, mem_refs.mpr ⟨e, he, ?_⟩, hp, ?_⟩
      · rw [hkey, ← hn, ← hsrc]
      · rw [← hn, ← hsrc]
    · rintro ⟨ref, -, hp, hkey⟩
      rw [hkey]
      exact ⟨hp, rfl, rfl⟩

variable {k : Key}

theorem credit_le (h : History r) (hs : k.source ≠ .streak) :
    r.sys.credit p k ≤ r.seen p k := by
  cases hget : r.sys.credits.get? (p, k) with
  | none =>
    rw [credit_of_none hget]
    exact h.nonneg p k
  | some c =>
    obtain ⟨hc, rfl, rfl⟩ := mem_of_credited hget
    rw [credit_of_mem hc]
    exact (h.fair c.profileId).le c hc rfl hs

abbrev final (r : Recorded) (p : Nat) : Recorded := r.apply (.creditProfile p none)

theorem best_final (k : Key) :
    (final r p).sys.best ((final r p).sys.profileAccounts p) k =
      r.sys.best (r.sys.profileAccounts p) k :=
  best_pass r.sys p none p k

theorem seen_final (hnone : r.sys.credits.get? (p, k) = none) :
    (final r p).seen p k = (final r p).sys.best ((final r p).sys.profileAccounts p) k := by
  rw [best_final]
  exact if_pos ⟨rfl, hnone⟩

theorem uncredited_of_final {a : Act}
    (hnone : (r.apply a).sys.credits.get? (p, k) = none) : r.sys.credits.get? (p, k) = none := by
  cases hget : r.sys.credits.get? (p, k) with
  | none => rfl
  | some c =>
    have hc : (r.apply a).sys.credits.get? (p, k) = some c := get?_apply hget a
    rw [hc] at hnone
    cases hnone

theorem credits_final (helig : r.sys.profileEligible (r.sys.profileAccounts p) = true) :
    (final r p).sys.credits = (creditStreak p (creditGroups p r.sys.credits
      (groups (r.sys.pending p (r.sys.profileAccounts p)))).1).1 := by
  rcases creditProfile_cases r.sys p none with ⟨hno, -⟩ | ⟨-, heq⟩
  · cases helig.symm.trans hno
  · exact congrArg Sys.credits heq

theorem streak_paid_final (helig : r.sys.profileEligible (r.sys.profileAccounts p) = true)
    (hnights : nightKeys.length ≤ visitNights (final r p).sys.credits p) :
    ∃ c ∈ (final r p).sys.credits, c.profileId = p ∧ c.key = streakKey := by
  rw [credits_final helig] at hnights ⊢
  rcases creditStreak_cases p (creditGroups p r.sys.credits
      (groups (r.sys.pending p (r.sys.profileAccounts p)))).1 with
    ⟨hrows, -, -⟩ | ⟨heq, hlt | hpaid⟩
  · exact ⟨_, (Table.mem_of_rows hrows).mpr (Or.inl rfl), rfl, rfl⟩
  · rw [heq] at hnights
    exact absurd hnights (not_le.mpr hlt)
  · rw [heq]
    exact hpaid

theorem full_final (helig : r.sys.profileEligible (r.sys.profileAccounts p) = true)
    (hnone : (final r p).sys.credits.get? (p, k) = none)
    (hbest : 0 < r.sys.best (r.sys.profileAccounts p) k) :
    ∃ cap, capFor k.night k.source = some cap ∧
      cap ≤ credited (final r p).sys.credits p k.night k.source := by
  have hold := uncredited_of_final hnone
  obtain ⟨e, he, rfl⟩ := exists_of_maxAmount_ne_zero (ne_of_gt hbest)
  obtain ⟨he, hacc⟩ := List.mem_filter.mp he
  have hpending : e ∈ r.sys.pending p (r.sys.profileAccounts p) :=
    mem_pending.mpr ⟨he, of_decide_eq_true hacc, hold⟩
  have hgroup := mem_groups.mpr ⟨e, hpending, rfl⟩
  rw [credits_final helig] at hnone ⊢
  rcases creditGroups_complete p hgroup (maxAmount_pos hpending) r.sys.credits with
    ⟨c, hc, hcp, hck⟩ | ⟨cap, hcap, hfull⟩
  · have hmem := (Grows.mem c).creditStreak p hc
    exact absurd (Prod.ext hcp hck) (Table.get?_eq_none.mp hnone c hmem)
  · exact ⟨cap, hcap, (Grows.credited cap p _ _).creditStreak p hfull⟩

theorem full_of_lt (h : History r) (helig : r.sys.profileEligible (r.sys.profileAccounts p) = true)
    (hs : k.source ≠ .streak) (hlt : (final r p).sys.credit p k < (final r p).seen p k) :
    ∃ cap, capFor k.night k.source = some cap ∧
      cap ≤ credited (final r p).sys.credits p k.night k.source := by
  cases hget : (final r p).sys.credits.get? (p, k) with
  | none =>
    rw [credit_of_none hget, seen_final (uncredited_of_final hget), best_final] at hlt
    exact full_final helig hget hlt
  | some c =>
    obtain ⟨hc, rfl, rfl⟩ := mem_of_credited hget
    rw [credit_of_mem hc] at hlt
    exact ((h.apply _).fair c.profileId).full c hc rfl hs hlt

theorem credit_eq_seen (h : History r)
    (helig : r.sys.profileEligible (r.sys.profileAccounts p) = true)
    (hs : k.source ≠ .streak) (hcap : capFor k.night k.source = none) :
    (final r p).sys.credit p k = (final r p).seen p k := by
  by_contra hne
  have hlt := lt_of_le_of_ne ((h.apply (.creditProfile p none)).credit_le hs) hne
  obtain ⟨cap, hsome, -⟩ := h.full_of_lt helig hs hlt
  rw [hcap] at hsome
  cases hsome

theorem filled (h : History r) (helig : r.sys.profileEligible (r.sys.profileAccounts p) = true)
    {night : String} {source : Source} (hs : source ≠ .streak) :
    Filled (capFor night source) ((final r p).sys.refs night source)
      (fun ref => (final r p).seen p ⟨night, source, ref⟩)
      (fun ref => (final r p).sys.credit p ⟨night, source, ref⟩) := by
  have hfinal := h.apply (.creditProfile p none)
  have hsum : (((final r p).sys.refs night source).map
      (fun ref => (final r p).sys.credit p ⟨night, source, ref⟩)).sum =
        credited (final r p).sys.credits p night source := hfinal.sum_credit hs
  constructor
  · intro ref _
    exact hfinal.credit_le hs
  · intro cap hcap
    rw [hsum]
    exact hfinal.bounded.within p night source cap hcap
  · intro ref _ hlt
    rw [hsum]
    exact h.full_of_lt helig hs hlt

theorem streak_final (h : History r)
    (helig : r.sys.profileEligible (r.sys.profileAccounts p) = true) (night : String) :
    credited (final r p).sys.credits p night .streak =
      if night = lastNight ∧ nightKeys.length ≤ visitNights (final r p).sys.credits p then
        streakAward
      else 0 := by
  have hfinal := h.apply (.creditProfile p none)
  by_cases hpaid : night = lastNight ∧ nightKeys.length ≤ visitNights (final r p).sys.credits p
  · rw [if_pos hpaid]
    obtain ⟨rfl, hnights⟩ := hpaid
    obtain ⟨c, hc, rfl, hkey⟩ := streak_paid_final helig hnights
    have hdelta := (hfinal.bounded.streak c hc (by rw [hkey]; rfl)).2
    apply le_antisymm
    · exact hfinal.bounded.within c.profileId lastNight .streak streakAward (capFor_streak _)
    · rw [← hdelta]
      have hle := hfinal.bounded.delta_le hc
      rw [hkey] at hle
      exact hle
  · rw [if_neg hpaid]
    apply credited_eq_zero
    rintro c hc ⟨rfl, rfl, hs⟩
    have hkey := (hfinal.bounded.streak c hc hs).1
    exact hpaid ⟨by rw [hkey]; rfl, hfinal.moon c hc hs⟩

end History

/-- Credit is the clipped maximum that the crediting pass saw. For a key that the final pass
found uncredited that is the maximum over the linked accounts' evidence. -/
theorem credit_clipped_max {r r' : Recorded} {acts : List Act} {p : Nat}
    (hrun : exec recordedStep Recorded.start acts = some r)
    (helig : r.sys.profileEligible (r.sys.profileAccounts p) = true)
    (hpass : recordedStep r (.creditProfile p none) = some r') :
    (∀ k, r.sys.credits.get? (p, k) = none →
      r'.seen p k = r'.sys.best (r'.sys.profileAccounts p) k) ∧
    (∀ k, k.source ≠ .streak → r'.sys.credit p k ≤ r'.seen p k) ∧
    (∀ k, k.source ≠ .streak → capFor k.night k.source = none →
      r'.sys.credit p k = r'.seen p k) ∧
    (∀ night source cap, source ≠ .streak → capFor night source = some cap →
      credited r'.sys.credits p night source =
        min cap ((r'.sys.refs night source).map
          (fun ref => r'.seen p ⟨night, source, ref⟩)).sum) ∧
    (∀ night, credited r'.sys.credits p night .streak =
      if night = lastNight ∧ nightKeys.length ≤ visitNights r'.sys.credits p then streakAward
      else 0) := by
  have h : History r := History.exec hrun
  obtain rfl : r.apply (.creditProfile p none) = r' := Option.some.inj hpass
  have hfinal := h.apply (.creditProfile p none)
  refine ⟨fun k hnone => History.seen_final hnone, fun k hs => hfinal.credit_le hs,
    fun k hs hcap => h.credit_eq_seen helig hs hcap, fun night source cap hs hcap => ?_,
    h.streak_final helig⟩
  rw [← hfinal.sum_credit hs]
  exact (h.filled helig hs).sum_eq hcap

/-! Two accounts bring porch evidence of four and six tokens for one spot and four for
another; the cap of six takes the six of the first and leaves nothing for the second. -/

def porchEvidence : List Act :=
  [.link 1 10, .link 1 11, .recordLevel 10 20,
    .addEarn 10 "2026-10-26" (sourceFor .porch) "n1-a" 4,
    .addEarn 11 "2026-10-26" (sourceFor .porch) "n1-a" 6,
    .addEarn 10 "2026-10-26" (sourceFor .porch) "n1-b" 4]

theorem credit_clipped_max_porches :
    ∃ r r', exec recordedStep Recorded.start porchEvidence = some r ∧
      recordedStep r (.creditProfile 1 none) = some r' ∧
      credited r'.sys.credits 1 "2026-10-26" .knock =
        min 6 ((r'.sys.refs "2026-10-26" .knock).map
          (fun ref => r'.seen 1 ⟨"2026-10-26", .knock, ref⟩)).sum := by
  have hrun := (Option.some_get
    (show (exec recordedStep Recorded.start porchEvidence).isSome by rfl)).symm
  refine ⟨_, _, hrun, rfl, ?_⟩
  exact (credit_clipped_max hrun (by decide) rfl).2.2.2.1 _ _ 6 (by decide) (by decide)

def lateEvidence : List Act :=
  [.link 1 10, .recordLevel 10 20,
    .addEarn 10 "2026-10-27" activity "n2-clue" 2, .creditProfile 1 none,
    .link 1 11, .addEarn 11 "2026-10-27" activity "n2-clue" 5]

theorem lateEvidence_uncredited :
    ¬ ∀ (acts : List Act) (s s' : Sys) (p : Nat), exec step Sys.start acts = some s →
      s.profileEligible (s.profileAccounts p) = true →
      step s (.creditProfile p none) = some s' →
      ∀ k, k.source ≠ .streak → capFor k.night k.source = none →
        s'.credit p k = s'.best (s'.profileAccounts p) k := by
  intro hclaim
  have hrun := (Option.some_get (show (exec step Sys.start lateEvidence).isSome by rfl)).symm
  have hk := hclaim lateEvidence _ _ 1 hrun (by decide) rfl ⟨"2026-10-27", .activity, "n2-clue"⟩
    (by decide) (by decide)
  revert hk
  decide

theorem credit_new {s : Sys} {p : Nat} {accounts : Option (List Nat)} {c : CreditRow}
    (hc : c ∈ (s.creditProfile p accounts).1.credits) :
    c ∈ s.credits ∨ c.profileId = p ∧ (c.key = streakKey ∨
      ∃ e ∈ s.pending p (accounts.getD (s.profileAccounts p)), e.key = c.key) := by
  have hnew : ∀ d ∈ (s.creditProfile p accounts).1.credits,
      d ∈ s.credits ∨ d.profileId = p ∧ (d.key = streakKey ∨
        ∃ e ∈ s.pending p (accounts.getD (s.profileAccounts p)), e.key = d.key) := by
    refine @pass_induct (fun t => ∀ d ∈ t, d ∈ s.credits ∨ d.profileId = p ∧ (d.key = streakKey ∨
      ∃ e ∈ s.pending p (accounts.getD (s.profileAccounts p)), e.key = d.key)) s p accounts
      (fun t g hg ht d hd => ?_) (fun t ht d hd => ?_) (fun d hd => Or.inl hd)
    · rcases creditGroup_cases p t g with ⟨row, hrows, hp, hkey, -⟩ | ⟨heq, -⟩
      · rcases (Table.mem_of_rows hrows).mp hd with rfl | hd
        · obtain ⟨e, he, rfl⟩ := mem_groups.mp hg
          exact Or.inr ⟨hp, Or.inr ⟨e, he, hkey.symm⟩⟩
        · exact ht d hd
      · rw [heq] at hd
        exact ht d hd
    · rcases creditStreak_cases p t with ⟨hrows, -, -⟩ | ⟨heq, -⟩
      · rcases (Table.mem_of_rows hrows).mp hd with rfl | hd
        · exact Or.inr ⟨rfl, Or.inl rfl⟩
        · exact ht d hd
      · rw [heq] at hd
        exact ht d hd
  exact hnew c hc

end LastSietch.Nights
