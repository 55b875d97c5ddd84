import Mathlib.Tactic.Linarith
import LastSietch.Nights.Events

/-!
# No night pays more than its cap

`Bounded` is the invariant of the ledger: every capped (night, source) of every profile stays
within its cap. The streak is paid without a look at the cap, so the invariant also says that
a streak credit is the one on `streakKey`: the unique key then leaves room for one of them.

`credited_le_cap` is the result over every run of transactions.
-/

namespace LastSietch.Nights

open Quota Runs

variable {t t' : Credits} {row : CreditRow}

theorem credited_of_rows (h : t'.rows = row :: t.rows)
    (p : Nat) (night : String) (source : Source) :
    credited t' p night source =
      (if row.profileId = p ∧ row.key.night = night ∧ row.key.source = source then row.delta
        else 0) + credited t p night source := by
  unfold credited
  rw [h, List.filter_cons]
  by_cases hrow : row.profileId = p ∧ row.key.night = night ∧ row.key.source = source
  · simp [hrow]
  · simp [hrow]

theorem credited_of_other (h : t'.rows = row :: t.rows) {p : Nat} {night : String} {source : Source}
    (hne : ¬ (row.profileId = p ∧ row.key.night = night ∧ row.key.source = source)) :
    credited t' p night source = credited t p night source := by
  rw [credited_of_rows h, if_neg hne, zero_add]

theorem credited_of_self (h : t'.rows = row :: t.rows) :
    credited t' row.profileId row.key.night row.key.source =
      credited t row.profileId row.key.night row.key.source + row.delta := by
  rw [credited_of_rows h, if_pos ⟨rfl, rfl, rfl⟩, add_comm]

theorem credited_eq_zero {p : Nat} {night : String} {source : Source}
    (h : ∀ c ∈ t, ¬ (c.profileId = p ∧ c.key.night = night ∧ c.key.source = source)) :
    credited t p night source = 0 := by
  have hnil : t.rows.filter (fun c =>
      c.profileId = p ∧ c.key.night = night ∧ c.key.source = source) = [] :=
    List.filter_eq_nil_iff.mpr (fun c hc => by simpa using h c hc)
  rw [credited, hnil]
  rfl

/-! ## What a credit pass does to the ledger -/

theorem creditGroups_induct {P : Credits → Prop} {profileId : Nat} {gs : List Group}
    (hgroup : ∀ t, ∀ g ∈ gs, P t → P (creditGroup profileId t g).1) (ht : P t) :
    P (creditGroups profileId t gs).1 := by
  induction gs generalizing t with
  | nil => exact ht
  | cons g gs ih =>
    have hg := hgroup t g (List.mem_cons_self ..) ht
    exact ih (fun t' g' hg' => hgroup t' g' (List.mem_cons_of_mem g hg')) hg

/-- A pass over an eligible profile credits the groups of the pending evidence and the
streak; any other pass changes nothing. -/
theorem creditProfile_cases (s : Sys) (p : Nat) (accounts : Option (List Nat)) :
    s.profileEligible (accounts.getD (s.profileAccounts p)) = false ∧
        (s.creditProfile p accounts).1 = s ∨
      s.profileEligible (accounts.getD (s.profileAccounts p)) = true ∧
        (s.creditProfile p accounts).1 =
          { s with
            credits := (creditStreak p (creditGroups p s.credits
              (groups (s.pending p (accounts.getD (s.profileAccounts p))))).1).1 } := by
  unfold Sys.creditProfile
  simp only []
  split
  · rename_i h
    refine Or.inl ⟨?_, rfl⟩
    rcases h with hnil | hno
    · rw [hnil]
      rfl
    · exact hno
  · rename_i h
    refine Or.inr ⟨?_, rfl⟩
    by_contra hno
    exact h (Or.inr (Bool.eq_false_iff.mpr hno))

theorem pass_earn (s : Sys) (p : Nat) (accounts : Option (List Nat)) :
    (s.creditProfile p accounts).1.earn = s.earn ∧
      (s.creditProfile p accounts).1.facts = s.facts ∧
      (s.creditProfile p accounts).1.links = s.links := by
  rcases creditProfile_cases s p accounts with ⟨-, heq⟩ | ⟨-, heq⟩
  · rw [heq]
    exact ⟨rfl, rfl, rfl⟩
  · rw [heq]
    exact ⟨rfl, rfl, rfl⟩

theorem pass_induct {P : Credits → Prop} {s : Sys} {p : Nat} {accounts : Option (List Nat)}
    (hgroup : ∀ t, ∀ g ∈ groups (s.pending p (accounts.getD (s.profileAccounts p))), P t →
      P (creditGroup p t g).1)
    (hstreak : ∀ t, P t → P (creditStreak p t).1) (hs : P s.credits) :
    P (s.creditProfile p accounts).1.credits := by
  rcases creditProfile_cases s p accounts with ⟨-, heq⟩ | ⟨-, heq⟩
  · rw [heq]
    exact hs
  · rw [heq]
    exact hstreak _ (creditGroups_induct hgroup hs)

theorem mem_pending {s : Sys} {p : Nat} {accounts : List Nat} {e : EarnRow} :
    e ∈ s.pending p accounts ↔
      e ∈ s.earn ∧ e.accountId ∈ accounts ∧ s.credits.get? (p, e.key) = none := by
  simp [Sys.pending, SerialTable.mem_def]

theorem source_of_mem_groups {rows : List EarnRow} {g : Group} (hg : g ∈ groups rows) :
    g.key.source ≠ .streak := by
  obtain ⟨e, -, rfl⟩ := mem_groups.mp hg
  exact e.source.2

theorem apply_credits (s : Sys) (a : Act) :
    (s.apply a).credits = s.credits ∨ ∃ p accounts, a = .creditProfile p accounts := by
  cases a with
  | addEarn accountId night source ref amount =>
    rcases addEarn_cases s accountId night source ref amount with h | ⟨earn, h, -⟩
    · exact Or.inl (by rw [Sys.apply, h])
    · exact Or.inl (by rw [Sys.apply, h])
  | link profileId accountId =>
    left
    simp only [Sys.apply, Sys.link]
    split <;> rfl
  | unlink profileId accountId => exact Or.inl rfl
  | recordEarly accountId early =>
    left
    simp only [Sys.apply, Sys.recordEarly]
    split <;> rfl
  | recordLevel accountId lvl =>
    left
    simp only [Sys.apply, Sys.recordLevel]
    split
    · rfl
    · split <;> rfl
  | creditProfile p accounts => exact Or.inr ⟨p, accounts, rfl⟩
  | post entry => exact Or.inl rfl

theorem apply_credits_induct {P : Credits → Prop}
    (hgroup : ∀ (t : Credits) (p : Nat) (g : Group), g.key.source ≠ .streak → P t →
      P (creditGroup p t g).1)
    (hstreak : ∀ (t : Credits) (p : Nat), P t → P (creditStreak p t).1) {s : Sys} (a : Act)
    (hs : P s.credits) : P (s.apply a).credits := by
  rcases apply_credits s a with h | ⟨p, accounts, rfl⟩
  · rw [h]
    exact hs
  · apply pass_induct _ (fun t ht => hstreak t p ht) hs
    intro t g hg ht
    exact hgroup t p g (source_of_mem_groups hg) ht

/-! ## The invariant -/

structure Bounded (t : Credits) : Prop where
  positive : ∀ c ∈ t, 0 < c.delta
  streak : ∀ c ∈ t, c.key.source = .streak → c.key = streakKey ∧ c.delta = streakAward
  within : ∀ p night source cap, capFor night source = some cap → credited t p night source ≤ cap

namespace Bounded

theorem empty : Bounded Table.empty where
  positive c hc := absurd hc (Table.not_mem_empty c)
  streak c hc := absurd hc (Table.not_mem_empty c)
  within p night source cap hcap := by
    have hzero : credited Table.empty p night source = 0 := rfl
    rw [hzero]
    revert hcap
    unfold capFor
    split
    · rintro ⟨⟩
      decide
    · cases source with
      | visit | knock | landsraad | streak =>
        rintro ⟨⟩
        decide
      | activity => rintro ⟨⟩

theorem of_rows {t t' : Credits} {row : CreditRow} (h : Bounded t)
    (hrows : t'.rows = row :: t.rows) (hpos : 0 < row.delta)
    (hstreak : row.key.source = .streak → row.key = streakKey ∧ row.delta = streakAward)
    (hwithin : ∀ cap, capFor row.key.night row.key.source = some cap →
      credited t row.profileId row.key.night row.key.source + row.delta ≤ cap) : Bounded t' where
  positive c hc := by
    rcases (Table.mem_of_rows hrows).mp hc with rfl | hc
    · exact hpos
    · exact h.positive c hc
  streak c hc := by
    rcases (Table.mem_of_rows hrows).mp hc with rfl | hc
    · exact hstreak
    · exact h.streak c hc
  within p night source cap hcap := by
    by_cases hself : row.profileId = p ∧ row.key.night = night ∧ row.key.source = source
    · obtain ⟨rfl, rfl, rfl⟩ := hself
      rw [credited_of_self hrows]
      exact hwithin cap hcap
    · rw [credited_of_other hrows hself]
      exact h.within p night source cap hcap

theorem delta_le {t : Credits} (h : Bounded t) {c : CreditRow} (hc : c ∈ t) :
    c.delta ≤ credited t c.profileId c.key.night c.key.source := by
  apply List.single_le_sum
  · intro x hx
    obtain ⟨d, hd, rfl⟩ := List.mem_map.mp hx
    exact le_of_lt (h.positive d (List.mem_filter.mp hd).1)
  · exact List.mem_map.mpr ⟨c, List.mem_filter.mpr ⟨hc, by simp⟩, rfl⟩

theorem creditGroup {t : Credits} (h : Bounded t) (p : Nat) {g : Group}
    (hg : g.key.source ≠ .streak) : Bounded (creditGroup p t g).1 := by
  rcases creditGroup_cases p t g with ⟨row, hrows, hp, hkey, hdelta, hpos, -⟩ | ⟨heq, -⟩
  · refine h.of_rows hrows hpos (fun hs => absurd (hkey ▸ hs) hg) ?_
    intro cap hcap
    rw [hkey] at hcap
    have hle := add_grant_le cap (credited t p g.key.night g.key.source) g.amount
    rw [hp, hkey, hdelta, hcap]
    exact hle
  · rw [heq]
    exact h

theorem creditStreak {t : Credits} (h : Bounded t) (p : Nat) : Bounded (creditStreak p t).1 := by
  rcases creditStreak_cases p t with ⟨hrows, -, -⟩ | ⟨heq, -⟩
  · refine h.of_rows hrows streakAward_pos (fun _ => ⟨rfl, rfl⟩) ?_
    intro cap hcap
    have hzero : credited t p lastNight .streak = 0 := by
      apply credited_eq_zero
      rintro c hc ⟨hcp, -, hcs⟩
      have hfresh := Table.fresh_of_rows hrows hc
      exact hfresh (Prod.ext hcp (h.streak c hc hcs).1)
    rw [show capFor streakKey.night streakKey.source = some streakAward from capFor_streak _] at hcap
    cases hcap
    show credited t p lastNight .streak + streakAward ≤ streakAward
    omega
  · rw [heq]
    exact h

theorem apply {s : Sys} (h : Bounded s.credits) (a : Act) : Bounded (s.apply a).credits :=
  apply_credits_induct (fun _ p _ hg ht => ht.creditGroup p hg) (fun _ p ht => ht.creditStreak p)
    a h

end Bounded

/-- No run of evidence, links, credit passes, login-days pulls, ticks and knocks pays a
profile more for a night and a source than the cap. -/
theorem credited_le_cap {s : Sys} {ops : List Op} (hrun : exec opStep Sys.start ops = some s)
    {night : String} {source : Source} {cap : Int} (hcap : capFor night source = some cap)
    (p : Nat) : credited s.credits p night source ≤ cap := by
  have hbounded : Bounded s.credits :=
    @exec_op_invariant (fun m => Bounded m.credits) (fun _ a h => Bounded.apply h a) _ _ _
      Bounded.empty hrun
  exact hbounded.within p night source cap hcap

/-! A profile knocks on two porches of four tokens each: the second pays the two tokens that
the cap of six leaves. -/

def porch (id : String) : Spot := ⟨id, .porch, 0, "", 4, 0⟩

def porchRun : List Op :=
  [.act (.link 1 10), .act (.recordLevel 10 20),
    .knockHit 1 10 "2026-10-26" [] (porch "n1-a") false [10],
    .knockHit 1 10 "2026-10-26" [] (porch "n1-b") false [10]]

theorem credited_le_cap_porches :
    ∃ s, exec opStep Sys.start porchRun = some s ∧
      credited s.credits 1 "2026-10-26" .knock = 6 ∧
      credited s.credits 1 "2026-10-26" .knock ≤ 6 := by
  have hrun := (Option.some_get (show (exec opStep Sys.start porchRun).isSome by rfl)).symm
  exact ⟨_, hrun, by decide, credited_le_cap hrun (by decide) 1⟩

end LastSietch.Nights
