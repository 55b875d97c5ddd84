import Mathlib.Algebra.Order.Group.Defs
import Mathlib.Algebra.Order.BigOperators.Group.List
import Mathlib.Algebra.Order.Sub.Basic

/-!
# Grants under a quota

Demands `want` are granted one after the other, each clipped to what is left of the
quota `cap` (`none` is no quota): `grant cap used want`. A grant is never changed
afterwards.

`Filled cap R want paid` is what has been reached when all demands in `R` had their turn:
nothing is overpaid, and a demand falls short only when the quota is used up
(`Filled.eq_of_lt`). It leaves no freedom for the total: under a quota it is the smaller of the
quota and the demands (`Filled.sum_eq`).
-/

namespace LastSietch.Quota

variable {α : Type} [AddCommGroup α] [LinearOrder α]

/-- What a demand `want` is granted when `used` of the quota is spent. -/
def grant (cap : Option α) (used want : α) : α :=
  match cap with
  | none => want
  | some c => min want (c - used)

theorem grant_le (cap : Option α) (used want : α) : grant cap used want ≤ want := by
  cases cap with
  | none => exact le_refl _
  | some c => exact min_le_left _ _

/-- A grant that falls short uses up the quota. -/
theorem exists_cap_of_grant_lt {cap : Option α} {used want : α}
    (h : grant cap used want < want) : ∃ c, cap = some c ∧ used + grant cap used want = c := by
  cases cap with
  | none => exact absurd h (lt_irrefl _)
  | some c =>
    have hroom : grant (some c) used want = c - used := by
      apply min_eq_right
      by_contra hle
      have hwant : grant (some c) used want = want := min_eq_left (le_of_not_ge hle)
      rw [hwant] at h
      exact lt_irrefl _ h
    exact ⟨c, rfl, by rw [hroom, add_sub_cancel]⟩

section Ordered

variable [IsOrderedAddMonoid α]

theorem add_grant_le (c used want : α) : used + grant (some c) used want ≤ c := by
  have h : grant (some c) used want ≤ c - used := min_le_right _ _
  rw [add_comm]
  exact le_sub_iff_add_le.mp h

/-- A demand that is granted nothing has found the quota used up. -/
theorem exists_cap_of_grant_nonpos {cap : Option α} {used want : α} (hw : 0 < want)
    (h : grant cap used want ≤ 0) : ∃ c, cap = some c ∧ c ≤ used := by
  obtain ⟨c, hc, hsum⟩ := exists_cap_of_grant_lt (lt_of_le_of_lt h hw)
  refine ⟨c, hc, ?_⟩
  rw [← hsum]
  exact add_le_of_nonpos_right h

end Ordered

variable {ι : Type}

/-- The demands `want` of `R` have had their turn and were paid `paid`. -/
structure Filled (cap : Option α) (R : List ι) (want paid : ι → α) : Prop where
  le : ∀ i ∈ R, paid i ≤ want i
  within : ∀ c, cap = some c → (R.map paid).sum ≤ c
  full : ∀ i ∈ R, paid i < want i → ∃ c, cap = some c ∧ c ≤ (R.map paid).sum

namespace Filled

variable {cap : Option α} {R : List ι} {want paid : ι → α}

theorem eq_of_lt (h : Filled cap R want paid) {i : ι} (hi : i ∈ R)
    (hlt : ∀ c, cap = some c → (R.map paid).sum < c) : paid i = want i := by
  by_contra hne
  obtain ⟨c, hc, hle⟩ := h.full i hi (lt_of_le_of_ne (h.le i hi) hne)
  exact absurd hle (not_le_of_gt (hlt c hc))

theorem sum_eq [IsOrderedAddMonoid α] (h : Filled cap R want paid) {c : α} (hcap : cap = some c) :
    (R.map paid).sum = min c (R.map want).sum := by
  have hle : (R.map paid).sum ≤ (R.map want).sum := List.sum_le_sum h.le
  by_cases hlt : (R.map paid).sum < c
  · have heq : R.map paid = R.map want := by
      apply List.map_congr_left
      intro i hi
      apply h.eq_of_lt hi
      intro c' hc'
      rw [hcap, Option.some.injEq] at hc'
      exact hc' ▸ hlt
    rw [← heq, min_eq_right (le_of_lt hlt)]
  · have heq : (R.map paid).sum = c := le_antisymm (h.within c hcap) (not_lt.mp hlt)
    rw [heq, min_eq_left (heq ▸ hle)]

end Filled

end LastSietch.Quota
