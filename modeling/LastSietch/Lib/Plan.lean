import Mathlib.Data.List.Perm.Subperm
import Mathlib.Data.List.Nodup
import Mathlib.Algebra.Order.BigOperators.Group.List
import Mathlib.Algebra.Order.Ring.Nat

/-!
# Paying a plan

A plan is a list of items with distinct keys, and `PaidOf key plan paid` says that every item
of `paid` is one of the plan and no key is paid twice. `cons` adds a payment. What is paid then
sums to at most the plan (`sum_le`), and when every planned key is paid it is the plan up to
order (`perm`).
-/

namespace LastSietch

variable {α κ : Type} {key : α → κ} {plan paid : List α}

structure PaidOf (key : α → κ) (plan paid : List α) : Prop where
  planned : ∀ x ∈ paid, x ∈ plan
  once : (paid.map key).Nodup

namespace PaidOf

theorem nil (plan : List α) : PaidOf key plan [] := ⟨by simp, List.nodup_nil⟩

theorem cons (h : PaidOf key plan paid) {x : α} (hx : x ∈ plan)
    (hfresh : ∀ y ∈ paid, key y ≠ key x) : PaidOf key plan (x :: paid) where
  planned := by
    intro y hy
    rcases List.mem_cons.mp hy with rfl | hy
    · exact hx
    · exact h.planned y hy
  once := by
    rw [List.map_cons, List.nodup_cons]
    refine ⟨?_, h.once⟩
    intro hmem
    obtain ⟨y, hy, hkey⟩ := List.mem_map.mp hmem
    exact hfresh y hy hkey

theorem subperm (h : PaidOf key plan paid) : paid.Subperm plan :=
  List.subperm_of_subset (h.once.of_map key) h.planned

theorem sum_le (h : PaidOf key plan paid) (amount : α → Nat) :
    (paid.map amount).sum ≤ (plan.map amount).sum := by
  obtain ⟨l, hperm, hsub⟩ := h.subperm
  calc (paid.map amount).sum = (l.map amount).sum := (hperm.map amount).sum_eq.symm
    _ ≤ (plan.map amount).sum := (hsub.map amount).sum_le_sum (fun _ _ => Nat.zero_le _)

theorem eq_of_key (h : PaidOf key plan paid) (hplan : (plan.map key).Nodup) {x y : α}
    (hx : x ∈ paid) (hy : y ∈ plan) (hkey : key x = key y) : x = y :=
  List.inj_on_of_nodup_map hplan (h.planned x hx) hy hkey

theorem perm (h : PaidOf key plan paid) (hplan : (plan.map key).Nodup)
    (hall : ∀ x ∈ plan, ∃ y ∈ paid, key y = key x) : paid.Perm plan := by
  refine (List.perm_ext_iff_of_nodup (h.once.of_map key) (hplan.of_map key)).mpr fun x => ?_
  constructor
  · exact h.planned x
  · intro hx
    obtain ⟨y, hy, hkey⟩ := hall x hx
    exact h.eq_of_key hplan hy hx hkey ▸ hy

end PaidOf

end LastSietch
