import Mathlib.Data.List.Basic

/-!
# Spaced times

`Spaced k d l` says of a list of times, the latest first, that a time and the one that stands `k`
places after it are at least `d` apart. It is what a limiter keeps that looks at the last `k` times
before it lets one more through.

* `Spaced.cons`: one more time, `d` after the `k`-th of those before it.
* `Spaced.countP_le`: fewer than `d` time units hold at most `k` of the times.
-/

namespace LastSietch

def Spaced (k : Nat) (d : Int) (l : List Int) : Prop :=
  ∀ i x y, l[i]? = some x → l[i + k]? = some y → y + d ≤ x

namespace Spaced

variable {k : Nat} {d x : Int} {l : List Int}

theorem nil : Spaced k d [] := by
  intro i x y hx
  simp at hx

theorem cons (h : Spaced (k + 1) d l) (hx : ∀ y, l[k]? = some y → y + d ≤ x) :
    Spaced (k + 1) d (x :: l) := by
  intro i a b ha hb
  cases i with
  | zero =>
    rw [List.getElem?_cons_zero, Option.some_inj] at ha
    rw [Nat.zero_add, List.getElem?_cons_succ] at hb
    exact ha ▸ hx b hb
  | succ i =>
    rw [List.getElem?_cons_succ] at ha
    rw [Nat.succ_add, List.getElem?_cons_succ] at hb
    exact h i a b ha hb

theorem tail (h : Spaced k d (x :: l)) : Spaced k d l := by
  intro i a b ha hb
  refine h (i + 1) a b ((List.getElem?_cons_succ ..).trans ha) ?_
  rw [Nat.succ_add, List.getElem?_cons_succ]
  exact hb

/-- The times from the `k`-th on are too early for a window in which the first one is. -/
theorem lt_of_mem_drop (h : Spaced (k + 1) d (x :: l)) (hs : l.Pairwise (fun a b => b ≤ a)) {t y : Int}
    (hx : x < t + d) (hy : y ∈ l.drop k) : y < t := by
  obtain ⟨j, hj⟩ := List.mem_iff_getElem?.mp hy
  rw [List.getElem?_drop] at hj
  obtain ⟨hlt, -⟩ := List.getElem?_eq_some_iff.mp hj
  have hk : k < l.length := by omega
  have hfirst : l[k] + d ≤ x := by
    refine h 0 x l[k] rfl ?_
    rw [Nat.zero_add, List.getElem?_cons_succ]
    exact List.getElem?_eq_getElem hk
  have hle : y ≤ l[k] := by
    cases j with
    | zero =>
      rw [Nat.add_zero, List.getElem?_eq_getElem hk, Option.some_inj] at hj
      exact hj ▸ Int.le_refl _
    | succ j =>
      obtain ⟨hkj, rfl⟩ := List.getElem?_eq_some_iff.mp hj
      exact List.pairwise_iff_getElem.mp hs k (k + (j + 1)) hk hkj (by omega)
  omega

/-- Any window of fewer than `d` time units holds at most `k + 1` of the times. -/
theorem countP_le (h : Spaced (k + 1) d l) (hs : l.Pairwise (fun a b => b ≤ a)) (t : Int) :
    l.countP (fun x => t ≤ x ∧ x < t + d) ≤ k + 1 := by
  induction l with
  | nil => exact Nat.zero_le _
  | cons x l ih =>
    have hs' := (List.pairwise_cons.mp hs).2
    by_cases hx : t ≤ x ∧ x < t + d
    · have hlate : (l.drop k).countP (fun x => t ≤ x ∧ x < t + d) = 0 := by
        refine List.countP_eq_zero.mpr (fun y hy => ?_)
        have := h.lt_of_mem_drop hs' hx.2 hy
        simp only [decide_eq_true_eq]
        omega
      have hearly : (l.take k).countP (fun x => t ≤ x ∧ x < t + d) ≤ k :=
        Nat.le_trans List.countP_le_length (List.length_take_le k l)
      have hsplit := @List.countP_append _ (fun x => decide (t ≤ x ∧ x < t + d)) (l.take k) (l.drop k)
      rw [List.take_append_drop] at hsplit
      rw [List.countP_cons_of_pos (by simpa using hx)]
      omega
    · rw [List.countP_cons_of_neg (by simpa using hx)]
      exact ih h.tail hs'

end Spaced

end LastSietch
