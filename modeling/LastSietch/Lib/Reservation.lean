import Mathlib.Logic.Basic

/-!
# Exclusive reservations

Slots are open or not, and claims hold slots. `Exclusive isOpen holds` says that an open
slot is held by nobody and that no slot is held twice. It is what a compare-and-set on a
status column establishes between requests that race for a row:

* `Exclusive.acquire`: taking a slot that nobody holds, and closing it;
* `Exclusive.settle`: claims let go of slots, and a slot opens again only when the claim
  that held it has let go of it;
* `Exclusive.publish`: a slot opens that nobody holds;
* `Exclusive.holder_eq`: two claims that hold one slot are the same.
-/

namespace LastSietch

variable {κ ι : Type}

structure Exclusive (isOpen : κ → Prop) (holds : ι → κ → Prop) : Prop where
  free : ∀ i k, isOpen k → ¬ holds i k
  unique : ∀ i j k, holds i k → holds j k → i = j

namespace Exclusive

variable {isOpen isOpen' : κ → Prop} {holds holds' : ι → κ → Prop}

theorem acquire (h : Exclusive isOpen holds) {i₀ : ι} {k₀ : κ} (hfree : ∀ i, ¬ holds i k₀)
    (hopen : ∀ k, isOpen' k → isOpen k ∧ k ≠ k₀)
    (hholds : ∀ i k, holds' i k → holds i k ∨ i = i₀ ∧ k = k₀) : Exclusive isOpen' holds' := by
  refine ⟨fun i k ho hi => ?_, fun i j k hi hj => ?_⟩
  · obtain ⟨ho, hne⟩ := hopen k ho
    rcases hholds i k hi with hi | ⟨-, rfl⟩
    · exact h.free i k ho hi
    · exact hne rfl
  · rcases hholds i k hi with hi | ⟨rfl, rfl⟩
    · rcases hholds j k hj with hj | ⟨rfl, rfl⟩
      · exact h.unique i j k hi hj
      · exact absurd hi (hfree i)
    · rcases hholds j k hj with hj | ⟨rfl, -⟩
      · exact absurd hj (hfree j)
      · rfl

theorem settle (h : Exclusive isOpen holds)
    (hopen : ∀ k, isOpen' k → isOpen k ∨ ∃ i, holds i k ∧ ¬ holds' i k)
    (hholds : ∀ i k, holds' i k → holds i k) : Exclusive isOpen' holds' := by
  refine ⟨fun i k ho hi => ?_, fun i j k hi hj => h.unique i j k (hholds i k hi) (hholds j k hj)⟩
  rcases hopen k ho with ho | ⟨j, hj, hj'⟩
  · exact h.free i k ho (hholds i k hi)
  · rw [h.unique j i k hj (hholds i k hi)] at hj'
    exact hj' hi

theorem publish (h : Exclusive isOpen holds)
    (hopen : ∀ k, isOpen' k → isOpen k ∨ ∀ i, ¬ holds i k)
    (hholds : ∀ i k, holds' i k → holds i k) : Exclusive isOpen' holds' := by
  refine ⟨fun i k ho hi => ?_, fun i j k hi hj => h.unique i j k (hholds i k hi) (hholds j k hj)⟩
  rcases hopen k ho with ho | hfree
  · exact h.free i k ho (hholds i k hi)
  · exact hfree i (hholds i k hi)

theorem mono (h : Exclusive isOpen holds) (hopen : ∀ k, isOpen' k → isOpen k)
    (hholds : ∀ i k, holds' i k → holds i k) : Exclusive isOpen' holds' :=
  h.settle (fun k hk => Or.inl (hopen k hk)) hholds

theorem holder_eq (h : Exclusive isOpen holds) {i j : ι} {k : κ} (hi : holds i k)
    (hj : holds j k) : i = j := h.unique i j k hi hj

theorem not_open (h : Exclusive isOpen holds) {i : ι} {k : κ} (hi : holds i k) : ¬ isOpen k :=
  fun ho => h.free i k ho hi

end Exclusive

end LastSietch
