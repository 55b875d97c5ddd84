import Mathlib.Data.List.Induction

/-!
# The last word

A pass over a list in which some elements set a value and the others leave it: the value at the end
is that of the last one to set it.

* `foldl_last`: the value at the end of the pass.
* `last_spec`: which element is the last, in a list sorted by `r`.
* `last_all_iff`: when the last one is of a kind, whatever comes before it.
-/

namespace LastSietch.Last

variable {α β : Type}

/-- The last element that `p` picks. -/
def last (p : α → Bool) (l : List α) : Option α := l.reverse.find? p

theorem foldl_last (p : α → Bool) (f : α → β) (b : β) (l : List α) :
    l.foldl (fun b a => if p a then f a else b) b = ((last p l).map f).getD b := by
  unfold last
  induction l using List.reverseRecOn with
  | nil => rfl
  | append_singleton l a ih =>
    rw [List.foldl_append, List.reverse_append]
    by_cases h : p a = true
    · simp [h]
    · simp [h, ih]

theorem last_isSome {p : α → Bool} {l : List α} {a : α} (ha : a ∈ l) (hp : p a = true) :
    ∃ x, last p l = some x := by
  have hsome : (l.reverse.find? p).isSome = true :=
    List.find?_isSome.mpr ⟨a, List.mem_reverse.mpr ha, hp⟩
  exact Option.isSome_iff_exists.mp hsome

theorem mem_of_last {p : α → Bool} {l : List α} {x : α} (h : last p l = some x) :
    x ∈ l ∧ p x = true := by
  unfold last at h
  exact ⟨List.mem_reverse.mp (List.mem_of_find?_eq_some h), List.find?_some h⟩

variable {r : α → α → Prop}

/-- What is picked besides the last element comes before it. -/
theorem last_spec {p : α → Bool} {l : List α} (hsorted : l.Pairwise r) {x : α}
    (h : last p l = some x) : x ∈ l ∧ p x = true ∧ ∀ a ∈ l, p a = true → a = x ∨ r a x := by
  obtain ⟨hp, as, bs, hl, hnone⟩ := List.find?_eq_some_iff_append.mp h
  have hmem : x ∈ l.reverse := by simp [hl]
  refine ⟨List.mem_reverse.mp hmem, hp, fun a ha hpa => ?_⟩
  have hflip : l.reverse.Pairwise (fun a b => r b a) := List.pairwise_reverse.mpr hsorted
  rw [hl, List.pairwise_append, List.pairwise_cons] at hflip
  have ha : a ∈ as ++ x :: bs := hl ▸ List.mem_reverse.mpr ha
  rcases List.mem_append.mp ha with ha | ha
  · simpa [hpa] using hnone a ha
  · exact (List.mem_cons.mp ha).imp_right (hflip.2.1.1 a)

/-- The last element is of the kind `q` when every other one has one of that kind after it. -/
theorem last_all_iff {p q : α → Bool} {l : List α} (hsorted : l.Pairwise r)
    (hasymm : ∀ a b, r a b → ¬ r b a) : (∀ x, last p l = some x → q x = true) ↔
      ∀ d ∈ l, p d = true → q d = false → ∃ a ∈ l, p a = true ∧ q a = true ∧ r d a := by
  constructor
  · intro h d hd hp hq
    obtain ⟨x, hx⟩ := last_isSome hd hp
    obtain ⟨hmem, hpx, hbefore⟩ := last_spec hsorted hx
    refine ⟨x, hmem, hpx, h x hx, (hbefore d hd hp).resolve_left ?_⟩
    rintro rfl
    exact Bool.eq_false_iff.mp hq (h d hx)
  · intro h x hx
    obtain ⟨hmem, hpx, hbefore⟩ := last_spec hsorted hx
    by_contra hq
    obtain ⟨a, ha, hpa, hqa, hafter⟩ := h x hmem hpx (Bool.eq_false_iff.mpr hq)
    rcases hbefore a ha hpa with rfl | hlt
    · exact hq hqa
    · exact hasymm x a hafter hlt

end LastSietch.Last
