import Mathlib.Algebra.Order.BigOperators.Group.List
import Mathlib.Algebra.Order.Ring.Int

/-!
# Totals of a rolling window that are read before they are added to

Whoever wants to add an entry reads the total since the window before the time of its entry, and
adds the entry later: until then it is pledged. The entries that are there and the ones that are
pledged are one list of times and amounts.

`Bounded W L l` says that no window of length `W` holds more than `L`.

* `Bounded.cons`: an entry that fits beside everything from its own window on.
* `Bounded.sublist`, `Bounded.perm`: pledges that are given up, and pledges that are met.
* `filterMap_set`: what one change of a list does to the entries that are read off it.
-/

namespace LastSietch.Pledges

abbrev Entry := Nat × Int

/-- What is there from the window before `t` on. -/
def since (W t : Nat) (l : List Entry) : Int :=
  ((l.filter (fun e => t ≤ e.1 + W)).map Prod.snd).sum

/-- What the window that begins at `T` holds. -/
def within (W T : Nat) (l : List Entry) : Int :=
  ((l.filter (fun e => T ≤ e.1 ∧ e.1 ≤ T + W)).map Prod.snd).sum

structure Bounded (W : Nat) (L : Int) (l : List Entry) : Prop where
  nonneg : ∀ e ∈ l, 0 ≤ e.2
  windows : ∀ T, within W T l ≤ L

variable {W : Nat} {L : Int} {l l' : List Entry}

theorem sum_le_of_sublist (hsub : l.Sublist l') (hnonneg : ∀ e ∈ l', 0 ≤ e.2) :
    (l.map Prod.snd).sum ≤ (l'.map Prod.snd).sum := by
  refine (hsub.map Prod.snd).sum_le_sum (fun a ha => ?_)
  obtain ⟨e, he, rfl⟩ := List.mem_map.mp ha
  exact hnonneg e he

theorem since_append (t : Nat) (l l' : List Entry) :
    since W t (l ++ l') = since W t l + since W t l' := by
  simp only [since, List.filter_append, List.map_append, List.sum_append]

/-- A window that holds the time `t` begins no earlier than the window before `t`. -/
theorem within_le_since (hnonneg : ∀ e ∈ l, 0 ≤ e.2) {t T : Nat} (ht : t ≤ T + W) :
    within W T l ≤ since W t l := by
  refine sum_le_of_sublist ?_ (fun e he => hnonneg e (List.mem_filter.mp he).1)
  apply List.monotone_filter_right
  intro e he
  simp only [decide_eq_true_eq] at he ⊢
  omega

namespace Bounded

theorem cons (h : Bounded W L l) {t : Nat} {a : Int} (ha : 0 ≤ a) (hfits : since W t l + a ≤ L) :
    Bounded W L ((t, a) :: l) where
  nonneg e he := by
    rcases List.mem_cons.mp he with rfl | he
    · exact ha
    · exact h.nonneg e he
  windows T := by
    by_cases hin : T ≤ t ∧ t ≤ T + W
    · have hsum : within W T ((t, a) :: l) = a + within W T l := by
        simp [within, hin]
      have := within_le_since h.nonneg hin.2
      omega
    · have hsame : within W T ((t, a) :: l) = within W T l := by
        rw [within, List.filter_cons_of_neg]
        · rfl
        · simpa using hin
      rw [hsame]
      exact h.windows T

theorem sublist (h : Bounded W L l) (hsub : l'.Sublist l) : Bounded W L l' where
  nonneg e he := h.nonneg e (hsub.subset he)
  windows T := by
    refine le_trans (sum_le_of_sublist (hsub.filter _) (fun e he => ?_)) (h.windows T)
    exact h.nonneg e (List.mem_filter.mp he).1

theorem perm (h : Bounded W L l) (hperm : l'.Perm l) : Bounded W L l' where
  nonneg e he := h.nonneg e (hperm.subset he)
  windows T := by
    have hsum : within W T l' = within W T l := ((hperm.filter _).map Prod.snd).sum_eq
    rw [hsum]
    exact h.windows T

end Bounded

/-- An entry that is pledged between others, or has been met. -/
theorem perm_pledge (e : Entry) (met before after : List Entry) :
    (met ++ (before ++ [e] ++ after)).Perm (e :: (met ++ (before ++ [] ++ after))) := by
  have hleft : met ++ (before ++ [e] ++ after) = (met ++ before) ++ e :: after := by simp
  have hright : met ++ (before ++ [] ++ after) = (met ++ before) ++ after := by simp
  rw [hleft, hright]
  exact List.perm_middle

theorem filterMap_set {α β : Type} {l : List α} {i : Nat} {x : α} (hx : l[i]? = some x)
    (f : α → Option β) (y : α) :
    ∃ before after, l.filterMap f = before ++ (f x).toList ++ after ∧
      (l.set i y).filterMap f = before ++ (f y).toList ++ after := by
  induction l generalizing i with
  | nil => cases hx
  | cons a l ih =>
    cases i with
    | zero =>
      cases hx
      refine ⟨[], l.filterMap f, ?_, ?_⟩
      · cases hfx : f x <;> simp [hfx]
      · cases hfy : f y <;> simp [hfy]
    | succ i =>
      obtain ⟨before, after, hold, hnew⟩ := ih hx
      refine ⟨(f a).toList ++ before, after, ?_, ?_⟩
      · cases hfa : f a <;> simp [hfa, hold]
      · cases hfa : f a <;> simp [hfa, hnew]

end LastSietch.Pledges
