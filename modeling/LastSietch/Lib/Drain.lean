import Mathlib.Algebra.Order.Ring.Int
import Mathlib.Algebra.Order.BigOperators.Group.List

/-!
# Draining stacks in order

`drain size need as` walks the stacks `as` and takes from each what it holds, until `need`
units are taken. A stack of negative size gives nothing.

* `drain_append`: a walk over two lists is one walk after the other.
* `mem_drain`: no stack gives more than it holds.
* `exhausted`: a walk that ends short has emptied every stack.
* `total_eq`: stacks that hold `need` units between them give exactly `need`.
-/

namespace LastSietch.Drain

variable {α : Type} {size : α → Int} {need : Int} {as bs : List α} {p : α × Int}

def drain (size : α → Int) (need : Int) : List α → List (α × Int)
  | [] => []
  | a :: as =>
    (a, max 0 (min (size a) need)) :: drain size (need - max 0 (min (size a) need)) as

def total (ps : List (α × Int)) : Int := (ps.map Prod.snd).sum

@[simp] theorem total_nil : total ([] : List (α × Int)) = 0 := rfl

@[simp] theorem total_cons (p : α × Int) (ps : List (α × Int)) :
    total (p :: ps) = p.2 + total ps := by
  simp [total]

theorem total_append (ps qs : List (α × Int)) : total (ps ++ qs) = total ps + total qs := by
  simp [total]

@[simp] theorem map_fst_drain : (drain size need as).map Prod.fst = as := by
  induction as generalizing need with
  | nil => rfl
  | cons a as ih => simp [drain, ih]

theorem fst_mem (h : p ∈ drain size need as) : p.1 ∈ as := by
  have hmem : p.1 ∈ (drain size need as).map Prod.fst := List.mem_map_of_mem h
  rwa [map_fst_drain] at hmem

theorem mem_drain (h : p ∈ drain size need as) : 0 ≤ p.2 ∧ p.2 ≤ max 0 (size p.1) := by
  induction as generalizing need with
  | nil => cases h
  | cons a as ih =>
    rcases List.mem_cons.mp h with rfl | h
    · exact ⟨le_max_left .., max_le_max le_rfl (min_le_left ..)⟩
    · exact ih h

theorem total_nonneg : 0 ≤ total (drain size need as) := by
  apply List.sum_nonneg
  intro n hn
  obtain ⟨p, hp, rfl⟩ := List.mem_map.mp hn
  exact (mem_drain hp).1

theorem total_le (hneed : 0 ≤ need) : total (drain size need as) ≤ need := by
  induction as generalizing need with
  | nil => exact hneed
  | cons a as ih =>
    rw [drain, total_cons]
    have hrest : total (drain size (need - max 0 (min (size a) need)) as) ≤
        need - max 0 (min (size a) need) := ih (by omega)
    dsimp only
    omega

/-- Nothing is taken once nothing is needed. -/
theorem of_nonpos (hneed : need ≤ 0) (h : p ∈ drain size need as) : p.2 = 0 := by
  induction as generalizing need with
  | nil => cases h
  | cons a as ih =>
    have htake : max 0 (min (size a) need) = 0 := by omega
    rcases List.mem_cons.mp h with rfl | h
    · exact htake
    · rw [htake] at h
      exact ih (by omega) h

theorem drain_append :
    drain size need (as ++ bs) =
      drain size need as ++ drain size (need - total (drain size need as)) bs := by
  induction as generalizing need with
  | nil => simp [drain]
  | cons a as ih =>
    rw [List.cons_append, drain, ih, drain, total_cons, List.cons_append]
    congr 3
    omega

theorem exhausted (hshort : total (drain size need as) < need) (h : p ∈ drain size need as) :
    p.2 = max 0 (size p.1) := by
  induction as generalizing need with
  | nil => cases h
  | cons a as ih =>
    rw [drain, total_cons] at hshort
    dsimp only at hshort
    rcases List.mem_cons.mp h with rfl | h
    · have hpos : 0 ≤ total (drain size (need - max 0 (min (size a) need)) as) := total_nonneg
      dsimp only
      omega
    · exact ih (by omega) h

theorem le_total_of_exhausted (h : ∀ p ∈ drain size need as, p.2 = max 0 (size p.1)) :
    (as.map size).sum ≤ total (drain size need as) := by
  induction as generalizing need with
  | nil => exact le_rfl
  | cons a as ih =>
    have ha := h _ (List.mem_cons_self ..)
    have hrest := ih (fun p hp => h p (List.mem_cons_of_mem _ hp))
    rw [drain, total_cons, List.map_cons, List.sum_cons]
    dsimp only at ha ⊢
    omega

theorem total_eq (hneed : 0 ≤ need) (hhave : need ≤ (as.map size).sum) :
    total (drain size need as) = need := by
  by_contra hne
  have hle : total (drain size need as) ≤ need := total_le hneed
  have hshort : total (drain size need as) < need := by omega
  have hsum := le_total_of_exhausted (fun p hp => exhausted hshort hp)
  omega

end LastSietch.Drain
