import Mathlib.Data.Finset.Card

/-!
# Runs of consecutive integers

`run s d` is the number of consecutive members of `s` that end at `d`, counted by a loop that
walks down from `d`. The loop meets every member at most once, so `s.length` steps are enough
for it and the run stops at a number that is no member (`run_stop`). With `run_mem` that
determines the run (`run_eq`); the other results follow from it.

* `run_congr`: only the members up to `d` matter.
* `run_sub`: the run that ends earlier inside a run.
* `run_from`: leaving out the members below a bound cuts the run there.
-/

namespace LastSietch.Streak

/-- Walks down from `d` as long as it meets members, at most `fuel` of them. -/
def walk (s : List Int) : Nat → Int → Nat
  | 0, _ => 0
  | fuel + 1, d => if d ∈ s then walk s fuel (d - 1) + 1 else 0

/-- The length of the run of consecutive members that ends at `d`. -/
def run (s : List Int) (d : Int) : Nat := walk s s.length d

variable {s s' : List Int} {d : Int}

theorem walk_le (s : List Int) (fuel : Nat) (d : Int) : walk s fuel d ≤ fuel := by
  induction fuel generalizing d with
  | zero => exact le_refl 0
  | succ fuel ih =>
    unfold walk
    by_cases hd : d ∈ s
    · have hrest := ih (d - 1)
      rw [if_pos hd]
      omega
    · rw [if_neg hd]
      omega

theorem walk_mem {fuel i : Nat} (hi : i < walk s fuel d) : d - i ∈ s := by
  induction fuel generalizing d i with
  | zero => exact absurd hi (Nat.not_lt_zero i)
  | succ fuel ih =>
    unfold walk at hi
    by_cases hd : d ∈ s
    · rw [if_pos hd] at hi
      cases i with
      | zero => simpa using hd
      | succ i =>
        have hmem := ih (d := d - 1) (i := i) (by omega)
        have heq : d - 1 - (i : Int) = d - ((i + 1 : Nat) : Int) := by omega
        exact heq ▸ hmem
    · rw [if_neg hd] at hi
      omega

theorem walk_stop {fuel : Nat} (h : walk s fuel d < fuel) : d - walk s fuel d ∉ s := by
  induction fuel generalizing d with
  | zero => exact absurd h (Nat.not_lt_zero _)
  | succ fuel ih =>
    unfold walk at h ⊢
    by_cases hd : d ∈ s
    · rw [if_pos hd] at h ⊢
      have hstop := ih (d := d - 1) (by omega)
      have heq : d - ((walk s fuel (d - 1) + 1 : Nat) : Int) = d - 1 - walk s fuel (d - 1) := by
        omega
      rw [heq]
      exact hstop
    · rw [if_neg hd]
      simpa using hd

/-- So many different numbers do not fit into the list. -/
theorem exists_notMem (s : List Int) (d : Int) : ∃ i : Nat, i ≤ s.length ∧ d - i ∉ s := by
  by_contra hall
  push Not at hall
  have hsub : (Finset.range (s.length + 1)).image (fun i : Nat => d - i) ⊆ s.toFinset := by
    intro e he
    obtain ⟨i, hi, rfl⟩ := Finset.mem_image.mp he
    exact List.mem_toFinset.mpr (hall i (Nat.lt_succ_iff.mp (Finset.mem_range.mp hi)))
  have hcard := Finset.card_le_card hsub
  have hinj : Function.Injective (fun i : Nat => d - (i : Int)) := by
    intro i j hij
    have heq : d - (i : Int) = d - j := hij
    omega
  rw [Finset.card_image_of_injective _ hinj, Finset.card_range] at hcard
  have hle := s.toFinset_card_le
  omega

theorem run_mem {i : Nat} (hi : i < run s d) : d - i ∈ s := walk_mem hi

theorem run_stop (s : List Int) (d : Int) : d - run s d ∉ s := by
  rcases lt_or_eq_of_le (walk_le s s.length d) with hlt | heq
  · exact walk_stop hlt
  · obtain ⟨i, hi, hnot⟩ := exists_notMem s d
    have hge : s.length ≤ i := by
      by_contra hlt
      have hin : i < walk s s.length d := by omega
      exact hnot (walk_mem hin)
    have hlast : i = run s d := by
      rw [run, heq]
      omega
    rw [← hlast]
    exact hnot

theorem run_eq {n : Nat} (hmem : ∀ i : Nat, i < n → d - i ∈ s) (hstop : d - n ∉ s) :
    run s d = n := by
  rcases lt_trichotomy (run s d) n with hlt | heq | hgt
  · exact absurd (hmem _ hlt) (run_stop s d)
  · exact heq
  · exact absurd (run_mem hgt) hstop

theorem run_eq_zero (hd : d ∉ s) : run s d = 0 :=
  run_eq (fun i hi => absurd hi (Nat.not_lt_zero i)) (by simpa using hd)

theorem run_succ (hd : d ∈ s) : run s d = run s (d - 1) + 1 := by
  apply run_eq
  · intro i hi
    cases i with
    | zero => simpa using hd
    | succ i =>
      have hmem : d - 1 - (i : Int) ∈ s := run_mem (by omega)
      have heq : d - 1 - (i : Int) = d - ((i + 1 : Nat) : Int) := by omega
      exact heq ▸ hmem
  · have hstop := run_stop s (d - 1)
    have heq : d - 1 - (run s (d - 1) : Int) = d - ((run s (d - 1) + 1 : Nat) : Int) := by omega
    exact heq ▸ hstop

theorem run_congr (h : ∀ e ≤ d, e ∈ s' ↔ e ∈ s) : run s' d = run s d := by
  apply run_eq
  · intro i hi
    exact (h (d - i) (by omega)).mpr (run_mem hi)
  · intro hmem
    exact run_stop s d ((h (d - run s d) (by omega)).mp hmem)

/-- The run that ends `k` earlier is `k` shorter. -/
theorem run_sub {k : Nat} (hk : k ≤ run s d) : run s (d - k) = run s d - k := by
  apply run_eq
  · intro i hi
    have hmem : d - ((k + i : Nat) : Int) ∈ s := run_mem (by omega)
    have heq : d - ((k + i : Nat) : Int) = d - (k : Int) - i := by omega
    exact heq ▸ hmem
  · have hstop := run_stop s d
    have heq : d - (run s d : Int) = d - (k : Int) - ((run s d - k : Nat) : Int) := by omega
    exact heq ▸ hstop

/-- The run that ends `x` before `d`, from the run that ends just before `d`. -/
theorem run_back {x : Nat} (hx : x ≤ run s (d - 1)) (hd : d - x ∈ s) :
    run s (d - x) + x = run s (d - 1) + 1 := by
  cases x with
  | zero =>
    have heq : d - ((0 : Nat) : Int) = d := by omega
    rw [heq] at hd ⊢
    rw [run_succ hd, Nat.add_zero]
  | succ k =>
    have heq : d - ((k + 1 : Nat) : Int) = d - 1 - k := by omega
    have hsub := run_sub (s := s) (d := d - 1) (k := k) (by omega)
    rw [heq, hsub]
    omega

theorem run_mono (h : ∀ e ∈ s, e ∈ s') (d : Int) : run s d ≤ run s' d := by
  by_contra hlt
  exact run_stop s' d (h _ (run_mem (by omega)))

/-- Without the members below `c` the run goes back to `c` at most. -/
theorem run_from (s : List Int) (c d : Int) :
    run (s.filter (fun e => c ≤ e)) d = min (run s d) (d + 1 - c).toNat := by
  apply run_eq
  · intro i hi
    have hmem : d - (i : Int) ∈ s := run_mem (by omega)
    have hge : c ≤ d - i := by omega
    exact List.mem_filter.mpr ⟨hmem, decide_eq_true hge⟩
  · intro hin
    obtain ⟨hmem, hge⟩ := List.mem_filter.mp hin
    have hge : c ≤ d - ((min (run s d) (d + 1 - c).toNat : Nat) : Int) := of_decide_eq_true hge
    have hrun : min (run s d) (d + 1 - c).toNat = run s d := by omega
    rw [hrun] at hmem
    exact run_stop s d hmem

end LastSietch.Streak
