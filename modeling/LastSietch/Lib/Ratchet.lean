import Mathlib.Algebra.Order.Group.Defs
import LastSietch.Lib.Table

/-!
# Ratchets

A meter is read from time to time. The first reading is the baseline; a later one pays what it
is above the reading before (`rise`), and a lower one only moves the baseline down. For one
meter the payments are its positive increments, however the readings are cut into batches
(`climbed_none`).

A stream of readings of many meters, by key, pays each of them for itself: `paid` is what the
stream pays for one key, `paid_eq` gives it from the key's own readings, and
`total_eq_sum` adds it up over the keys.
-/

namespace LastSietch.Ratchet

variable {α : Type} [AddCommGroup α] [LinearOrder α]

def rise (base : Option α) (x : α) : α :=
  match base with
  | none => 0
  | some b => if 0 < x - b then x - b else 0

def increments (xs : List α) : α := ((xs.zip xs.tail).map (fun p => max 0 (p.2 - p.1))).sum

def climbed (base : Option α) : List α → α
  | [] => 0
  | x :: xs => rise base x + climbed (some x) xs

@[simp] theorem rise_none (x : α) : rise none x = 0 := rfl

theorem rise_some (b x : α) : rise (some b) x = max 0 (x - b) := by
  simp only [rise]
  by_cases h : 0 < x - b
  · rw [if_pos h, max_eq_right (le_of_lt h)]
  · rw [if_neg h, max_eq_left (not_lt.mp h)]

/-- A reading that is repeated pays nothing. -/
@[simp] theorem rise_self (x : α) : rise (some x) x = 0 := by simp [rise]

theorem climbed_some (b : α) (xs : List α) : climbed (some b) xs = increments (b :: xs) := by
  induction xs generalizing b with
  | nil => rfl
  | cons x xs ih =>
    rw [climbed, ih, rise_some]
    rfl

theorem climbed_none (xs : List α) : climbed none xs = increments xs := by
  cases xs with
  | nil => rfl
  | cons x xs => rw [climbed, rise_none, zero_add, climbed_some]

/-! ## A stream of meters -/

section Stream

variable {κ : Type} [DecidableEq κ]

def settle (base : κ → Option α) : List (κ × α) → κ → Option α
  | [] => base
  | e :: es => settle (Function.update base e.1 (some e.2)) es

/-- What the stream pays for the key `k`. -/
def paid (base : κ → Option α) (k : κ) : List (κ × α) → α
  | [] => 0
  | e :: es =>
    (if e.1 = k then rise (base k) e.2 else 0) +
      paid (Function.update base e.1 (some e.2)) k es

/-- What the stream pays for the keys that `sel` picks. -/
def total (base : κ → Option α) (sel : κ → Bool) : List (κ × α) → α
  | [] => 0
  | e :: es =>
    (if sel e.1 then rise (base e.1) e.2 else 0) +
      total (Function.update base e.1 (some e.2)) sel es

/-- The readings of the key `k`. -/
def values (evs : List (κ × α)) (k : κ) : List α := (evs.filter (fun e => e.1 = k)).map Prod.snd

omit [AddCommGroup α] [LinearOrder α] in
theorem settle_append (base : κ → Option α) (evs evs' : List (κ × α)) :
    settle base (evs ++ evs') = settle (settle base evs) evs' := by
  induction evs generalizing base with
  | nil => rfl
  | cons e evs ih => exact ih _

theorem total_append (base : κ → Option α) (sel : κ → Bool) (evs evs' : List (κ × α)) :
    total base sel (evs ++ evs') = total base sel evs + total (settle base evs) sel evs' := by
  induction evs generalizing base with
  | nil => exact (zero_add _).symm
  | cons e evs ih =>
    rw [List.cons_append, total, ih, total, settle, add_assoc]

theorem paid_eq (base : κ → Option α) (k : κ) (evs : List (κ × α)) :
    paid base k evs = climbed (base k) (values evs k) := by
  induction evs generalizing base with
  | nil => rfl
  | cons e evs ih =>
    rw [paid, ih]
    by_cases h : e.1 = k
    · subst h
      simp [values, climbed]
    · rw [if_neg h, zero_add, Function.update_of_ne (Ne.symm h)]
      simp [values, h]

variable {evs : List (κ × α)}

/-- The total over the keys of `R`, when these are the keys of the stream that `sel` picks. -/
theorem total_eq_sum (base : κ → Option α) {sel : κ → Bool} {R : List κ} (hnd : R.Nodup) (hsel : ∀ e ∈ evs, sel e.1 = true ↔ e.1 ∈ R) :
    total base sel evs = (R.map (fun k => paid base k evs)).sum := by
  induction evs generalizing base with
  | nil => simp [total, paid]
  | cons e evs ih =>
    have hrest := ih (Function.update base e.1 (some e.2))
      (fun e' he' => hsel e' (List.mem_cons_of_mem e he'))
    have hhead := hsel e (List.mem_cons_self ..)
    simp only [total, paid, List.sum_map_add, hrest]
    congr 1
    by_cases hs : sel e.1 = true
    · rw [if_pos hs]
      have hsingle := Table.sum_single hnd (hhead.mp hs) (rise (base e.1) e.2)
      rw [← hsingle]
      congr 1
      apply List.map_congr_left
      intro k _
      by_cases hk : k = e.1
      · rw [if_pos hk, if_pos hk.symm, hk]
      · rw [if_neg hk, if_neg (Ne.symm hk)]
    · rw [if_neg hs]
      symm
      apply List.sum_eq_zero
      intro v hv
      obtain ⟨k, hk, rfl⟩ := List.mem_map.mp hv
      exact if_neg (fun he : e.1 = k => hs (hhead.mpr (he ▸ hk)))

omit [AddCommGroup α] [LinearOrder α] in
theorem settle_of_not_mem (base : κ → Option α) {k : κ}
    (h : ∀ e ∈ evs, e.1 ≠ k) : settle base evs k = base k := by
  induction evs generalizing base with
  | nil => rfl
  | cons e evs ih =>
    rw [settle, ih _ (fun e' he' => h e' (List.mem_cons_of_mem e he')),
      Function.update_of_ne (Ne.symm (h e (List.mem_cons_self ..)))]

omit [AddCommGroup α] [LinearOrder α] in
/-- A snapshot, with one reading for each of its keys, is settled on. -/
theorem settle_of_mem (base : κ → Option α) (hnd : (evs.map Prod.fst).Nodup)
    {e : κ × α} (he : e ∈ evs) : settle base evs e.1 = some e.2 := by
  induction evs generalizing base with
  | nil => cases he
  | cons q evs ih =>
    rw [List.map_cons, List.nodup_cons] at hnd
    rcases List.mem_cons.mp he with rfl | he
    · rw [settle, settle_of_not_mem, Function.update_self]
      intro e' he' hk
      exact hnd.1 (hk ▸ List.mem_map_of_mem he')
    · exact ih _ hnd.2 he

omit [AddCommGroup α] [LinearOrder α] in
theorem settle_eq_self {base : κ → Option α}
    (h : ∀ e ∈ evs, base e.1 = some e.2) : settle base evs = base := by
  induction evs with
  | nil => rfl
  | cons e evs ih =>
    have hsame : Function.update base e.1 (some e.2) = base := by
      rw [← h e (List.mem_cons_self ..)]
      exact Function.update_eq_self _ _
    rw [settle, hsame]
    exact ih (fun e' he' => h e' (List.mem_cons_of_mem e he'))

theorem total_congr (base : κ → Option α) (sel sel' : κ → Bool)
    (h : ∀ e ∈ evs, sel e.1 = sel' e.1) : total base sel evs = total base sel' evs := by
  induction evs generalizing base with
  | nil => rfl
  | cons e evs ih =>
    rw [total, total, h e (List.mem_cons_self ..),
      ih _ (fun e' he' => h e' (List.mem_cons_of_mem e he'))]

theorem total_none (base : κ → Option α) (sel : κ → Bool)
    (h : ∀ e ∈ evs, sel e.1 = false) : total base sel evs = 0 := by
  induction evs generalizing base with
  | nil => rfl
  | cons e evs ih =>
    rw [total, h e (List.mem_cons_self ..), ih _ (fun e' he' => h e' (List.mem_cons_of_mem e he'))]
    simp

/-- Readings that are what the meters stand at pay nothing. -/
theorem total_eq_zero {base : κ → Option α} (sel : κ → Bool)
    (h : ∀ e ∈ evs, base e.1 = some e.2) : total base sel evs = 0 := by
  induction evs with
  | nil => rfl
  | cons e evs ih =>
    have he := h e (List.mem_cons_self ..)
    have hsame : Function.update base e.1 (some e.2) = base := by
      rw [← he]
      exact Function.update_eq_self _ _
    rw [total, hsame, ih (fun e' he' => h e' (List.mem_cons_of_mem e he')), he, rise_self]
    simp

end Stream

end LastSietch.Ratchet
