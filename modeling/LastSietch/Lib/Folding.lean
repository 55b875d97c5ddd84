import Mathlib.Algebra.Order.Ring.Nat
import Mathlib.Data.List.Basic

/-!
# Folded lines

A line that is too wide goes on in the next one, after a space. `fold` cuts a line at characters,
each of which has a width; `unfold` takes the line ends away that have a space behind them. A text
of folded lines has no line that is too wide (`width_le_of_mem_fold`), and unfolding it gives the
lines back (`unfold_fold`).
-/

namespace LastSietch.Folding

variable {α : Type}

section Split

variable [DecidableEq α] (cr lf sp : α)

def terminated (ls : List (List α)) : List α := ls.flatMap fun l => l ++ [cr, lf]

/-- The lines of a text, and what follows the last line end; `l` is the line so far. -/
def splitFrom : List α → List α → List (List α)
  | l, [] => [l]
  | l, a :: t =>
    match t with
    | [] => [l ++ [a]]
    | b :: rest =>
      if a = cr ∧ b = lf then l :: splitFrom [] rest else splitFrom (l ++ [a]) (b :: rest)

def splitLines (t : List α) : List (List α) := splitFrom cr lf [] t

def unfold : List α → List α
  | [] => []
  | a :: t =>
    match t with
    | b :: c :: rest =>
      if a = cr ∧ b = lf ∧ c = sp then unfold rest else a :: unfold (b :: c :: rest)
    | t => a :: t

variable {cr lf sp}

theorem splitFrom_append {l m t : List α} (hm : cr ∉ m) :
    splitFrom cr lf l (m ++ cr :: lf :: t) = (l ++ m) :: splitFrom cr lf [] t := by
  induction m generalizing l with
  | nil =>
    rw [List.nil_append, List.append_nil, splitFrom]
    exact if_pos ⟨rfl, rfl⟩
  | cons a m ih =>
    have ha : a ≠ cr := fun h => hm (h ▸ List.mem_cons_self)
    have hrest : splitFrom cr lf l (a :: (m ++ cr :: lf :: t)) =
        splitFrom cr lf (l ++ [a]) (m ++ cr :: lf :: t) := by
      cases hm' : m ++ cr :: lf :: t with
      | nil => exact absurd hm' (List.append_ne_nil_of_right_ne_nil _ (List.cons_ne_nil _ _))
      | cons b rest => exact if_neg fun h => ha h.1
    rw [List.cons_append, hrest, ih fun h => hm (List.mem_cons_of_mem a h), List.append_assoc]
    rfl

theorem splitLines_terminated {ls : List (List α)} (hls : ∀ l ∈ ls, cr ∉ l) :
    splitLines cr lf (terminated cr lf ls) = ls ++ [[]] := by
  unfold splitLines
  induction ls with
  | nil => rfl
  | cons l ls ih =>
    have htext : terminated cr lf (l :: ls) = l ++ cr :: lf :: terminated cr lf ls := by
      simp [terminated]
    rw [htext, splitFrom_append (hls l List.mem_cons_self), List.nil_append,
      ih fun m hm => hls m (List.mem_cons_of_mem l hm)]
    rfl

theorem unfold_cons_of_ne {a : α} (ha : a ≠ cr) (t : List α) :
    unfold cr lf sp (a :: t) = a :: unfold cr lf sp t := by
  match t with
  | [] => rfl
  | [_] => rfl
  | b :: c :: rest => exact if_neg fun h => ha h.1

theorem unfold_break (t : List α) : unfold cr lf sp (cr :: lf :: sp :: t) = unfold cr lf sp t :=
  if_pos ⟨rfl, rfl, rfl⟩

/-- A line end stays where the next line does not begin with a space. -/
theorem unfold_end {t : List α} (hlf : lf ≠ cr) (ht : t.head? ≠ some sp) :
    unfold cr lf sp (cr :: lf :: t) = cr :: lf :: unfold cr lf sp t := by
  cases t with
  | nil => rfl
  | cons c rest =>
    have hc : ¬(cr = cr ∧ lf = lf ∧ c = sp) := fun h => ht (congrArg some h.2.2)
    rw [← unfold_cons_of_ne hlf]
    exact if_neg hc

theorem unfold_append {l t : List α} (hl : cr ∉ l) :
    unfold cr lf sp (l ++ t) = l ++ unfold cr lf sp t := by
  induction l with
  | nil => rfl
  | cons a l ih =>
    have ha : a ≠ cr := by
      rintro rfl
      exact hl List.mem_cons_self
    rw [List.cons_append, unfold_cons_of_ne ha, ih fun h => hl (List.mem_cons_of_mem a h),
      List.cons_append]

end Split

/-! ## Folding -/

section Fold

variable (width : α → Nat) (limit : Nat) (sp : α)

def foldFrom : List α → List α → Nat → List (List α)
  | chunk, [], _ => [chunk]
  | chunk, c :: line, size =>
    if limit < size + width c then chunk :: foldFrom [sp, c] line (1 + width c)
    else foldFrom (chunk ++ [c]) line (size + width c)

def fold (line : List α) : List (List α) := foldFrom width limit sp [] line 0

def lineWidth (l : List α) : Nat := (l.map width).sum

variable {width limit sp}

theorem foldFrom_end (chunk : List α) (size : Nat) :
    foldFrom width limit sp chunk [] size = [chunk] := rfl

theorem foldFrom_step (chunk : List α) (c : α) (line : List α) (size : Nat) :
    foldFrom width limit sp chunk (c :: line) size =
      if limit < size + width c then chunk :: foldFrom width limit sp [sp, c] line (1 + width c)
      else foldFrom width limit sp (chunk ++ [c]) line (size + width c) := rfl

theorem foldFrom_ne_nil (chunk line : List α) (size : Nat) :
    foldFrom width limit sp chunk line size ≠ [] := by
  induction line generalizing chunk size with
  | nil => exact List.cons_ne_nil _ _
  | cons c line ih =>
    rw [foldFrom_step]
    split
    · exact List.cons_ne_nil _ _
    · exact ih _ _

theorem fold_ne_nil (line : List α) : fold width limit sp line ≠ [] := foldFrom_ne_nil [] line 0

variable {line chunk : List α}

theorem width_le_of_mem_foldFrom (hsp : width sp = 1)
    (hline : ∀ c ∈ line, 1 + width c ≤ limit) {size : Nat}
    (hchunk : lineWidth width chunk = size) (hsize : size ≤ limit) :
    ∀ l ∈ foldFrom width limit sp chunk line size, lineWidth width l ≤ limit := by
  induction line generalizing chunk size with
  | nil =>
    intro l hl
    rw [foldFrom_end, List.mem_singleton] at hl
    rw [hl, hchunk]
    exact hsize
  | cons c line ih =>
    have hc := hline c List.mem_cons_self
    have hline := fun d hd => hline d (List.mem_cons_of_mem c hd)
    have hcwidth : lineWidth width [sp, c] = 1 + width c := by
      simp [lineWidth, hsp]
    have hgrown : lineWidth width (chunk ++ [c]) = size + width c := by
      rw [← hchunk]
      simp [lineWidth]
    intro l hl
    rw [foldFrom_step] at hl
    split at hl
    · rcases List.mem_cons.mp hl with rfl | hl
      · rw [hchunk]
        exact hsize
      · exact ih hline hcwidth hc l hl
    · exact ih hline hgrown (by omega) l hl

theorem width_le_of_mem_fold (hsp : width sp = 1) (hline : ∀ c ∈ line, 1 + width c ≤ limit) :
    ∀ l ∈ fold width limit sp line, lineWidth width l ≤ limit :=
  width_le_of_mem_foldFrom hsp hline rfl (Nat.zero_le _)

theorem mem_of_mem_foldFrom {size : Nat} :
    ∀ l ∈ foldFrom width limit sp chunk line size, ∀ c ∈ l, c ∈ chunk ∨ c ∈ line ∨ c = sp := by
  induction line generalizing chunk size with
  | nil =>
    intro l hl c hc
    rw [foldFrom_end, List.mem_singleton] at hl
    exact Or.inl (hl ▸ hc)
  | cons d line ih =>
    intro l hl c hc
    rw [foldFrom_step] at hl
    split at hl
    · rcases List.mem_cons.mp hl with rfl | hl
      · exact Or.inl hc
      · have := ih l hl c hc
        simp only [List.mem_cons, List.not_mem_nil, or_false] at this ⊢
        tauto
    · have := ih l hl c hc
      simp only [List.mem_append, List.mem_cons, List.not_mem_nil, or_false] at this ⊢
      tauto

/-- A fold has no characters but those of its line and the space. -/
theorem mem_of_mem_fold {l : List α} (hl : l ∈ fold width limit sp line) {c : α} (hc : c ∈ l) :
    c ∈ line ∨ c = sp :=
  (mem_of_mem_foldFrom l hl c hc).resolve_left List.not_mem_nil

variable {cr lf : α}

theorem foldFrom_cons (chunk line : List α) (size : Nat) :
    ∃ t, ∀ front, terminated cr lf (foldFrom width limit sp (front ++ chunk) line size) =
      front ++ t := by
  induction line generalizing chunk size with
  | nil => exact ⟨chunk ++ [cr, lf], fun front => by simp [foldFrom_end, terminated]⟩
  | cons c line ih =>
    by_cases hwide : limit < size + width c
    · refine ⟨chunk ++ cr :: lf :: terminated cr lf
        (foldFrom width limit sp [sp, c] line (1 + width c)), fun front => ?_⟩
      rw [foldFrom_step, if_pos hwide]
      simp [terminated]
    · obtain ⟨t, ht⟩ := ih (chunk ++ [c]) (size + width c)
      refine ⟨t, fun front => ?_⟩
      rw [foldFrom_step, if_neg hwide, List.append_assoc, ht]

theorem head?_fold {c : α} (line : List α) (hc : c ≠ sp) (hcr : cr ≠ sp) (rest : List α) :
    (terminated cr lf (fold width limit sp (c :: line)) ++ rest).head? ≠ some sp := by
  rw [fold, foldFrom_step]
  split
  · rw [terminated, List.flatMap_cons]
    exact fun h => hcr (Option.some.inj h)
  · obtain ⟨t, ht⟩ := foldFrom_cons [] line (0 + width c)
    rw [List.nil_append, show [c] = [c] ++ [] from rfl, ht]
    exact fun h => hc (Option.some.inj h)

variable [DecidableEq α]

/-- Unfolding takes away what folding has put into a line. -/
theorem unfold_foldFrom {rest : List α} (hcr : cr ∉ line) (hlf : lf ≠ cr)
    (hrest : rest.head? ≠ some sp) (hchunk : cr ∉ chunk) (size : Nat) :
    unfold cr lf sp (terminated cr lf (foldFrom width limit sp chunk line size) ++ rest) =
      chunk ++ (line ++ cr :: lf :: unfold cr lf sp rest) := by
  induction line generalizing chunk size with
  | nil =>
    have htext : terminated cr lf (foldFrom width limit sp chunk [] size) ++ rest =
        chunk ++ cr :: lf :: rest := by
      simp [foldFrom_end, terminated]
    rw [htext, unfold_append hchunk, unfold_end hlf hrest, List.nil_append]
  | cons c line ih =>
    have hc : cr ∉ [c] := by
      rw [List.mem_singleton]
      rintro rfl
      exact hcr List.mem_cons_self
    have hline : cr ∉ line := fun h => hcr (List.mem_cons_of_mem c h)
    rw [foldFrom_step]
    split
    · -- The next chunk begins with the space that goes with the line end.
      obtain ⟨t, ht⟩ : ∃ t, ∀ front, terminated cr lf
          (foldFrom width limit sp (front ++ [c]) line (1 + width c)) = front ++ t :=
        foldFrom_cons [c] line (1 + width c)
      have hnext := ih hline hc (1 + width c)
      rw [show [c] = [] ++ [c] from rfl, ht, List.nil_append] at hnext
      have htext : terminated cr lf (chunk :: foldFrom width limit sp [sp, c] line (1 + width c)) ++
          rest = chunk ++ cr :: lf :: sp :: (t ++ rest) := by
        have hfront := ht [sp]
        simp only [terminated, List.flatMap_cons, List.append_assoc, List.cons_append,
          List.nil_append] at hfront ⊢
        rw [hfront]
        rfl
      rw [htext, unfold_append hchunk, unfold_break, hnext]
      rfl
    · have hall : cr ∉ chunk ++ [c] := by
        rw [List.mem_append]
        exact fun h => h.elim hchunk hc
      rw [ih hline hall, List.append_assoc]
      rfl

/-- Folded lines, none of which begins with a space, come back as they were. -/
theorem unfold_fold {ls : List (List α)} (hcr : ∀ l ∈ ls, cr ∉ l) (hlf : lf ≠ cr)
    (hsp : ∀ l ∈ ls, ∃ c t, l = c :: t ∧ c ≠ sp) (hnone : cr ≠ sp) :
    unfold cr lf sp (ls.flatMap fun l => terminated cr lf (fold width limit sp l)) =
      terminated cr lf ls := by
  induction ls with
  | nil => rfl
  | cons l ls ih =>
    have hls := fun m hm => hsp m (List.mem_cons_of_mem l hm)
    have hhead :
        (ls.flatMap fun l => terminated cr lf (fold width limit sp l)).head? ≠ some sp := by
      cases ls with
      | nil => exact fun h => by cases h
      | cons m ls =>
        obtain ⟨c, t, rfl, hc⟩ := hls m List.mem_cons_self
        exact head?_fold t hc hnone _
    rw [List.flatMap_cons, fold, unfold_foldFrom (hcr l List.mem_cons_self) hlf hhead
      List.not_mem_nil, ih (fun m hm => hcr m (List.mem_cons_of_mem l hm)) hls]
    simp [terminated]

end Fold

end LastSietch.Folding
