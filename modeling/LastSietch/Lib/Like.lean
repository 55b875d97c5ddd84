import Mathlib.Data.List.Infix

/-!
# `LIKE` patterns

`like pattern text` is SQL's `LIKE`: `%` stands for any text and `_` for any character, and the
letters of the alphabet match in either case. A text between two `%` is looked for anywhere
(`like_contains`), which makes a question about a pattern one about infixes; `infix_append_iff`
and `infix_separated` take an infix of a text apart.
-/

namespace LastSietch.Like

/-! ## Infixes -/

section Infix

variable {α : Type} {p a b : List α} {sep : α}

theorem infix_append_iff : p <:+: a ++ b ↔
    p <:+: a ∨ p <:+: b ∨ ∃ u v, u ≠ [] ∧ v ≠ [] ∧ p = u ++ v ∧ u <:+ a ∧ v <+: b := by
  constructor
  · rintro ⟨s, t, h⟩
    rw [List.append_assoc, List.append_eq_append_iff] at h
    rcases h with ⟨c, rfl, hc⟩ | ⟨c, -, rfl⟩
    · -- `p` begins in the first text
      rw [List.append_eq_append_iff] at hc
      rcases hc with ⟨d, rfl, -⟩ | ⟨d, rfl, rfl⟩
      · exact Or.inl ⟨s, d, by rw [List.append_assoc]⟩
      · by_cases hcnil : c = []
        · subst hcnil
          exact Or.inr (Or.inl ⟨[], t, rfl⟩)
        · by_cases hdnil : d = []
          · subst hdnil
            exact Or.inl ⟨s, [], by simp⟩
          · exact Or.inr (Or.inr ⟨c, d, hcnil, hdnil, rfl, ⟨s, rfl⟩, ⟨t, rfl⟩⟩)
    · exact Or.inr (Or.inl ⟨c, t, by rw [List.append_assoc]⟩)
  · rintro (h | h | ⟨u, v, -, -, rfl, ⟨s, rfl⟩, ⟨t, rfl⟩⟩)
    · exact h.trans (List.prefix_append a b).isInfix
    · exact h.trans (List.suffix_append a b).isInfix
    · exact ⟨s, t, by simp [List.append_assoc]⟩

/-- A text without the separator stands on one side of it. -/
theorem infix_separated (hp : p ≠ []) (hsep : sep ∉ p) :
    p <:+: a ++ sep :: b ↔ p <:+: a ∨ p <:+: b := by
  have htail : p <:+: sep :: b ↔ p <:+: b := by
    rw [List.infix_cons_iff, or_iff_right]
    rintro ⟨t, ht⟩
    cases p with
    | nil => exact hp rfl
    | cons c p =>
      cases ht
      exact hsep List.mem_cons_self
  rw [infix_append_iff, htail]
  constructor
  · rintro (h | h | ⟨u, v, -, hv, rfl, -, ⟨t, ht⟩⟩)
    · exact Or.inl h
    · exact Or.inr h
    · cases v with
      | nil => exact absurd rfl hv
      | cons c v =>
        cases ht
        exact absurd (List.mem_append_right u List.mem_cons_self) hsep
  · rintro (h | h)
    · exact Or.inl h
    · exact Or.inr (Or.inl h)

/-- A text splits in one way at a separator that it has once. -/
theorem split_at_separator {k d u v : List α} (hk : sep ∉ k) (hd : sep ∉ d)
    (h : k ++ sep :: d = u ++ sep :: v) : u = k ∧ v = d := by
  rw [List.append_eq_append_iff] at h
  rcases h with ⟨c, rfl, hc⟩ | ⟨c, rfl, hc⟩
  · cases c with
    | nil =>
      cases hc
      exact ⟨by simp, rfl⟩
    | cons x c =>
      cases hc
      exact absurd (by simp) hd
  · cases c with
    | nil =>
      cases hc
      exact ⟨by simp, rfl⟩
    | cons x c =>
      cases hc
      exact absurd (by simp) hk

end Infix

/-! ## Patterns -/

def fold (text : List Char) : List Char := text.map Char.toLower

theorem fold_append (a b : List Char) : fold (a ++ b) = fold a ++ fold b := List.map_append

theorem fold_cons (c : Char) (a : List Char) : fold (c :: a) = c.toLower :: fold a := rfl

/-- SQL's `text LIKE pattern`. -/
def like : List Char → List Char → Bool
  | [], t => t.isEmpty
  | '%' :: p, t => t.tails.any (like p)
  | '_' :: p, t =>
    match t with
    | [] => false
    | _ :: t => like p t
  | c :: p, t =>
    match t with
    | [] => false
    | d :: t => c.toLower == d.toLower && like p t

def Literal (p : List Char) : Prop := '%' ∉ p ∧ '_' ∉ p

theorem like_percent (p t : List Char) : like ('%' :: p) t = true ↔ ∃ s, s <:+ t ∧ like p s = true := by
  rw [like, List.any_eq_true]
  simp only [List.mem_tails]

theorem like_any (t : List Char) : like ['%'] t = true :=
  (like_percent [] t).mpr ⟨[], List.nil_suffix, rfl⟩

theorem like_literal {p : List Char} (hp : Literal p) (t : List Char) :
    like (p ++ ['%']) t = true ↔ fold p <+: fold t := by
  induction p generalizing t with
  | nil => simp [like_any, fold]
  | cons c p ih =>
    have hrest : Literal p := ⟨fun h => hp.1 (List.mem_cons_of_mem c h),
      fun h => hp.2 (List.mem_cons_of_mem c h)⟩
    have hpercent : c ≠ '%' := fun h => hp.1 (h ▸ List.mem_cons_self)
    have hunder : c ≠ '_' := fun h => hp.2 (h ▸ List.mem_cons_self)
    rw [List.cons_append]
    cases t with
    | nil => simp [like, fold]
    | cons d t =>
      rw [like]
      · simp only [Bool.and_eq_true, beq_iff_eq, ih hrest, fold_cons, List.cons_prefix_cons]
      · exact fun h => hpercent h
      · exact fun h => hunder h

/-- A text without wildcards between two `%` is looked for anywhere. -/
theorem like_contains {p : List Char} (hp : Literal p) (t : List Char) :
    like ('%' :: (p ++ ['%'])) t = true ↔ fold p <:+: fold t := by
  rw [like_percent]
  constructor
  · rintro ⟨s, ⟨r, rfl⟩, hs⟩
    rw [fold_append]
    exact ((like_literal hp s).mp hs).isInfix.trans (List.suffix_append _ _).isInfix
  · intro h
    obtain ⟨s, hs, hsuffix⟩ := List.infix_iff_prefix_suffix.mp h
    obtain ⟨r, hr⟩ := hsuffix
    obtain ⟨a, b, rfl, -, rfl⟩ := List.map_eq_append_iff.mp hr.symm
    exact ⟨b, List.suffix_append a b, (like_literal hp b).mpr hs⟩

end LastSietch.Like
