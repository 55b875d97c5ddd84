import LastSietch.Lib.Table

/-!
# Copies that give way, and rows that replace

`INSERT OR IGNORE ... SELECT` on a table with a unique key: a row that the table or an earlier copy
has the key of is not written. `INSERT OR REPLACE` of many rows: each takes the place of the row
with its key.

* `get?_ignore`, `get?_ignoreAll`: what stands under a key afterwards.
* `rows_ignoreAll`: copies of new keys are all written.
* `exists_ignored`: every copy has a row of its key, which may have stood there before.
* `mem_putAll`, `of_mem_putAll`, `mem_putAll_of_sole`: what replacements leave.
-/

namespace LastSietch.Table

variable {α κ : Type} {key : α → κ} [DecidableEq κ]

/-- `INSERT OR IGNORE`. -/
def ignore (t : Table α key) (r : α) : Table α key := (t.insert? r).getD t

/-- `INSERT OR IGNORE ... SELECT`: `rs` is what is selected. -/
def ignoreAll (t : Table α key) (rs : List α) : Table α key := rs.foldl ignore t

theorem get?_ignore (t : Table α key) (r : α) (k : κ) :
    (t.ignore r).get? k = (t.get? k).or (if key r = k then some r else none) := by
  unfold ignore
  cases hins : t.insert? r with
  | none =>
    obtain ⟨s, hs, hkey⟩ := insert?_eq_none.mp hins
    by_cases hk : key r = k
    · have hfound : t.get? k = some s := get?_eq_some.mpr ⟨hs, hkey.trans hk⟩
      simp [hfound]
    · simp [hk]
  | some t' =>
    have hget := get?_insert? hins k
    by_cases hk : key r = k
    · have hfresh : t.get? k = none :=
        get?_eq_none.mpr (fun s hs => hk ▸ fresh_of_insert? hins hs)
      simp [hget, hk, hfresh]
    · simp [hget, hk]

/-- The row of the table comes first, then that of the first copy with the key. -/
theorem get?_ignoreAll (t : Table α key) (rs : List α) (k : κ) :
    (t.ignoreAll rs).get? k = (t.get? k).or (rs.find? (fun r => key r = k)) := by
  induction rs generalizing t with
  | nil => simp [ignoreAll]
  | cons r rs ih =>
    have hstep : (t.ignoreAll (r :: rs)).get? k = ((t.ignore r).ignoreAll rs).get? k := rfl
    rw [hstep, ih, get?_ignore, List.find?_cons]
    cases t.get? k with
    | some s => simp
    | none => by_cases hk : key r = k <;> simp [hk]

theorem get?_ignoreAll_isSome (t : Table α key) (rs : List α) (k : κ) :
    ((t.ignoreAll rs).get? k).isSome = true ↔
      (t.get? k).isSome = true ∨ ∃ r ∈ rs, key r = k := by
  rw [get?_ignoreAll]
  cases t.get? k with
  | some s => simp
  | none => simp [List.find?_isSome]

/-- A copy stands in the table under its key, or what stood there before. -/
theorem exists_ignored {t : Table α key} {rs : List α}
    {r : α} (h : r ∈ t ∨ r ∈ rs) : ∃ s ∈ t.ignoreAll rs, key s = key r := by
  have hsome : ((t.ignoreAll rs).get? (key r)).isSome = true := by
    refine (get?_ignoreAll_isSome t rs (key r)).mpr (h.imp (fun hr => ?_) fun hr => ⟨r, hr, rfl⟩)
    exact Option.isSome_iff_exists.mpr ⟨r, get?_eq_some.mpr ⟨hr, rfl⟩⟩
  obtain ⟨s, hs⟩ := Option.isSome_iff_exists.mp hsome
  exact ⟨s, get?_eq_some.mp hs⟩

theorem rows_ignore (t : Table α key) (r : α) :
    (t.ignore r).rows = if (t.get? (key r)).isSome then t.rows else r :: t.rows := by
  unfold ignore
  cases hins : t.insert? r with
  | none =>
    obtain ⟨s, hs, hkey⟩ := insert?_eq_none.mp hins
    rw [get?_eq_some.mpr ⟨hs, hkey⟩]
    rfl
  | some t' =>
    rw [get?_eq_none.mpr (fun s hs => fresh_of_insert? hins hs)]
    exact rows_insert? hins

/-- Copies of different keys that the table has no row of are all written. -/
theorem rows_ignoreAll {t : Table α key} {rs : List α} (hnodup : (rs.map key).Nodup)
    (hfresh : ∀ r ∈ rs, t.get? (key r) = none) : (t.ignoreAll rs).rows = rs.reverse ++ t.rows := by
  induction rs generalizing t with
  | nil => rfl
  | cons r rs ih =>
    obtain ⟨hne, hrest⟩ := List.nodup_cons.mp hnodup
    obtain ⟨hr, hrs⟩ := List.forall_mem_cons.mp hfresh
    show ((t.ignore r).ignoreAll rs).rows = _
    rw [ih hrest (fun q hq => ?_), rows_ignore, hr, List.reverse_cons, List.append_assoc]
    · rfl
    · have hkey : key r ≠ key q := fun h => hne (h ▸ List.mem_map_of_mem hq)
      rw [get?_ignore, hrs q hq, if_neg hkey]
      rfl

theorem get?_ignoreAll_keeps {t : Table α key} {rs : List α} {r : α} {k : κ}
    (h : t.get? k = some r) : (t.ignoreAll rs).get? k = some r := by
  rw [get?_ignoreAll, h, Option.some_or]

theorem of_mem_ignoreAll {t : Table α key} {rs : List α} {r : α} (h : r ∈ t.ignoreAll rs) :
    r ∈ t ∨ r ∈ rs := by
  have hget := get?_eq_some.mpr ⟨h, rfl⟩
  rw [get?_ignoreAll] at hget
  rcases Option.or_eq_some_iff.mp hget with hold | ⟨-, hnew⟩
  · exact Or.inl (mem_of_get? hold)
  · exact Or.inr (List.mem_of_find?_eq_some hnew)

theorem get?_ignoreAll_of_mem {t : Table α key} {rs : List α} {r : α} (h : r ∈ t ∨ r ∈ rs) :
    ∃ q, (t.ignoreAll rs).get? (key r) = some q ∧ (q ∈ t ∨ q ∈ rs) ∧ key q = key r := by
  obtain ⟨q, hq, hkey⟩ := exists_ignored h
  exact ⟨q, get?_eq_some.mpr ⟨hq, hkey⟩, of_mem_ignoreAll hq, hkey⟩

theorem filter_key_eq_singleton {t : Table α key} {r : α} {k : κ} :
    t.rows.filter (fun r => key r = k) = [r] ↔ t.get? k = some r := by
  rw [filter_key]
  cases t.get? k with
  | none => simp
  | some q => simp

/-- `INSERT OR REPLACE` of many rows. -/
def putAll (t : Table α key) (rs : List α) : Table α key := rs.foldl put t

theorem of_mem_putAll {t : Table α key} {rs : List α} {s : α} (h : s ∈ t.putAll rs) :
    s ∈ rs ∨ s ∈ t := by
  induction rs generalizing t with
  | nil => exact Or.inr h
  | cons r rs ih =>
    have h : s ∈ (t.put r).putAll rs := h
    rcases ih h with h | h
    · exact Or.inl (List.mem_cons_of_mem r h)
    · rcases mem_put.mp h with rfl | ⟨h, -⟩
      · exact Or.inl (List.mem_cons_self ..)
      · exact Or.inr h

/-- A row is there afterwards when no other row of its key is written. -/
theorem mem_putAll_of_sole {t : Table α key} {rs : List α} {s : α} (hs : s ∈ rs ∨ s ∈ t)
    (hsole : ∀ r ∈ rs, key r = key s → r = s) : s ∈ t.putAll rs := by
  induction rs generalizing t with
  | nil => exact hs.resolve_left List.not_mem_nil
  | cons r rs ih =>
    obtain ⟨hr, hrs⟩ := List.forall_mem_cons.mp hsole
    show s ∈ (t.put r).putAll rs
    refine ih ?_ hrs
    by_cases hmem : s ∈ rs
    · exact Or.inl hmem
    · refine Or.inr (mem_put.mpr ?_)
      by_cases hkey : key r = key s
      · exact Or.inl (hr hkey).symm
      · refine Or.inr ⟨hs.resolve_left (fun h => ?_), fun h => hkey h.symm⟩
        rcases List.mem_cons.mp h with rfl | h
        · exact hkey rfl
        · exact hmem h

theorem exists_putAll {t : Table α key} {rs : List α} {r : α} (h : r ∈ rs ∨ r ∈ t) :
    ∃ s ∈ t.putAll rs, key s = key r := by
  induction rs generalizing t r with
  | nil => exact ⟨r, h.resolve_left List.not_mem_nil, rfl⟩
  | cons q rs ih =>
    have hput : ∃ s, (s ∈ rs ∨ s ∈ t.put q) ∧ key s = key r := by
      by_cases hq : key q = key r
      · exact ⟨q, Or.inr (mem_put.mpr (Or.inl rfl)), hq⟩
      · rcases h with h | h
        · rcases List.mem_cons.mp h with rfl | h
          · exact absurd rfl hq
          · exact ⟨r, Or.inl h, rfl⟩
        · exact ⟨r, Or.inr (mem_put.mpr (Or.inr ⟨h, fun h => hq h.symm⟩)), rfl⟩
    obtain ⟨s, hs, hkey⟩ := hput
    obtain ⟨s', hs', hkey'⟩ := ih hs
    exact ⟨s', hs', hkey'.trans hkey⟩

theorem mem_putAll {t : Table α key} {rs : List α} (hnodup : (rs.map key).Nodup) {s : α} :
    s ∈ t.putAll rs ↔ s ∈ rs ∨ s ∈ t ∧ ∀ r ∈ rs, key r ≠ key s := by
  constructor
  · intro h
    by_cases hmem : s ∈ rs
    · exact Or.inl hmem
    · refine Or.inr ⟨(of_mem_putAll h).resolve_left hmem, fun r hr hkey => hmem ?_⟩
      have hrow : r ∈ t.putAll rs := mem_putAll_of_sole (Or.inl hr)
        (fun q hq hqr => List.inj_on_of_nodup_map hnodup hq hr hqr)
      exact eq_of_key_eq hrow h hkey ▸ hr
  · rintro (hs | ⟨hs, hother⟩)
    · exact mem_putAll_of_sole (Or.inl hs)
        (fun q hq hqs => List.inj_on_of_nodup_map hnodup hq hs hqs)
    · exact mem_putAll_of_sole (Or.inr hs) (fun q hq hqs => absurd hqs (hother q hq))

end LastSietch.Table
