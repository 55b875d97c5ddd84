import Mathlib.Algebra.BigOperators.Group.List.Lemmas
import Mathlib.Tactic.Abel

/-!
# Tables with unique keys

A `Table α key` is a list of rows in which no two rows have the same `key`: the
model of a SQL table with one unique column. A row is added by `insert?`, which is
`INSERT ... ON CONFLICT DO NOTHING` (`none` is the conflict), and changed by
`update`, which is `UPDATE ... WHERE` for an assignment that leaves the key alone.
Rows stand newest first, so the first row of `rows.filter p` is the newest one.

`SerialTable` adds the `bigserial` primary key: every row has an `id`, the ids are
below `next`, and an insertion gives the new row the id `next`.

The results are `mem_insert?`, `mem_update`, the uniqueness rules `eq_of_key_eq` and
`SerialTable.eq_of_id_eq`, and `sum_keys`, `Replaced.countP` and `SerialTable.sum_swap`, which
take a sum over rows key by key and follow a count or a sum through the change of a row.
-/

namespace LastSietch

structure Table (α : Type) {κ : Type} (key : α → κ) where
  rows : List α
  unique : (rows.map key).Nodup

namespace Table

variable {α κ : Type} {key : α → κ}

instance : Membership α (Table α key) := ⟨fun t r => r ∈ t.rows⟩

theorem mem_def {t : Table α key} {r : α} : r ∈ t ↔ r ∈ t.rows := Iff.rfl

theorem eq_of_rows {t t' : Table α key} (h : t.rows = t'.rows) : t = t' := by
  obtain ⟨rows, unique⟩ := t
  obtain ⟨rows', unique'⟩ := t'
  cases h
  rfl

instance [DecidableEq α] : DecidableEq (Table α key) := fun t t' =>
  decidable_of_iff (t.rows = t'.rows) ⟨eq_of_rows, congrArg rows⟩

def empty : Table α key := ⟨[], List.nodup_nil⟩

@[simp] theorem not_mem_empty (r : α) : r ∉ (empty : Table α key) := List.not_mem_nil

theorem eq_of_key_eq {t : Table α key} {r s : α} (hr : r ∈ t) (hs : s ∈ t)
    (h : key r = key s) : r = s :=
  List.inj_on_of_nodup_map t.unique hr hs h

theorem map_key_update (l : List α) (p : α → Bool) (f : α → α) (hf : ∀ r, key (f r) = key r) :
    (l.map (fun r => if p r then f r else r)).map key = l.map key := by
  rw [List.map_map]
  apply List.map_congr_left
  intro r _
  by_cases h : p r <;> simp [h, hf]

/-- `UPDATE ... SET f WHERE p`, for an assignment that leaves the key alone. -/
def update (t : Table α key) (p : α → Bool) (f : α → α)
    (hf : ∀ r, key (f r) = key r := by intro _; rfl) : Table α key where
  rows := t.rows.map (fun r => if p r then f r else r)
  unique := by rw [map_key_update _ _ _ hf]; exact t.unique

theorem mem_update {t : Table α key} {p : α → Bool} {f : α → α} {hf : ∀ r, key (f r) = key r}
    {s : α} : s ∈ t.update p f hf ↔ ∃ r ∈ t, s = if p r then f r else r := by
  simp only [mem_def, update, List.mem_map]
  exact ⟨fun ⟨r, hr, h⟩ => ⟨r, hr, h.symm⟩, fun ⟨r, hr, h⟩ => ⟨r, hr, h.symm⟩⟩

variable {p : α → Bool}

theorem update_eq_iff {t : Table α key} {q : α → Bool} {f f' : α → α} {hf : ∀ r, key (f r) = key r}
    {hf' : ∀ r, key (f' r) = key r} : t.update p f hf = t.update q f' hf' ↔
      ∀ r ∈ t, (if p r then f r else r) = (if q r then f' r else r) := by
  constructor
  · intro h r hr
    have hrows : t.rows.map (fun r => if p r then f r else r) =
        t.rows.map (fun r => if q r then f' r else r) := congrArg Table.rows h
    exact List.map_inj_left.mp hrows r hr
  · exact fun h => Table.eq_of_rows (List.map_congr_left h)

theorem fresh_of_rows {t t' : Table α key} {r s : α} (h : t'.rows = r :: t.rows) (hs : s ∈ t) :
    key s ≠ key r := by
  have hnd := t'.unique
  rw [h, List.map_cons, List.nodup_cons] at hnd
  intro hk
  exact hnd.1 (List.mem_map.mpr ⟨s, hs, hk⟩)

theorem mem_of_rows {t t' : Table α key} {r s : α} (h : t'.rows = r :: t.rows) :
    s ∈ t' ↔ s = r ∨ s ∈ t := by
  rw [mem_def, h, List.mem_cons, mem_def]

/-- What `DELETE` leaves. -/
def filter (t : Table α key) (p : α → Bool) : Table α key :=
  ⟨t.rows.filter p, t.unique.sublist (List.filter_sublist.map key)⟩

theorem mem_filter {t : Table α key} {r : α} :
    r ∈ t.filter p ↔ r ∈ t ∧ p r = true := by
  simp [filter, mem_def]

theorem filter_eq_singleton {t : Table α key} {r : α} (hr : r ∈ t) (hp : p r = true)
    (honly : ∀ s ∈ t, p s = true → s = r) : t.rows.filter p = [r] := by
  have hnd : t.rows.Nodup := t.unique.of_map key
  have hperm : (t.rows.filter p).Perm [r] := by
    refine (List.perm_ext_iff_of_nodup (hnd.filter p) (List.nodup_singleton r)).mpr (fun s => ?_)
    rw [List.mem_filter, List.mem_singleton]
    constructor
    · rintro ⟨hs, hps⟩
      exact honly s hs hps
    · rintro rfl
      exact ⟨hr, hp⟩
  exact List.perm_singleton.mp hperm

variable [DecidableEq κ]

/-- The row with key `k`. -/
def get? (t : Table α key) (k : κ) : Option α := t.rows.find? (fun r => key r = k)

variable {k : κ}

theorem get?_eq_some {t : Table α key} {r : α} :
    t.get? k = some r ↔ r ∈ t ∧ key r = k := by
  constructor
  · intro h
    exact ⟨List.mem_of_find?_eq_some h, by simpa using List.find?_some h⟩
  · rintro ⟨hr, hk⟩
    cases hf : t.get? k with
    | none =>
      have := List.find?_eq_none.mp hf r hr
      simp [hk] at this
    | some s =>
      have hs : s ∈ t := List.mem_of_find?_eq_some hf
      have hsk : key s = k := by simpa using List.find?_some hf
      rw [eq_of_key_eq hs hr (hsk.trans hk.symm)]

theorem get?_eq_none {t : Table α key} : t.get? k = none ↔ ∀ r ∈ t, key r ≠ k := by
  simp [get?, List.find?_eq_none, mem_def]

theorem mem_of_get? {t : Table α key} {r : α} (h : t.get? k = some r) : r ∈ t :=
  (get?_eq_some.mp h).1

theorem key_of_get? {t : Table α key} {r : α} (h : t.get? k = some r) : key r = k :=
  (get?_eq_some.mp h).2

/-- `INSERT ... ON CONFLICT DO NOTHING`: `none` when a row has the key of `r`. -/
def insert? (t : Table α key) (r : α) : Option (Table α key) :=
  if h : key r ∈ t.rows.map key then none
  else some ⟨r :: t.rows, by rw [List.map_cons, List.nodup_cons]; exact ⟨h, t.unique⟩⟩

theorem insert?_eq_none {t : Table α key} {r : α} :
    t.insert? r = none ↔ ∃ s ∈ t, key s = key r := by
  simp [insert?, mem_def]

theorem rows_insert? {t t' : Table α key} {r : α} (h : t.insert? r = some t') :
    t'.rows = r :: t.rows := by
  unfold insert? at h
  split at h
  · cases h
  · cases h
    rfl

theorem mem_insert? {t t' : Table α key} {r s : α} (h : t.insert? r = some t') :
    s ∈ t' ↔ s = r ∨ s ∈ t := by
  rw [mem_def, rows_insert? h, List.mem_cons, mem_def]

theorem fresh_of_insert? {t t' : Table α key} {r s : α} (h : t.insert? r = some t')
    (hs : s ∈ t) : key s ≠ key r := by
  intro hk
  have := insert?_eq_none.mpr ⟨s, hs, hk⟩
  rw [h] at this
  cases this

theorem get?_update (t : Table α key) (p : α → Bool) (f : α → α)
    (hf : ∀ r, key (f r) = key r) (k : κ) :
    (t.update p f hf).get? k = (t.get? k).map (fun r => if p r then f r else r) := by
  simp only [get?, update, List.find?_map]
  congr 2
  funext r
  by_cases h : p r <;> simp [h, hf]

theorem get?_insert? {t t' : Table α key} {r : α} (h : t.insert? r = some t') (k : κ) :
    t'.get? k = if key r = k then some r else t.get? k := by
  simp only [get?, rows_insert? h, List.find?_cons]
  split <;> simp_all

theorem insert?_keeps {t t' : Table α key} {r s : α} (h : t.insert? r = some t')
    (hs : t.get? k = some s) : t'.get? k = some s := by
  obtain ⟨hmem, rfl⟩ := get?_eq_some.mp hs
  exact (get?_insert? h _).trans ((if_neg (Ne.symm (fresh_of_insert? h hmem))).trans hs)

/-- `INSERT ... ON CONFLICT DO UPDATE SET` every other column. -/
def put (t : Table α key) (r : α) : Table α key :=
  match t.insert? r with
  | some t' => t'
  | none => ⟨t.rows.map (fun q => if key q = key r then r else q), by
      rw [List.map_map, List.map_congr_left (g := key)]
      · exact t.unique
      · intro q _
        by_cases h : key q = key r <;> simp [h]⟩

theorem get?_put (t : Table α key) (r : α) (k : κ) :
    (t.put r).get? k = if key r = k then some r else t.get? k := by
  unfold put
  cases hins : t.insert? r with
  | some t' => exact get?_insert? hins k
  | none =>
    obtain ⟨s, hs, hsr⟩ := insert?_eq_none.mp hins
    simp only [get?, List.find?_map]
    have hpred : (fun q => decide (key (if key q = key r then r else q) = k)) =
        (fun q => decide (key q = k)) := by
      funext q
      by_cases h : key q = key r <;> simp [h]
    rw [show (fun q => decide (key q = k)) ∘ (fun q => if key q = key r then r else q) =
      (fun q => decide (key q = k)) from hpred]
    by_cases hk : key r = k
    · have hget : t.get? k = some s := get?_eq_some.mpr ⟨hs, hsr.trans hk⟩
      rw [if_pos hk, show t.rows.find? (fun q => decide (key q = k)) = some s from hget]
      simp [hsr]
    · rw [if_neg hk]
      cases hfind : t.rows.find? (fun q => decide (key q = k)) with
      | none => rfl
      | some q =>
        have hq : key q = k := by simpa using List.find?_some hfind
        have hqr : ¬ key q = key r := fun h => hk (h ▸ hq)
        simp [hqr]

theorem mem_put {t : Table α key} {r s : α} : s ∈ t.put r ↔ s = r ∨ s ∈ t ∧ key s ≠ key r := by
  rw [← get?_eq_some (k := key s) |>.trans (and_iff_left rfl), get?_put]
  by_cases h : key r = key s
  · rw [if_pos h]
    constructor
    · intro hs
      exact Or.inl (Option.some.inj hs).symm
    · rintro (rfl | ⟨-, hne⟩)
      · rfl
      · exact absurd h.symm hne
  · rw [if_neg h, get?_eq_some]
    constructor
    · rintro ⟨hs, -⟩
      exact Or.inr ⟨hs, Ne.symm h⟩
    · rintro (rfl | ⟨hs, -⟩)
      · exact absurd rfl h
      · exact ⟨hs, rfl⟩

/-- A sum moves by the row that is put and the row that it replaces. -/
theorem sum_put {β : Type} [AddCommGroup β] (t : Table α key) (r : α) (f : α → β) :
    ((t.put r).rows.map f).sum =
      (t.rows.map f).sum + f r - ((t.get? (key r)).map f).getD 0 := by
  unfold put
  cases hins : t.insert? r with
  | some t' =>
    have hnone : t.get? (key r) = none :=
      get?_eq_none.mpr (fun s hs => fresh_of_insert? hins hs)
    rw [hnone, rows_insert? hins]
    simp [add_comm]
  | none =>
    have hlist : ∀ l : List α, (l.map key).Nodup →
        ((l.map (fun q => if key q = key r then r else q)).map f).sum =
          (l.map f).sum + (if ∃ s ∈ l, key s = key r then f r else 0) -
            ((l.find? (fun q => decide (key q = key r))).map f).getD 0 := by
      intro l
      induction l with
      | nil => simp
      | cons q l ih =>
        intro hnd
        rw [List.map_cons, List.nodup_cons] at hnd
        have hrest := ih hnd.2
        rw [List.map_cons, List.map_cons, List.sum_cons, hrest, List.map_cons, List.sum_cons,
          List.find?_cons]
        by_cases hq : key q = key r
        · have hno : ¬ ∃ s ∈ l, key s = key r := by
            rintro ⟨s, hs, hsr⟩
            exact hnd.1 (hq ▸ hsr ▸ List.mem_map_of_mem hs)
          have hnone : l.find? (fun q => decide (key q = key r)) = none := by
            simpa using hno
          simp only [hq, hno, hnone, if_true, if_false, decide_true, List.mem_cons,
            exists_eq_or_imp, true_or, Option.map_none, Option.getD_none, Option.map_some,
            Option.getD_some]
          abel
        · simp only [hq, if_false, decide_false, List.mem_cons, exists_eq_or_imp, false_or]
          abel
    have hex : ∃ s ∈ t.rows, key s = key r := insert?_eq_none.mp hins
    have hsum := hlist t.rows t.unique
    rw [if_pos hex] at hsum
    exact hsum

/-- The rows with key `k` are the one row that `get?` finds. -/
theorem filter_key (t : Table α key) (k : κ) :
    t.rows.filter (fun r => key r = k) = (t.get? k).toList := by
  obtain ⟨rows, hnd⟩ := t
  simp only [get?]
  induction rows with
  | nil => rfl
  | cons r rows ih =>
    rw [List.map_cons, List.nodup_cons] at hnd
    by_cases hk : key r = k
    · have hnil : rows.filter (fun r => key r = k) = [] := by
        refine List.filter_eq_nil_iff.mpr (fun q hq hqk => ?_)
        rw [decide_eq_true_eq, ← hk] at hqk
        exact hnd.1 (hqk ▸ List.mem_map_of_mem hq)
      simp [hk, hnil]
    · simpa [hk] using ih hnd.2

theorem length_filter_le_one (t : Table α key)
    (h : ∀ r ∈ t, p r = true → key r = k) : (t.rows.filter p).length ≤ 1 := by
  have hle : (t.rows.filter p).length ≤ (t.rows.filter (fun r => key r = k)).length := by
    rw [← List.countP_eq_length_filter, ← List.countP_eq_length_filter]
    exact List.countP_mono_left (fun r hr hp => decide_eq_true (h r hr hp))
  rw [filter_key] at hle
  cases hget : t.get? k with
  | none =>
    rw [hget] at hle
    exact le_trans hle (Nat.zero_le 1)
  | some r =>
    rw [hget] at hle
    exact hle

theorem sum_filter_key {β : Type} [AddMonoid β] (t : Table α key) (k : κ) (f : α → β) :
    ((t.rows.filter (fun r => key r = k)).map f).sum = ((t.get? k).map f).getD 0 := by
  rw [filter_key]
  cases t.get? k <;> simp

theorem sum_filter {β : Type} [AddMonoid β] (l : List α) (p : α → Bool) (f : α → β) :
    ((l.filter p).map f).sum = (l.map (fun r => if p r then f r else 0)).sum := by
  induction l with
  | nil => rfl
  | cons r l ih => by_cases h : p r <;> simp [h, ih]

section Sums

variable {ι β : Type} [DecidableEq ι] [AddCommGroup β]

theorem sum_single {R : List ι} (hnd : R.Nodup) {i : ι} (hi : i ∈ R) (v : β) :
    (R.map (fun j => if j = i then v else 0)).sum = v := by
  have h := List.sum_map_ite_eq R (fun _ => v) (fun _ => 0) i
  rw [List.count_eq_one_of_mem hnd hi] at h
  rw [one_nsmul, sub_zero] at h
  simpa using h

theorem sum_filter_keys (l : List α) {R : List ι} (hnd : R.Nodup) {g : ι → κ}
    (hg : Function.Injective g) {q : α → Bool} (f : α → β)
    (hq : ∀ r ∈ l, q r ↔ ∃ i ∈ R, key r = g i) :
    (R.map (fun i => ((l.filter (fun r => key r = g i)).map f).sum)).sum =
      ((l.filter q).map f).sum := by
  induction l with
  | nil => simp
  | cons r l ih =>
    have hsplit : ∀ i, (((r :: l).filter (fun r => key r = g i)).map f).sum =
        (if key r = g i then f r else 0) + ((l.filter (fun r => key r = g i)).map f).sum := by
      intro i
      by_cases hi : key r = g i <;> simp [hi]
    have hr := hq r (List.mem_cons_self ..)
    simp only [hsplit, List.sum_map_add]
    rw [ih (fun r' hr' => hq r' (List.mem_cons_of_mem r hr'))]
    by_cases hqr : q r
    · obtain ⟨i, hi, hkey⟩ := hr.mp hqr
      have hsingle : (R.map (fun j => if key r = g j then f r else 0)).sum = f r := by
        refine Eq.trans ?_ (sum_single hnd hi (f r))
        congr 2
        funext j
        simp [hkey, hg.eq_iff, eq_comm]
      rw [hsingle, List.filter_cons_of_pos hqr, List.map_cons, List.sum_cons]
    · have hzero : (R.map (fun j => if key r = g j then f r else 0)).sum = 0 := by
        apply List.sum_eq_zero
        intro v hv
        obtain ⟨j, hj, rfl⟩ := List.mem_map.mp hv
        exact if_neg (fun hkey => hqr (hr.mpr ⟨j, hj, hkey⟩))
      rw [hzero, zero_add, List.filter_cons_of_neg hqr]

/-- The rows that `q` picks are those with a key `g i` for an `i` in `R`: their sum, taken
key by key. -/
theorem sum_keys (t : Table α key) {R : List ι} (hnd : R.Nodup) {g : ι → κ}
    (hg : Function.Injective g) {q : α → Bool} (f : α → β)
    (hq : ∀ r ∈ t, q r ↔ ∃ i ∈ R, key r = g i) :
    (R.map (fun i => ((t.get? (g i)).map f).getD 0)).sum = ((t.rows.filter q).map f).sum := by
  rw [← sum_filter_keys t.rows hnd hg f hq]
  congr 2
  funext i
  exact (sum_filter_key t (g i) f).symm

end Sums

end Table

/-- A table whose rows carry a `bigserial` primary key `id` next to the unique `key`. -/
structure SerialTable (α : Type) {κ : Type} (id : α → Nat) (key : α → κ)
    extends Table α key where
  next : Nat
  serial : (toTable.rows.map id).Nodup
  below : ∀ r ∈ toTable.rows, id r < next

namespace SerialTable

variable {α κ : Type} {id : α → Nat} {key : α → κ}

instance : Membership α (SerialTable α id key) := ⟨fun t r => r ∈ t.toTable⟩

theorem mem_def {t : SerialTable α id key} {r : α} : r ∈ t ↔ r ∈ t.rows := Iff.rfl

def empty : SerialTable α id key := ⟨Table.empty, 1, List.nodup_nil, by simp [Table.empty]⟩

@[simp] theorem not_mem_empty (r : α) : r ∉ (empty : SerialTable α id key) := List.not_mem_nil

instance decidableExists (t : SerialTable α id key) (p : α → Prop) [DecidablePred p] :
    Decidable (∃ r ∈ t, p r) :=
  inferInstanceAs (Decidable (∃ r ∈ t.rows, p r))

instance decidableForall (t : SerialTable α id key) (p : α → Prop) [DecidablePred p] :
    Decidable (∀ r ∈ t, p r) :=
  inferInstanceAs (Decidable (∀ r ∈ t.rows, p r))

theorem eq_of_id_eq {t : SerialTable α id key} {r s : α} (hr : r ∈ t) (hs : s ∈ t)
    (h : id r = id s) : r = s :=
  List.inj_on_of_nodup_map t.serial hr hs h

theorem eq_of_key_eq {t : SerialTable α id key} {r s : α} (hr : r ∈ t) (hs : s ∈ t)
    (h : key r = key s) : r = s :=
  Table.eq_of_key_eq hr hs h

theorem id_lt_next {t : SerialTable α id key} {r : α} (hr : r ∈ t) : id r < t.next :=
  t.below r hr

/-- `UPDATE ... SET f WHERE p`. -/
def update (t : SerialTable α id key) (p : α → Bool) (f : α → α)
    (hid : ∀ r, id (f r) = id r := by intro _; rfl)
    (hf : ∀ r, key (f r) = key r := by intro _; rfl) : SerialTable α id key where
  toTable := t.toTable.update p f hf
  next := t.next
  serial := by
    rw [show (t.toTable.update p f hf).rows.map id = t.rows.map id from
      Table.map_key_update _ _ _ hid]
    exact t.serial
  below := by
    intro r hr
    obtain ⟨s, hs, rfl⟩ := Table.mem_update.mp hr
    have := t.below s hs
    by_cases h : p s <;> simpa [h, hid] using this

theorem mem_update {t : SerialTable α id key} {p : α → Bool} {f : α → α}
    {hid : ∀ r, id (f r) = id r} {hf : ∀ r, key (f r) = key r} {s : α} :
    s ∈ t.update p f hid hf ↔ ∃ r ∈ t, s = if p r then f r else r := by
  exact @Table.mem_update _ _ _ t.toTable p f hf s

theorem mem_update_id [DecidableEq κ] {t : SerialTable α id key} {f : α → α}
    {hid : ∀ r, id (f r) = id r} {hf : ∀ r, key (f r) = key r} {r s : α} (hr : r ∈ t) :
    s ∈ t.update (fun q => id q = id r) f hid hf ↔ s = f r ∨ s ∈ t ∧ id s ≠ id r := by
  refine Iff.trans mem_update ?_
  simp only [decide_eq_true_eq]
  constructor
  · rintro ⟨q, hq, rfl⟩
    by_cases h : id q = id r
    · rw [if_pos h, eq_of_id_eq hq hr h]
      exact Or.inl rfl
    · rw [if_neg h]
      exact Or.inr ⟨hq, h⟩
  · rintro (rfl | ⟨hs, h⟩)
    · exact ⟨r, hr, (if_pos rfl).symm⟩
    · exact ⟨s, hs, (if_neg h).symm⟩

/-- The row with the id `i`. -/
def byId? (t : SerialTable α id key) (i : Nat) : Option α := t.rows.find? (fun r => id r = i)

theorem byId?_eq_some {t : SerialTable α id key} {i : Nat} {r : α} :
    t.byId? i = some r ↔ r ∈ t ∧ id r = i := by
  constructor
  · intro h
    exact ⟨List.mem_of_find?_eq_some h, by simpa using List.find?_some h⟩
  · rintro ⟨hr, hi⟩
    cases hf : t.byId? i with
    | none => exact absurd hi (by simpa using List.find?_eq_none.mp hf r hr)
    | some s =>
      have hs : s ∈ t := List.mem_of_find?_eq_some hf
      have hsi : id s = i := by simpa using List.find?_some hf
      rw [eq_of_id_eq hs hr (hsi.trans hi.symm)]

/-- `t'` is `t` with the row `r` replaced by `r'`. -/
structure Replaced (t t' : SerialTable α id key) (r r' : α) : Prop where
  mem : r ∈ t
  id_eq : id r' = id r
  rows : t'.rows = t.rows.map (fun q => if id q = id r then r' else q)
  next : t'.next = t.next

namespace Replaced

variable {t t' t'' : SerialTable α id key} {r r' r'' : α}

theorem of_update {f : α → α} (hr : r ∈ t) (hid : ∀ r, id (f r) = id r := by intro _; rfl)
    (hf : ∀ r, key (f r) = key r := by intro _; rfl) :
    Replaced t (t.update (fun q => id q = id r) f hid hf) r (f r) where
  mem := hr
  id_eq := hid r
  rows := by
    apply List.map_congr_left
    intro q hq
    by_cases h : id q = id r
    · have hqr : q = r := eq_of_id_eq hq hr h
      simp [hqr]
    · simp [h]
  next := rfl

theorem mem_iff (h : Replaced t t' r r') {s : α} : s ∈ t' ↔ s = r' ∨ s ∈ t ∧ id s ≠ id r := by
  rw [mem_def, h.rows, List.mem_map]
  constructor
  · rintro ⟨q, hq, rfl⟩
    by_cases hid : id q = id r
    · exact Or.inl (if_pos hid)
    · rw [if_neg hid]
      exact Or.inr ⟨hq, hid⟩
  · rintro (rfl | ⟨hs, hid⟩)
    · exact ⟨r, h.mem, if_pos rfl⟩
    · exact ⟨s, hs, if_neg hid⟩

theorem mem_new (h : Replaced t t' r r') : r' ∈ t' := h.mem_iff.mpr (Or.inl rfl)

theorem trans (h : Replaced t t' r r') (h' : Replaced t' t'' r' r'') : Replaced t t'' r r'' where
  mem := h.mem
  id_eq := h'.id_eq.trans h.id_eq
  rows := by
    rw [h'.rows, h.rows, List.map_map]
    apply List.map_congr_left
    intro q _
    by_cases hq : id q = id r
    · simp [hq]
    · simp [hq, h.id_eq]
  next := h'.next.trans h.next

/-- A count moves by the replaced row alone. -/
theorem countP (h : Replaced t t' r r') (p : α → Bool) :
    t'.rows.countP p + (if p r then 1 else 0) = t.rows.countP p + (if p r' then 1 else 0) := by
  have hlist : ∀ l : List α, (l.map id).Nodup → r ∈ l →
      (l.map (fun q => if id q = id r then r' else q)).countP p + (if p r then 1 else 0) =
        l.countP p + (if p r' then 1 else 0) := by
    intro l
    induction l with
    | nil => simp
    | cons q l ih =>
      intro hnd hmem
      rw [List.map_cons, List.nodup_cons] at hnd
      rw [List.map_cons, List.countP_cons, List.countP_cons]
      by_cases hq : id q = id r
      · have hrest : l.map (fun q => if id q = id r then r' else q) = l := by
          refine (List.map_congr_left (fun s hs => ?_)).trans (List.map_id l)
          have hne : id s ≠ id r := fun hs' => hnd.1 (hq ▸ hs' ▸ List.mem_map_of_mem hs)
          exact if_neg hne
        have hqr : q = r := by
          rcases List.mem_cons.mp hmem with hr | hr
          · exact hr.symm
          · exact absurd (hq ▸ List.mem_map_of_mem hr) hnd.1
        subst hqr
        rw [hrest, if_pos rfl]
        omega
      · have hmem' : r ∈ l := by
          rcases List.mem_cons.mp hmem with hr | hr
          · exact absurd (hr ▸ rfl) hq
          · exact hr
        have := ih hnd.2 hmem'
        rw [if_neg hq]
        omega
  rw [h.rows]
  exact hlist t.rows t.serial h.mem

end Replaced

/-- `DELETE` of the rows that `p` does not keep. -/
def filter (t : SerialTable α id key) (p : α → Bool) : SerialTable α id key where
  rows := t.rows.filter p
  unique := t.unique.sublist (List.filter_sublist.map key)
  next := t.next
  serial := t.serial.sublist (List.filter_sublist.map id)
  below := fun r hr => t.below r (List.mem_filter.mp hr).1

theorem mem_filter {t : SerialTable α id key} {p : α → Bool} {r : α} :
    r ∈ t.filter p ↔ r ∈ t ∧ p r = true :=
  List.mem_filter

theorem nodup_rows (t : SerialTable α id key) : t.rows.Nodup := t.serial.of_map id

/-- A sum moves by the row that goes and the row, if any, that takes its place. -/
theorem sum_swap {β : Type} [AddCommMonoid β] {t t' : SerialTable α id key} {r : α}
    {o : Option α} (hr : r ∈ t) (ho : ∀ s ∈ o, id s = id r)
    (h : ∀ s, s ∈ t' ↔ s ∈ t ∧ id s ≠ id r ∨ s ∈ o) (f : α → β) :
    (t'.rows.map f).sum + f r = (t.rows.map f).sum + o.elim 0 f := by
  have hrest : (t.rows.filter (fun s => id s ≠ id r)).Nodup := t.nodup_rows.filter _
  have hold : t.rows.Perm (r :: t.rows.filter (fun s => id s ≠ id r)) := by
    refine (List.perm_ext_iff_of_nodup t.nodup_rows (hrest.cons (by simp))).mpr (fun s => ?_)
    rw [List.mem_cons, List.mem_filter, decide_eq_true_eq]
    constructor
    · intro hs
      by_cases hid : id s = id r
      · exact Or.inl (eq_of_id_eq hs hr hid)
      · exact Or.inr ⟨hs, hid⟩
    · rintro (rfl | ⟨hs, -⟩)
      · exact hr
      · exact hs
  have hnew : t'.rows.Perm (o.toList ++ t.rows.filter (fun s => id s ≠ id r)) := by
    have hdisj : o.toList.Disjoint (t.rows.filter (fun s => id s ≠ id r)) := by
      intro s hs hs'
      have hne := (List.mem_filter.mp hs').2
      rw [decide_eq_true_eq] at hne
      exact hne (ho s (Option.mem_toList.mp hs))
    have ho' : o.toList.Nodup := by cases o <;> simp
    refine (List.perm_ext_iff_of_nodup t'.nodup_rows (ho'.append hrest hdisj)).mpr (fun s => ?_)
    rw [List.mem_append, List.mem_filter, decide_eq_true_eq, Option.mem_toList, or_comm]
    exact h s
  rw [(hold.map f).sum_eq, (hnew.map f).sum_eq, List.map_append, List.sum_append, List.map_cons,
    List.sum_cons]
  cases o with
  | none => simp [add_comm]
  | some s =>
    simp only [Option.toList_some, List.map_cons, List.map_nil, List.sum_cons, List.sum_nil,
      add_zero, Option.elim_some]
    rw [add_comm (f r), add_assoc, add_comm (f s), add_assoc]

/-- Tables that have the same rows of non-zero weight have the same sum. -/
theorem sum_eq_of_mem {β : Type} [AddCommMonoid β] {t t' : SerialTable α id key} {f : α → β}
    (h : ∀ r, f r ≠ 0 → (r ∈ t' ↔ r ∈ t)) : (t'.rows.map f).sum = (t.rows.map f).sum := by
  classical
  have hfilter : ∀ l : List α, (l.map f).sum = ((l.filter (fun r => f r ≠ 0)).map f).sum := by
    intro l
    rw [Table.sum_filter]
    congr 1
    apply List.map_congr_left
    intro r _
    by_cases hr : f r = 0 <;> simp [hr]
  have hperm : (t'.rows.filter (fun r => f r ≠ 0)).Perm (t.rows.filter (fun r => f r ≠ 0)) := by
    refine (List.perm_ext_iff_of_nodup (t'.nodup_rows.filter _) (t.nodup_rows.filter _)).mpr ?_
    intro r
    rw [List.mem_filter, List.mem_filter, decide_eq_true_eq]
    exact and_congr_left (h r)
  rw [hfilter t'.rows, hfilter t.rows, (hperm.map f).sum_eq]

theorem mem_of_rows {t t' : SerialTable α id key} {r s : α} (h : t'.rows = r :: t.rows) :
    s ∈ t' ↔ s = r ∨ s ∈ t :=
  Table.mem_of_rows h

theorem fresh_of_rows {t t' : SerialTable α id key} {r s : α} (h : t'.rows = r :: t.rows)
    (hs : s ∈ t) : key s ≠ key r :=
  Table.fresh_of_rows h hs

variable [DecidableEq κ]

def get? (t : SerialTable α id key) (k : κ) : Option α := t.toTable.get? k

theorem get?_eq_some {t : SerialTable α id key} {k : κ} {r : α} :
    t.get? k = some r ↔ r ∈ t ∧ key r = k := Table.get?_eq_some

theorem get?_eq_none {t : SerialTable α id key} {k : κ} :
    t.get? k = none ↔ ∀ r ∈ t, key r ≠ k := Table.get?_eq_none

theorem mem_of_get? {t : SerialTable α id key} {k : κ} {r : α} (h : t.get? k = some r) :
    r ∈ t := (get?_eq_some.mp h).1

/-- `INSERT ... ON CONFLICT DO NOTHING RETURNING id`: `mk` is the row as a function of
its new id. -/
def insert? (t : SerialTable α id key) (mk : Nat → α)
    (hid : ∀ n, id (mk n) = n := by intro _; rfl) : Option (SerialTable α id key) :=
  if h : key (mk t.next) ∈ t.rows.map key then none
  else some
    { rows := mk t.next :: t.rows
      unique := by rw [List.map_cons, List.nodup_cons]; exact ⟨h, t.unique⟩
      next := t.next + 1
      serial := by
        rw [List.map_cons, List.nodup_cons]
        refine ⟨fun hmem => ?_, t.serial⟩
        obtain ⟨r, hr, hrid⟩ := List.mem_map.mp hmem
        have := t.below r hr
        rw [hrid, hid] at this
        exact Nat.lt_irrefl _ this
      below := by
        intro r hr
        rcases List.mem_cons.mp hr with rfl | hr
        · rw [hid]; exact Nat.lt_succ_self _
        · exact Nat.lt_succ_of_lt (t.below r hr) }

variable {mk : Nat → α}

theorem insert?_eq_none {t : SerialTable α id key} {hid : ∀ n, id (mk n) = n} :
    t.insert? mk hid = none ↔ ∃ s ∈ t, key s = key (mk t.next) := by
  simp [insert?, mem_def]

theorem rows_insert? {t t' : SerialTable α id key} {hid : ∀ n, id (mk n) = n}
    (h : t.insert? mk hid = some t') : t'.rows = mk t.next :: t.rows ∧ t'.next = t.next + 1 := by
  unfold insert? at h
  split at h
  · cases h
  · cases h
    exact ⟨rfl, rfl⟩

theorem mem_insert? {t t' : SerialTable α id key} {hid : ∀ n, id (mk n) = n}
    {s : α} (h : t.insert? mk hid = some t') : s ∈ t' ↔ s = mk t.next ∨ s ∈ t := by
  rw [mem_def, (rows_insert? h).1, List.mem_cons, mem_def]

theorem fresh_of_insert? {t t' : SerialTable α id key}
    {hid : ∀ n, id (mk n) = n} {s : α} (h : t.insert? mk hid = some t') (hs : s ∈ t) :
    key s ≠ key (mk t.next) := by
  intro hk
  have : t.insert? mk hid = none := insert?_eq_none.mpr ⟨s, hs, hk⟩
  rw [h] at this
  cases this

/-- An insertion followed by an update of the new row: `INSERT ... RETURNING id`, then
`UPDATE ... WHERE id = ...` in the same transaction. -/
theorem rows_update_insert? {t t' : SerialTable α id key} {mk : Nat → α}
    {hid : ∀ n, id (mk n) = n} {f : α → α} {hfid : ∀ r, id (f r) = id r}
    {hf : ∀ r, key (f r) = key r} (h : t.insert? mk hid = some t') :
    (t'.update (fun r => id r = t.next) f hfid hf).rows = f (mk t.next) :: t.rows := by
  have hrows := (rows_insert? h).1
  show t'.rows.map (fun r => if decide (id r = t.next) then f r else r) = _
  rw [hrows, List.map_cons]
  congr 1
  · simp [hid]
  · have hold : ∀ r ∈ t.rows, (if decide (id r = t.next) then f r else r) = r := by
      intro r hr
      have hlt := t.below r hr
      have hne : id r ≠ t.next := by omega
      simp [hne]
    exact (List.map_congr_left hold).trans (List.map_id _)

end SerialTable

end LastSietch
