import LastSietch.Lib.Table

/-!
# Tables with unique indexes

An `Indexed` table has a key and unique indexes on other columns, partial ones too: `entries r`
lists what the row `r` puts into them, and no entry stands in the table twice. A statement that
would enter something twice raises, so `insert?` and `update?` are `none` there; `update` is for
assignments that leave the indexes alone.

* `eq_of_entry`: two rows with one entry are one row.
* `insert?_spec` and `update?_spec`: what a statement that does not raise has done to the rows.
-/

namespace LastSietch

structure Indexed (α : Type) {κ ι : Type} (key : α → κ) (entries : α → List ι)
    extends Table α key where
  distinct : (rows.flatMap entries).Nodup

namespace Indexed

variable {α κ ι : Type} {key : α → κ} {entries : α → List ι}

instance : Membership α (Indexed α key entries) := ⟨fun t r => r ∈ t.toTable⟩

variable {t : Indexed α key entries}

theorem mem_def {r : α} : r ∈ t ↔ r ∈ t.toTable := Iff.rfl

instance decidableForall (t : Indexed α key entries) (p : α → Prop) [DecidablePred p] :
    Decidable (∀ r ∈ t, p r) :=
  inferInstanceAs (Decidable (∀ r ∈ t.rows, p r))

instance decidableExists (t : Indexed α key entries) (p : α → Prop) [DecidablePred p] :
    Decidable (∃ r ∈ t, p r) :=
  inferInstanceAs (Decidable (∃ r ∈ t.rows, p r))

def empty : Indexed α key entries := ⟨Table.empty, List.nodup_nil⟩

@[simp] theorem not_mem_empty (r : α) : r ∉ (empty : Indexed α key entries) := List.not_mem_nil

theorem eq_of_key_eq {r s : α} (hr : r ∈ t) (hs : s ∈ t) (h : key r = key s) : r = s :=
  Table.eq_of_key_eq hr hs h

theorem eq_of_entry {r s : α} {e : ι} (hr : r ∈ t) (hs : s ∈ t)
    (her : e ∈ entries r) (hes : e ∈ entries s) : r = s := by
  have hpair := (List.nodup_flatMap.mp t.distinct).2
  have hsymm : Std.Symm (Function.onFun List.Disjoint entries) :=
    ⟨fun _ _ h => List.Disjoint.symm h⟩
  by_contra hne
  exact hpair.forall hr hs hne her hes

def check? [DecidableEq ι] (t : Table α key) : Option (Indexed α key entries) :=
  if h : (t.rows.flatMap entries).Nodup then some ⟨t, h⟩ else none

theorem check?_eq_some [DecidableEq ι] {t : Table α key} {t' : Indexed α key entries}
    (h : check? t = some t') : t'.toTable = t := by
  unfold check? at h
  split at h
  · cases h
    rfl
  · cases h

/-- `UPDATE ... SET f WHERE p` on columns that no index is on. -/
def update (t : Indexed α key entries) (p : α → Bool) (f : α → α)
    (hf : ∀ r, key (f r) = key r := by intro _; rfl)
    (hix : ∀ r, entries (f r) = entries r := by intro _; rfl) : Indexed α key entries where
  toTable := t.toTable.update p f hf
  distinct := by
    have hsame : (t.toTable.update p f hf).rows.flatMap entries = t.rows.flatMap entries := by
      simp only [Table.update, List.flatMap_map]
      congr 1
      funext r
      by_cases h : p r <;> simp [h, hix]
    rw [hsame]
    exact t.distinct

theorem mem_update {t : Indexed α key entries} {p : α → Bool} {f : α → α}
    {hf : ∀ r, key (f r) = key r} {hix : ∀ r, entries (f r) = entries r} {s : α} :
    s ∈ t.update p f hf hix ↔ ∃ r ∈ t, s = if p r then f r else r :=
  @Table.mem_update _ _ _ t.toTable p f hf s

section Keys

variable [DecidableEq κ]

def get? (t : Indexed α key entries) (k : κ) : Option α := t.toTable.get? k

variable {t t' : Indexed α key entries}

theorem get?_eq_some {k : κ} {r : α} :
    t.get? k = some r ↔ r ∈ t ∧ key r = k :=
  Table.get?_eq_some

theorem mem_of_get? {k : κ} {r : α} (h : t.get? k = some r) : r ∈ t :=
  (get?_eq_some.mp h).1

theorem get?_update (t : Indexed α key entries) (p : α → Bool) (f : α → α)
    (hf : ∀ r, key (f r) = key r) (hix : ∀ r, entries (f r) = entries r) (k : κ) :
    (t.update p f hf hix).get? k = (t.get? k).map (fun r => if p r then f r else r) :=
  Table.get?_update t.toTable p f hf k

variable [DecidableEq ι]

/-- `INSERT`. -/
def insert? (t : Indexed α key entries) (r : α) : Option (Indexed α key entries) :=
  (t.toTable.insert? r).bind check?

theorem insert?_spec {r : α} (h : t.insert? r = some t') :
    (∀ s, s ∈ t' ↔ s = r ∨ s ∈ t) ∧ ∀ s ∈ t, key s ≠ key r := by
  obtain ⟨m, hm, hcheck⟩ := Option.bind_eq_some_iff.mp h
  have hrows := check?_eq_some hcheck
  refine ⟨fun s => ?_, fun s hs => Table.fresh_of_insert? hm hs⟩
  rw [mem_def, hrows]
  exact Table.mem_insert? hm

theorem get?_insert? {r : α} (h : t.insert? r = some t') (k : κ) :
    t'.get? k = if key r = k then some r else t.get? k := by
  obtain ⟨m, hm, hcheck⟩ := Option.bind_eq_some_iff.mp h
  rw [get?, check?_eq_some hcheck]
  exact Table.get?_insert? hm k

theorem insert?_keeps {r s : α} (h : t.insert? r = some t') {k : κ}
    (hs : t.get? k = some s) : t'.get? k = some s := by
  obtain ⟨hmem, rfl⟩ := get?_eq_some.mp hs
  exact (get?_insert? h _).trans ((if_neg (Ne.symm ((insert?_spec h).2 s hmem))).trans hs)

end Keys

variable [DecidableEq ι]

/-- `UPDATE ... SET f WHERE p`, for an assignment that leaves the key alone. -/
def update? (t : Indexed α key entries) (p : α → Bool) (f : α → α)
    (hf : ∀ r, key (f r) = key r := by intro _; rfl) : Option (Indexed α key entries) :=
  check? (t.toTable.update p f hf)

theorem update?_spec {t t' : Indexed α key entries} {p : α → Bool} {f : α → α}
    {hf : ∀ r, key (f r) = key r} (h : t.update? p f hf = some t') (s : α) :
    s ∈ t' ↔ ∃ r ∈ t, s = if p r then f r else r := by
  rw [mem_def, check?_eq_some h]
  exact Table.mem_update

theorem get?_update? [DecidableEq κ] {t t' : Indexed α key entries} {p : α → Bool} {f : α → α}
    {hf : ∀ r, key (f r) = key r} (h : t.update? p f hf = some t') (k : κ) :
    t'.get? k = (t.get? k).map (fun r => if p r then f r else r) := by
  rw [get?, check?_eq_some h]
  exact Table.get?_update t.toTable p f hf k

end Indexed

end LastSietch
