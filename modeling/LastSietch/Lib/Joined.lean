import LastSietch.Lib.Table

/-!
# Tables changed from other tables

`UPDATE ... FROM` and `INSERT ... SELECT`. A row that several rows of the other table join is
changed by one of them, here the first. `Alike` says that two tables have the same rows, in whatever
order.

* `get?_updateFrom`: the row with a key after an `UPDATE ... FROM`.
* `joined_tells`: what all rows that join a row say of it, the change says.
* `insertAll?_isSome`: rows that have new and different keys go in.
* `mem_insertAll?`: what is there then.
-/

namespace LastSietch.Table

variable {α β κ : Type} {key : α → κ} [DecidableEq κ]

/-- `UPDATE t SET f FROM src WHERE p`. -/
def updateFrom (t : Table α key) (src : List β) (p : α → β → Bool) (f : α → β → α)
    (hf : ∀ r z, key (f r z) = key r := by intro _ _; rfl) : Table α key :=
  t.update (fun r => src.any (p r)) (fun r => (src.find? (p r)).elim r (f r)) (by
    intro r
    cases src.find? (p r) with
    | none => rfl
    | some z => exact hf r z)

/-- What `UPDATE ... FROM` makes of a row. -/
def joined (src : List β) (p : α → β → Bool) (f : α → β → α) (r : α) : α :=
  (src.find? (p r)).elim r (f r)

theorem get?_updateFrom (t : Table α key) (src : List β) (p : α → β → Bool) (f : α → β → α)
    (hf : ∀ r z, key (f r z) = key r) (k : κ) :
    (t.updateFrom src p f hf).get? k = (t.get? k).map (joined src p f) := by
  unfold updateFrom
  rw [get?_update]
  congr 1
  funext r
  split
  · rfl
  · rename_i hany
    have hnone : src.find? (p r) = none := by
      rw [List.find?_eq_none]
      exact fun z hz hp => hany (List.any_eq_true.mpr ⟨z, hz, hp⟩)
    rw [joined, hnone]
    rfl

variable {src : List β} {p : α → β → Bool} {f : α → β → α}

/-- What the rows that join a row all say of it. -/
theorem joined_tells {γ : Type} {r : α} (π : α → γ) {v : γ} (hsome : ∃ z ∈ src, p r z = true)
    (h : ∀ z ∈ src, p r z = true → π (f r z) = v) : π (joined src p f r) = v := by
  unfold joined
  cases hfind : src.find? (p r) with
  | none =>
    obtain ⟨z, hz, hp⟩ := hsome
    exact absurd hp (List.find?_eq_none.mp hfind z hz)
  | some z => exact h z (List.mem_of_find?_eq_some hfind) (List.find?_some hfind)

theorem joined_keeps {γ : Type} (src : List β) (p : α → β → Bool) (π : α → γ)
    (h : ∀ r z, π (f r z) = π r) (r : α) : π (joined src p f r) = π r := by
  unfold joined
  cases src.find? (p r) with
  | none => rfl
  | some z => exact h r z

theorem joined_of_none {r : α} (h : ∀ z ∈ src, p r z = false) : joined src p f r = r := by
  have hnone : src.find? (p r) = none := by
    rw [List.find?_eq_none]
    intro z hz
    rw [h z hz]
    exact Bool.false_ne_true
  rw [joined, hnone]
  rfl

/-- A row is left as it is, or changed by a row that joins it. -/
theorem joined_cases (src : List β) (p : α → β → Bool) (f : α → β → α) (r : α) :
    joined src p f r = r ∧ (∀ z ∈ src, p r z = false) ∨
      ∃ z ∈ src, p r z = true ∧ joined src p f r = f r z := by
  unfold joined
  cases hfind : src.find? (p r) with
  | none =>
    refine Or.inl ⟨rfl, fun z hz => ?_⟩
    exact Bool.not_eq_true _ ▸ List.find?_eq_none.mp hfind z hz
  | some z =>
    exact Or.inr ⟨z, List.mem_of_find?_eq_some hfind, List.find?_some hfind, rfl⟩

/-- What a `LEFT JOIN` has of the rows on its right. -/
def leftJoined {γ : Type} : List γ → List (Option γ)
  | [] => [none]
  | l => l.map some

theorem leftJoined_ne_nil {γ : Type} (l : List γ) : leftJoined l ≠ [] := by
  cases l with
  | nil => exact List.cons_ne_nil _ _
  | cons z l => exact List.cons_ne_nil _ _

theorem reduceOption_leftJoined {γ : Type} (l : List γ) : (leftJoined l).filterMap id = l := by
  cases l with
  | nil => rfl
  | cons z l => simp [leftJoined, List.filterMap_map]

/-- `INSERT INTO t SELECT`. -/
def insertAll? (t : Table α key) (l : List α) : Option (Table α key) :=
  l.foldlM (fun t r => t.insert? r) t

variable {t t' : Table α key}

theorem insertAll?_isSome {l : List α} (hnodup : (l.map key).Nodup)
    (hfresh : ∀ r ∈ l, t.get? (key r) = none) : (t.insertAll? l).isSome = true := by
  induction l generalizing t with
  | nil => rfl
  | cons r l ih =>
    rw [List.map_cons, List.nodup_cons] at hnodup
    have hnone : ∀ s ∈ t, key s ≠ key r := get?_eq_none.mp (hfresh r List.mem_cons_self)
    cases hins : t.insert? r with
    | none =>
      obtain ⟨s, hs, hkey⟩ := insert?_eq_none.mp hins
      exact absurd hkey (hnone s hs)
    | some t' =>
      unfold insertAll?
      rw [List.foldlM_cons, hins]
      refine ih hnodup.2 fun q hq => ?_
      have hne : key r ≠ key q := fun heq => hnodup.1 (heq ▸ List.mem_map_of_mem hq)
      rw [get?_insert? hins, if_neg hne]
      exact hfresh q (List.mem_cons_of_mem r hq)

theorem mem_insertAll? {l : List α} (h : t.insertAll? l = some t') {r : α} :
    r ∈ t' ↔ r ∈ l ∨ r ∈ t := by
  induction l generalizing t with
  | nil =>
    cases h
    simp
  | cons q l ih =>
    unfold insertAll? at h
    rw [List.foldlM_cons] at h
    obtain ⟨t₁, hins, hrest⟩ := Option.bind_eq_some_iff.mp h
    rw [ih hrest, mem_insert? hins, List.mem_cons]
    tauto

omit [DecidableEq κ] in
theorem nodup_keys {l : List α} (hl : l.Nodup) (hmem : ∀ r ∈ l, r ∈ t) :
    (l.map key).Nodup :=
  hl.map_on fun r hr s hs hkey => eq_of_key_eq (hmem r hr) (hmem s hs) hkey

theorem get?_filter (t : Table α key) (p : α → Bool) (k : κ) :
    (t.filter p).get? k = (t.get? k).filter p := by
  refine Option.ext fun r => ?_
  rw [get?_eq_some, mem_filter, Option.filter_eq_some_iff, get?_eq_some]
  tauto

/-! ## Rows that become others -/

/-- The rows of `t` have become those of `t'`, key by key. -/
def Becomes (R : α → α → Prop) (t t' : Table α key) : Prop :=
  ∀ k, Option.Rel R (t.get? k) (t'.get? k)

theorem Becomes.refl {R : α → α → Prop} (hR : ∀ r, R r r) (t : Table α key) : Becomes R t t := by
  intro k
  cases t.get? k with
  | none => exact .none
  | some r => exact .some (hR r)

variable {R Q : α → α → Prop}

theorem Becomes.trans {S : α → α → Prop} {t'' : Table α key} (h : Becomes R t t')
    (h' : Becomes S t' t'') (hQ : ∀ r s q, r ∈ t → R r s → S s q → Q r q) : Becomes Q t t'' := by
  intro k
  have hk := h k
  have hk' := h' k
  revert hk hk'
  cases hr : t.get? k with
  | none =>
    intro hk hk'
    generalize t'.get? k = o at hk hk'
    cases hk
    generalize t''.get? k = o' at hk'
    cases hk'
    exact .none
  | some r =>
    intro hk hk'
    generalize t'.get? k = o at hk hk'
    cases hk with
    | some hrs =>
      generalize t''.get? k = o' at hk'
      cases hk' with
      | some hsq => exact .some (hQ _ _ _ (mem_of_get? hr) hrs hsq)

theorem Becomes.mono (h : Becomes R t t') (hQ : ∀ r s, r ∈ t → R r s → Q r s) : Becomes Q t t' :=
  h.trans (Becomes.refl (R := Eq) (fun _ => rfl) t') fun r s q hr hrs hsq => by
    cases hsq
    exact hQ r s hr hrs

theorem Becomes.get {R : α → α → Prop} {t t' : Table α key} (h : Becomes R t t') {k : κ} {r : α}
    (hr : t.get? k = some r) : ∃ s, t'.get? k = some s ∧ R r s := by
  have hk := h k
  rw [hr] at hk
  generalize t'.get? k = o at hk
  cases hk with
  | some hrs => exact ⟨_, rfl, hrs⟩

theorem Becomes.get_back (h : Becomes R t t') {k : κ}
    {s : α} (hs : t'.get? k = some s) : ∃ r, t.get? k = some r ∧ R r s := by
  have hk := h k
  rw [hs] at hk
  generalize t.get? k = o at hk
  cases hk with
  | some hrs => exact ⟨_, rfl, hrs⟩

theorem Becomes.map {t'' : Table α key} (h : Becomes R t t')
    {g : α → α} (hget : ∀ k, t''.get? k = (t'.get? k).map g)
    (hQ : ∀ r ∈ t, ∀ s, R r s → Q r (g s)) : Becomes Q t t'' := by
  have hlast : Becomes (fun s q => q = g s) t' t'' := by
    intro k
    rw [hget]
    cases t'.get? k with
    | none => exact .none
    | some s => exact .some rfl
  refine h.trans hlast fun r s q hr hrs hq => ?_
  rw [hq]
  exact hQ r hr s hrs

theorem becomes_updateFrom (t : Table α key) (src : List β) (p : α → β → Bool) (f : α → β → α)
    (hf : ∀ r z, key (f r z) = key r) :
    Becomes (fun r s => s = joined src p f r) t (t.updateFrom src p f hf) :=
  (Becomes.refl (R := Eq) (fun _ => rfl) t).map (get?_updateFrom t src p f hf) fun r _ s hs => by
    rw [hs]

theorem becomes_updateFrom_of (hf : ∀ r z, key (f r z) = key r)
    (hkeep : ∀ r ∈ t, R r r) (hjoin : ∀ r ∈ t, ∀ z ∈ src, p r z = true → R r (f r z)) :
    Becomes R t (t.updateFrom src p f hf) := by
  refine (becomes_updateFrom t src p f hf).mono fun r s hr hs => ?_
  subst hs
  rcases joined_cases src p f r with ⟨heq, -⟩ | ⟨z, hz, hp, heq⟩
  · rw [heq]
    exact hkeep r hr
  · rw [heq]
    exact hjoin r hr z hz hp

def Alike (t t' : Table α key) : Prop := ∀ k, t.get? k = t'.get? k

theorem Alike.refl (t : Table α key) : Alike t t := fun _ => rfl

theorem Alike.symm (h : Alike t t') : Alike t' t := fun k => (h k).symm

theorem Becomes.alike (h : Becomes Eq t t') : Alike t t' := by
  intro k
  have hk := h k
  generalize t.get? k = o at hk
  generalize t'.get? k = o' at hk
  cases hk with
  | none => rfl
  | some heq => rw [heq]

/-- What the rows of `src` say about the rows that they join is how those were. -/
theorem alike_updateFrom (h : Becomes R t t') (hf : ∀ r z, key (f r z) = key r)
    (hback : ∀ r ∈ t, ∀ s, R r s → ∀ z ∈ src, p s z = true → f s z = r)
    (hkept : ∀ r ∈ t, ∀ s, R r s → (∀ z ∈ src, p s z = false) → s = r) :
    Alike t (t'.updateFrom src p f hf) := by
  refine (h.trans (becomes_updateFrom t' src p f hf) fun r s q hr hrs hq => ?_).alike
  rw [hq]
  rcases joined_cases src p f s with ⟨heq, hnone⟩ | ⟨z, hz, hp, heq⟩
  · rw [heq]
    exact (hkept r hr s hrs hnone).symm
  · rw [heq]
    exact (hback r hr s hrs z hz hp).symm

theorem alike_iff_mem : Alike t t' ↔ ∀ r, r ∈ t ↔ r ∈ t' := by
  constructor
  · intro h r
    rw [← (and_iff_left rfl : r ∈ t ∧ key r = key r ↔ r ∈ t), ← get?_eq_some, h,
      get?_eq_some, and_iff_left rfl]
  · intro h k
    refine Option.ext fun r => ?_
    rw [get?_eq_some, get?_eq_some, h]

end LastSietch.Table
