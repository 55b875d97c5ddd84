import Mathlib.Data.List.Pairwise

/-!
# Autoincrement tables

A `Serial α id` is a SQL table with `INTEGER PRIMARY KEY AUTOINCREMENT`: every row has its own
`id`, an insertion gives the next one, and an id that was given is not given again. Rows stand
newest first, so `ORDER BY id DESC` is the order of `rows`.

* `mem_insert`, `mem_update`, `mem_filter`, `of_mem_insertAll`: what a statement leaves.
* `eq_of_id_eq`: two rows with one id are one row.
* `Follows`: what has become of the rows that were there, statement by statement.
* `UniqueWhere`: a partial unique index, with what an update, a deletion, an insertion and an
  `INSERT ... SELECT` do to it.
-/

namespace LastSietch

structure Serial (α : Type) (id : α → Nat) where
  rows : List α
  next : Nat
  below : ∀ r ∈ rows, id r < next
  sorted : rows.Pairwise (fun r s => id s < id r)

namespace Serial

variable {α : Type} {id : α → Nat}

instance : Membership α (Serial α id) := ⟨fun t r => r ∈ t.rows⟩

variable {r : α}

theorem mem_def {t : Serial α id} : r ∈ t ↔ r ∈ t.rows := Iff.rfl

instance decidableForall (t : Serial α id) (p : α → Prop) [DecidablePred p] :
    Decidable (∀ r ∈ t, p r) :=
  inferInstanceAs (Decidable (∀ r ∈ t.rows, p r))

instance decidableExists (t : Serial α id) (p : α → Prop) [DecidablePred p] :
    Decidable (∃ r ∈ t, p r) :=
  inferInstanceAs (Decidable (∃ r ∈ t.rows, p r))

def empty : Serial α id := ⟨[], 1, fun _ h => absurd h List.not_mem_nil, List.Pairwise.nil⟩

@[simp] theorem not_mem_empty (r : α) : r ∉ (empty : Serial α id) := List.not_mem_nil

theorem id_lt_next {t : Serial α id} (hr : r ∈ t) : id r < t.next := t.below r hr

theorem eq_of_id_eq {t : Serial α id} {s : α} (hr : r ∈ t) (hs : s ∈ t) (h : id r = id s) :
    r = s := by
  by_contra hne
  have hpair : t.rows.Pairwise (fun r s => id r ≠ id s) :=
    t.sorted.imp (fun hlt => Nat.ne_of_gt hlt)
  have hsymm : Std.Symm (fun r s : α => id r ≠ id s) := ⟨fun _ _ h => Ne.symm h⟩
  exact hpair.forall hr hs hne h

theorem ext_rows {t t' : Serial α id} (hrows : t.rows = t'.rows) (hnext : t.next = t'.next) :
    t = t' := by
  obtain ⟨rows, next, below, sorted⟩ := t
  obtain ⟨rows', next', below', sorted'⟩ := t'
  cases hrows
  cases hnext
  rfl

/-- `INSERT`: `mk` is the row as a function of its new id. -/
def insert (t : Serial α id) (mk : Nat → α) (hid : ∀ n, id (mk n) = n := by intro _; rfl) :
    Serial α id where
  rows := mk t.next :: t.rows
  next := t.next + 1
  below := by
    intro r hr
    rcases List.mem_cons.mp hr with rfl | hr
    · rw [hid]
      exact Nat.lt_succ_self _
    · exact Nat.lt_succ_of_lt (t.below r hr)
  sorted := List.pairwise_cons.mpr ⟨fun r hr => by rw [hid]; exact t.below r hr, t.sorted⟩

theorem mem_insert {t : Serial α id} {mk : Nat → α} {hid : ∀ n, id (mk n) = n} :
    r ∈ t.insert mk hid ↔ r = mk t.next ∨ r ∈ t :=
  List.mem_cons

/-- `UPDATE ... SET f WHERE p`. -/
def update (t : Serial α id) (p : α → Bool) (f : α → α)
    (hid : ∀ r, id (f r) = id r := by intro _; rfl) : Serial α id where
  rows := t.rows.map (fun r => if p r then f r else r)
  next := t.next
  below := by
    intro r hr
    obtain ⟨s, hs, rfl⟩ := List.mem_map.mp hr
    have hlt := t.below s hs
    split
    · rw [hid]
      exact hlt
    · exact hlt
  sorted := by
    refine List.pairwise_map.mpr (t.sorted.imp (fun {r s} hlt => ?_))
    have hsame : ∀ q, id (if p q then f q else q) = id q := by
      intro q
      split
      · exact hid q
      · rfl
    rw [hsame, hsame]
    exact hlt

theorem mem_update {t : Serial α id} {p : α → Bool} {f : α → α} {hid : ∀ r, id (f r) = id r}
    {s : α} : s ∈ t.update p f hid ↔ ∃ r ∈ t, s = if p r then f r else r := by
  simp only [mem_def, update, List.mem_map]
  exact ⟨fun ⟨r, hr, h⟩ => ⟨r, hr, h.symm⟩, fun ⟨r, hr, h⟩ => ⟨r, hr, h.symm⟩⟩

theorem mem_update_of_not {t : Serial α id} {p : α → Bool} {f : α → α}
    {hid : ∀ r, id (f r) = id r} (hr : r ∈ t) (hp : p r = false) : r ∈ t.update p f hid :=
  mem_update.mpr ⟨r, hr, by rw [hp]; rfl⟩

theorem update_eq_self {t : Serial α id} {p : α → Bool} {f : α → α} {hid : ∀ r, id (f r) = id r}
    (h : ∀ r ∈ t, p r = false) : t.update p f hid = t := by
  refine ext_rows ((List.map_congr_left (fun r hr => ?_)).trans (List.map_id _)) rfl
  rw [h r hr]
  rfl

theorem update_split {t : Serial α id} {p : α → Bool} {f : α → α} {hid : ∀ r, id (f r) = id r}
    {r : α} (hr : r ∈ t) (hp : p r = true) (honly : ∀ s ∈ t, p s = true → s = r) :
    ∃ l₁ l₂, t.rows = l₁ ++ r :: l₂ ∧ (t.update p f hid).rows = l₁ ++ f r :: l₂ := by
  obtain ⟨l₁, l₂, hrows⟩ := List.append_of_mem hr
  have hsorted := t.sorted
  rw [hrows, List.pairwise_append] at hsorted
  obtain ⟨-, hsorted, hbefore⟩ := hsorted
  have hother : ∀ l : List α, (∀ s ∈ l, s ∈ t ∧ s ≠ r) →
      l.map (fun s => if p s then f s else s) = l := by
    intro l hl
    refine (List.map_congr_left (fun s hs => ?_)).trans (List.map_id _)
    obtain ⟨hs, hne⟩ := hl s hs
    exact if_neg (fun hps => hne (honly s hs hps))
  refine ⟨l₁, l₂, hrows, ?_⟩
  show t.rows.map (fun s => if p s then f s else s) = l₁ ++ f r :: l₂
  rw [hrows, List.map_append, List.map_cons, if_pos hp, hother l₁, hother l₂]
  · intro s hs
    refine ⟨by rw [mem_def, hrows]; simp [hs], ?_⟩
    rintro rfl
    exact Nat.lt_irrefl _ ((List.pairwise_cons.mp hsorted).1 s hs)
  · intro s hs
    refine ⟨by rw [mem_def, hrows]; simp [hs], ?_⟩
    rintro rfl
    exact Nat.lt_irrefl _ (hbefore s hs s (List.mem_cons_self ..))

/-- What `DELETE` leaves. -/
def filter (t : Serial α id) (p : α → Bool) : Serial α id where
  rows := t.rows.filter p
  next := t.next
  below := fun r hr => t.below r (List.mem_filter.mp hr).1
  sorted := t.sorted.filter p

theorem mem_filter {t : Serial α id} {p : α → Bool} :
    r ∈ t.filter p ↔ r ∈ t ∧ p r = true :=
  List.mem_filter

/-- The row with the id `i`. -/
def byId? (t : Serial α id) (i : Nat) : Option α := t.rows.find? (fun r => id r = i)

theorem byId?_eq_some {t : Serial α id} {i : Nat} :
    t.byId? i = some r ↔ r ∈ t ∧ id r = i := by
  constructor
  · intro h
    exact ⟨List.mem_of_find?_eq_some h, by simpa using List.find?_some h⟩
  · rintro ⟨hr, hi⟩
    cases hf : t.byId? i with
    | none => exact absurd hi (by simpa using List.find?_eq_none.mp hf r hr)
    | some s =>
      have hs : s ∈ t := List.mem_of_find?_eq_some hf
      have hsi : id s = i := by simpa using List.find?_some hf
      rw [eq_of_id_eq hs hr (hsi.trans hi.symm)]

section Copy

variable {copy : α → Nat → α} (hcopy : ∀ r n, id (copy r n) = n)

def insertAll (t : Serial α id) : List α → Serial α id
  | [] => t
  | r :: rs => (insertAll t rs).insert (copy r) (hcopy r)

theorem mem_insertAll_of_mem {t : Serial α id} {rs : List α} {s : α} (hs : s ∈ t) :
    s ∈ t.insertAll hcopy rs := by
  induction rs with
  | nil => exact hs
  | cons r rs ih => exact mem_insert.mpr (Or.inr ih)

theorem next_le_insertAll (t : Serial α id) (rs : List α) :
    t.next ≤ (t.insertAll hcopy rs).next := by
  induction rs with
  | nil => exact Nat.le_refl _
  | cons r rs ih => exact Nat.le_succ_of_le ih

theorem of_mem_insertAll {t : Serial α id} {rs : List α} {s : α}
    (hs : s ∈ t.insertAll hcopy rs) : s ∈ t ∨ ∃ r ∈ rs, ∃ n, t.next ≤ n ∧ s = copy r n := by
  induction rs with
  | nil => exact Or.inl hs
  | cons r rs ih =>
    rcases mem_insert.mp hs with rfl | hs
    · exact Or.inr ⟨r, List.mem_cons_self .., _, next_le_insertAll hcopy t rs, rfl⟩
    · rcases ih hs with hs | ⟨q, hq, n, hn, rfl⟩
      · exact Or.inl hs
      · exact Or.inr ⟨q, List.mem_cons_of_mem r hq, n, hn, rfl⟩

theorem exists_copy {t : Serial α id} {rs : List α} {r : α} (hr : r ∈ rs) :
    ∃ n, copy r n ∈ t.insertAll hcopy rs := by
  induction rs with
  | nil => exact absurd hr List.not_mem_nil
  | cons q rs ih =>
    rcases List.mem_cons.mp hr with rfl | hr
    · exact ⟨_, mem_insert.mpr (Or.inl rfl)⟩
    · obtain ⟨n, hn⟩ := ih hr
      exact ⟨n, mem_insert.mpr (Or.inr hn)⟩

end Copy

/-- `INSERT ... SELECT` of copies of the table's own rows, the oldest first. -/
def copyRows (t : Serial α id) (p : α → Bool) (copy : α → Nat → α)
    (hcopy : ∀ r n, id (copy r n) = n := by intro _ _; rfl) : Serial α id :=
  t.insertAll hcopy (t.rows.filter p)

/-- Every row of `t'` is new, or it is in the relation `R` to the row of `t` that has its id. -/
structure Follows (R : α → α → Prop) (t t' : Serial α id) : Prop where
  next : t.next ≤ t'.next
  rows : ∀ r' ∈ t', id r' < t.next → ∃ r ∈ t, id r = id r' ∧ R r r'

namespace Follows

variable {R : α → α → Prop} {t t' t'' : Serial α id}

theorem rel (h : Follows R t t') {r r' : α} (hr : r ∈ t) (hr' : r' ∈ t') (hid : id r' = id r) :
    R r r' := by
  obtain ⟨s, hs, hsid, hR⟩ := h.rows r' hr' (hid ▸ id_lt_next hr)
  exact eq_of_id_eq hr hs (hid.symm.trans hsid.symm) ▸ hR

theorem refl (hR : ∀ r, R r r) (t : Serial α id) : Follows R t t :=
  ⟨Nat.le_refl _, fun r hr _ => ⟨r, hr, rfl, hR r⟩⟩

theorem trans (hR : ∀ r s u, R r s → R s u → R r u) (h : Follows R t t') (h' : Follows R t' t'') :
    Follows R t t'' := by
  refine ⟨Nat.le_trans h.next h'.next, fun u hu hlt => ?_⟩
  obtain ⟨s, hs, hsid, hsu⟩ := h'.rows u hu (Nat.lt_of_lt_of_le hlt h.next)
  obtain ⟨r, hr, hrid, hrs⟩ := h.rows s hs (hsid ▸ hlt)
  exact ⟨r, hr, hrid.trans hsid, hR r s u hrs hsu⟩

theorem insert (hR : ∀ r, R r r) (t : Serial α id) {mk : Nat → α} {hid : ∀ n, id (mk n) = n} :
    Follows R t (t.insert mk hid) := by
  refine ⟨Nat.le_succ _, fun r hr hlt => ?_⟩
  rcases mem_insert.mp hr with rfl | hr
  · rw [hid] at hlt
    exact absurd hlt (Nat.lt_irrefl _)
  · exact ⟨r, hr, rfl, hR r⟩

theorem update (t : Serial α id) {p : α → Bool} {f : α → α} {hid : ∀ r, id (f r) = id r}
    (hR : ∀ r, R r r) (hf : ∀ r, p r = true → R r (f r)) : Follows R t (t.update p f hid) := by
  refine ⟨Nat.le_refl _, fun r hr _ => ?_⟩
  obtain ⟨s, hs, rfl⟩ := mem_update.mp hr
  by_cases hp : p s = true
  · rw [if_pos hp]
    exact ⟨s, hs, (hid s).symm, hf s hp⟩
  · rw [if_neg hp]
    exact ⟨s, hs, rfl, hR s⟩

theorem filter (hR : ∀ r, R r r) (t : Serial α id) (p : α → Bool) : Follows R t (t.filter p) :=
  ⟨Nat.le_refl _, fun r hr _ => ⟨r, (mem_filter.mp hr).1, rfl, hR r⟩⟩

theorem copyRows (hR : ∀ r, R r r) (t : Serial α id) {p : α → Bool} {copy : α → Nat → α}
    {hcopy : ∀ r n, id (copy r n) = n} : Follows R t (t.copyRows p copy hcopy) := by
  refine ⟨next_le_insertAll hcopy t _, fun s hs hlt => ?_⟩
  rcases of_mem_insertAll hcopy hs with hs | ⟨r, -, n, hn, rfl⟩
  · exact ⟨s, hs, rfl, hR s⟩
  · rw [hcopy] at hlt
    exact absurd hlt (Nat.not_lt.mpr hn)

end Follows

/-! ## Partial unique indexes -/

/-- No two rows that `p` picks have one key: what a unique index `WHERE p` would enforce. -/
def UniqueWhere {κ : Type} (p : α → Prop) (key : α → κ) (t : Serial α id) : Prop :=
  ∀ r ∈ t, ∀ s ∈ t, p r → p s → key r = key s → r = s

namespace UniqueWhere

variable {κ : Type} {p : α → Prop} {key : α → κ} {t : Serial α id}

theorem update (h : UniqueWhere p key t) {q : α → Bool} {f : α → α} {hid : ∀ r, id (f r) = id r}
    (hf : ∀ r ∈ t, q r = true → p (f r) → p r ∧ key (f r) = key r) :
    UniqueWhere p key (t.update q f hid) := by
  have hback : ∀ r ∈ t, p (if q r then f r else r) →
      p r ∧ key (if q r then f r else r) = key r := by
    intro r hr hp
    by_cases hq : q r = true
    · rw [if_pos hq] at hp ⊢
      exact hf r hr hq hp
    · rw [if_neg hq] at hp ⊢
      exact ⟨hp, rfl⟩
  intro r hr s hs hpr hps hkey
  obtain ⟨r₀, hr₀, rfl⟩ := mem_update.mp hr
  obtain ⟨s₀, hs₀, rfl⟩ := mem_update.mp hs
  obtain ⟨hp₁, hk₁⟩ := hback r₀ hr₀ hpr
  obtain ⟨hp₂, hk₂⟩ := hback s₀ hs₀ hps
  rw [h r₀ hr₀ s₀ hs₀ hp₁ hp₂ (hk₁.symm.trans (hkey.trans hk₂))]

theorem filter (h : UniqueWhere p key t) (q : α → Bool) : UniqueWhere p key (t.filter q) :=
  fun r hr s hs => h r (mem_filter.mp hr).1 s (mem_filter.mp hs).1

theorem insert_iff {mk : Nat → α} {hid : ∀ n, id (mk n) = n} :
    UniqueWhere p key (t.insert mk hid) ↔ UniqueWhere p key t ∧
      (p (mk t.next) → ∀ s ∈ t, p s → key s ≠ key (mk t.next)) := by
  constructor
  · refine fun h => ⟨fun r hr s hs => h r (mem_insert.mpr (Or.inr hr)) s (mem_insert.mpr (Or.inr hs)),
      fun hp s hs hps hkey => ?_⟩
    have hsame := h s (mem_insert.mpr (Or.inr hs)) _ (mem_insert.mpr (Or.inl rfl)) hps hp hkey
    have hlt := id_lt_next hs
    rw [hsame, hid] at hlt
    exact Nat.lt_irrefl _ hlt
  · rintro ⟨h, hnew⟩ r hr s hs hpr hps hkey
    rcases mem_insert.mp hr with rfl | hr <;> rcases mem_insert.mp hs with rfl | hs
    · rfl
    · exact absurd hkey.symm (hnew hpr s hs hps)
    · exact absurd hkey (hnew hps r hr hpr)
    · exact h r hr s hs hpr hps hkey

section Copy

variable {copy : α → Nat → α} {hcopy : ∀ r n, id (copy r n) = n}

/-- Copies whose rows are picked, under a key that does not depend on the new id. -/
theorem insertAll_iff {rs : List α} (k : α → κ) (hp : ∀ r ∈ rs, ∀ n, p (copy r n))
    (hk : ∀ r ∈ rs, ∀ n, key (copy r n) = k r) :
    UniqueWhere p key (t.insertAll hcopy rs) ↔ UniqueWhere p key t ∧
      (∀ r ∈ rs, ∀ s ∈ t, p s → key s ≠ k r) ∧ rs.Pairwise (fun r s => k r ≠ k s) := by
  induction rs with
  | nil => simp [Serial.insertAll]
  | cons r rs ih =>
    have hp' : ∀ q ∈ rs, ∀ n, p (copy q n) := fun q hq => hp q (List.mem_cons_of_mem r hq)
    have hk' : ∀ q ∈ rs, ∀ n, key (copy q n) = k q := fun q hq => hk q (List.mem_cons_of_mem r hq)
    have hr : ∀ n, key (copy r n) = k r := hk r (List.mem_cons_self ..)
    rw [Serial.insertAll, insert_iff, ih hp' hk', hr, List.pairwise_cons]
    constructor
    · rintro ⟨⟨ht, hold, hpair⟩, hnew⟩
      have hfree := hnew (hp r (List.mem_cons_self ..) _)
      refine ⟨ht, fun q hq s hs hps => ?_, fun q hq hkey => ?_, hpair⟩
      · rcases List.mem_cons.mp hq with rfl | hq
        · exact hfree s (mem_insertAll_of_mem hcopy hs) hps
        · exact hold q hq s hs hps
      · obtain ⟨n, hn⟩ := exists_copy hcopy hq (t := t)
        exact hfree _ hn (hp' q hq n) ((hk' q hq n).trans hkey.symm)
    · rintro ⟨ht, hold, hfirst, hpair⟩
      refine ⟨⟨ht, fun q hq => hold q (List.mem_cons_of_mem r hq), hpair⟩, fun _ s hs hps => ?_⟩
      rcases of_mem_insertAll hcopy hs with hs | ⟨q, hq, n, -, rfl⟩
      · exact hold r (List.mem_cons_self ..) s hs hps
      · rw [hk' q hq]
        exact (hfirst q hq).symm

end Copy

end UniqueWhere

end Serial

end LastSietch
