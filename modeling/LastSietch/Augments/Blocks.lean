import LastSietch.Augments.Stats

/-!
# What is read of a block and what is written

The readers go by name and the block by slot. Where every slot has a name of its own that the writer
leaves as it is, a name stands for its slot, and what the readers give under it is what the slot has.
-/

namespace LastSietch.Augments

/-! ## Lists -/

section Lists

variable {α β : Type} {l : List α}

variable {f : α → Option β} {r : List β}

theorem mapM_some_cons {a : α} (h : (a :: l).mapM f = some r) :
    ∃ b rest, f a = some b ∧ l.mapM f = some rest ∧ r = b :: rest := by
  simp only [List.mapM_cons, Option.pure_def, Option.bind_eq_bind, Option.bind_eq_some_iff,
    Option.some.injEq] at h
  obtain ⟨b, hb, rest, hrest, hr⟩ := h
  exact ⟨b, rest, hb, hrest, hr.symm⟩

theorem getElem?_mapM (h : l.mapM f = some r) (i : Nat) :
    r[i]? = (l[i]?).bind f := by
  induction l generalizing r i with
  | nil =>
    cases h
    rfl
  | cons a l ih =>
    obtain ⟨b, rest, hb, hrest, rfl⟩ := mapM_some_cons h
    cases i with
    | zero => exact hb.symm
    | succ i => exact ih hrest i

theorem length_mapM (h : l.mapM f = some r) :
    r.length = l.length := by
  induction l generalizing r with
  | nil =>
    cases h
    rfl
  | cons a l ih =>
    obtain ⟨b, rest, _, hrest, rfl⟩ := mapM_some_cons h
    simp only [List.length_cons, ih hrest]

theorem mapM_isSome (h : ∀ a ∈ l, f a ≠ none) : ∃ r, l.mapM f = some r := by
  induction l with
  | nil => exact ⟨[], rfl⟩
  | cons a l ih =>
    obtain ⟨b, hb⟩ := Option.ne_none_iff_exists'.mp (h a List.mem_cons_self)
    obtain ⟨r, hr⟩ := ih fun x hx => h x (List.mem_cons_of_mem a hx)
    exact ⟨b :: r, by simp [hb, hr]⟩

theorem mem_mapM (h : l.mapM f = some r) {b : β} :
    b ∈ r ↔ ∃ a ∈ l, f a = some b := by
  induction l generalizing r with
  | nil =>
    cases h
    simp
  | cons a l ih =>
    obtain ⟨b', rest, hb, hrest, rfl⟩ := mapM_some_cons h
    simp [ih hrest, hb, eq_comm]

theorem getElem?_filterMap (h : ∀ a ∈ l, f a ≠ none) (i : Nat) :
    (l.filterMap f)[i]? = (l[i]?).bind f := by
  induction l generalizing i with
  | nil => rfl
  | cons a l ih =>
    obtain ⟨b, hb⟩ := Option.ne_none_iff_exists'.mp (h a List.mem_cons_self)
    rw [List.filterMap_cons_some hb]
    cases i with
    | zero => exact hb.symm
    | succ i => exact ih (fun x hx => h x (List.mem_cons_of_mem a hx)) i

theorem length_filterMap (h : ∀ a ∈ l, f a ≠ none) :
    (l.filterMap f).length = l.length := by
  induction l with
  | nil => rfl
  | cons a l ih =>
    obtain ⟨b, hb⟩ := Option.ne_none_iff_exists'.mp (h a List.mem_cons_self)
    rw [List.filterMap_cons_some hb, List.length_cons, List.length_cons,
      ih fun x hx => h x (List.mem_cons_of_mem a hx)]

theorem lookup_of_mem {l : List (String × β)} {k : String} {v : β} (h : (k, v) ∈ l) :
    ∃ v', l.lookup k = some v' ∧ (k, v') ∈ l := by
  induction l with
  | nil => cases h
  | cons p l ih =>
    obtain ⟨k', v'⟩ := p
    by_cases hk : k = k'
    · subst hk
      exact ⟨v', by simp, List.mem_cons_self⟩
    · have hne : (k == k') = false := by simpa using hk
      have hmem : (k, v) ∈ l := by
        rcases List.mem_cons.mp h with h | h
        · cases h
          exact absurd rfl hk
        · exact h
      obtain ⟨w, hw, hwl⟩ := ih hmem
      exact ⟨w, by simp [List.lookup_cons, hne, hw], List.mem_cons_of_mem _ hwl⟩

theorem dictGet_eq {d : List (String × β)} {k : String} {v : β} (h : (k, v) ∈ d)
    (honly : ∀ v', (k, v') ∈ d → v' = v) : dictGet d k = some v := by
  obtain ⟨v', hv', hmem⟩ := lookup_of_mem (List.mem_reverse.mpr h)
  rw [dictGet, hv', honly v' (List.mem_reverse.mp hmem)]

theorem getD_eq {i : Nat} (h : i < l.length) (d : α) : l.getD i d = l[i] := by
  rw [List.getD_eq_getElem?_getD, List.getElem?_eq_getElem h]
  rfl

end Lists

theorem firsts_sublist (seen l : List String) : (firsts seen l).Sublist l := by
  induction l generalizing seen with
  | nil => exact List.Sublist.refl _
  | cons a l ih =>
    unfold firsts
    split
    · exact (ih seen).cons a
    · exact (ih (a :: seen)).cons_cons a

theorem validateAugmentIds_eq {raw ids : List String} (h : validateAugmentIds raw = some ids)
    (hlength : raw.length ≤ ids.length) : ids = raw.map strip := by
  unfold validateAugmentIds at h
  dsimp only at h
  split at h
  · cases h
    have hsub : ((firsts [] ((raw.map strip).filter (· ≠ ""))).take HARD_CAP).Sublist
        (raw.map strip) :=
      ((List.take_sublist _ _).trans (firsts_sublist _ _)).trans List.filter_sublist
    refine hsub.eq_of_length_le ?_
    rw [List.length_map]
    exact hlength
  · cases h

theorem ne_empty_of_validated {raw ids : List String} (h : validateAugmentIds raw = some ids)
    {a : String} (ha : a ∈ ids) : a ≠ "" := by
  unfold validateAugmentIds at h
  dsimp only at h
  split at h
  · cases h
    have hmem := (firsts_sublist _ _).subset (List.mem_of_mem_take ha)
    simpa using (List.mem_filter.mp hmem).2
  · cases h

theorem validateAugmentIds_singleton {a : String} {ids : List String} (hne : strip a ≠ "")
    (h : validateAugmentIds [a] = some ids) : ids = [strip a] := by
  have hfilter : ([a].map strip).filter (· ≠ "") = [strip a] := by simp [hne]
  unfold validateAugmentIds at h
  dsimp only at h
  rw [hfilter] at h
  split at h
  · cases h
    rfl
  · cases h

theorem getElem?_part (stats : Fields) (key : String) (i : Nat) :
    (part stats key)[i]? = (part? stats key).bind (·.nth? i) := by
  unfold part
  cases part? stats key with
  | none => rfl
  | some j => cases j <;> rfl

theorem slotName_eq (stats : Fields) (i : Nat) :
    slotName stats i = ((part stats "AppliedAugments")[i]?).bind (·.get? "Name") := by
  rw [slotName, getElem?_part]

theorem slotGrade_eq (stats : Fields) (i : Nat) :
    slotGrade stats i = (part stats "AppliedAugmentQualities")[i]? := by
  rw [slotGrade, getElem?_part]

theorem slotRolls_eq (stats : Fields) (i : Nat) :
    slotRolls stats i = ((part stats "AppliedAugmentRollData")[i]?).bind (·.get? "StatRolls") := by
  rw [slotRolls, getElem?_part]

theorem slotIndices_eq (stats : Fields) (i : Nat) :
    slotIndices stats i =
      ((part stats "AppliedAugmentRollData")[i]?).bind (·.get? "AppliedEffectIndices") := by
  rw [slotIndices, getElem?_part]

def slotCount (stats : Fields) : Nat := (part stats "AppliedAugments").length

/-! ### The block that is written -/

section Written

variable {stats : Fields} {ids : List String} {grades : List Int} {payloads : List Payload}

theorem part?_put (key : String) :
    part? (stats.put "FAugmentedItemStats" (faugValue ids grades payloads)) key =
      (Json.obj
        [("AppliedAugments", .arr (ids.map fun a => .obj [("Name", .str a)])),
         ("AppliedAugmentQualities", .arr (grades.map .int)),
         ("AppliedAugmentRollData", .arr (payloads.map Payload.json))]).get? key := by
  rw [part?, Fields.lookup_put, if_pos rfl]
  rfl

theorem slotName_put (i : Nat) :
    slotName (stats.put "FAugmentedItemStats" (faugValue ids grades payloads)) i =
      (ids[i]?).map .str := by
  rw [slotName, part?_put]
  change ((ids.map fun a => Json.obj [("Name", .str a)])[i]?).bind _ = _
  rw [List.getElem?_map]
  cases ids[i]? <;> rfl

theorem slotGrade_put (i : Nat) :
    slotGrade (stats.put "FAugmentedItemStats" (faugValue ids grades payloads)) i =
      (grades[i]?).map .int := by
  rw [slotGrade, part?_put]
  exact List.getElem?_map

theorem slotRolls_put (i : Nat) :
    slotRolls (stats.put "FAugmentedItemStats" (faugValue ids grades payloads)) i =
      (payloads[i]?).map fun p => .arr p.statRolls := by
  rw [slotRolls, part?_put]
  change ((payloads.map Payload.json)[i]?).bind _ = _
  rw [List.getElem?_map]
  cases payloads[i]? <;> rfl

theorem slotIndices_put (i : Nat) :
    slotIndices (stats.put "FAugmentedItemStats" (faugValue ids grades payloads)) i =
      (payloads[i]?).map fun p => .arr p.appliedEffectIndices := by
  rw [slotIndices, part?_put]
  change ((payloads.map Payload.json)[i]?).bind _ = _
  rw [List.getElem?_map]
  cases payloads[i]? <;> rfl

theorem length_part_put :
    (part (stats.put "FAugmentedItemStats" (faugValue ids grades payloads)) "AppliedAugments").length =
        ids.length ∧
      (part (stats.put "FAugmentedItemStats" (faugValue ids grades payloads))
        "AppliedAugmentQualities").length = grades.length ∧
      (part (stats.put "FAugmentedItemStats" (faugValue ids grades payloads))
        "AppliedAugmentRollData").length = payloads.length := by
  simp only [part, part?_put]
  exact ⟨List.length_map _, List.length_map _, List.length_map _⟩

end Written

/-! ### The block that is read -/

def readableName : Option Json → Bool
  | some (.str a) => a ≠ "" && strip a = a
  | _ => false

/-- A grade that `installed_grades` takes. -/
def readableGrade : Option Json → Bool
  | some (.int g) => 1 ≤ g && g ≤ 5
  | _ => false

def readableRolls (rt : Runtime) : Option Json → Bool
  | some (.arr l) => !l.isEmpty && l.all fun j => match j.number? with
    | some q => rt.double q = q
    | none => false
  | _ => false

/-- Every slot has a name that the writer leaves as it is, and no two slots have the same. -/
structure Named (stats : Fields) : Prop where
  readable : ∀ i < slotCount stats, readableName (slotName stats i) = true
  apart : ∀ i < slotCount stats, ∀ j < slotCount stats, slotName stats i = slotName stats j → i = j

instance (stats : Fields) : Decidable (Named stats) :=
  decidable_of_iff ((∀ i < slotCount stats, readableName (slotName stats i) = true) ∧
      ∀ i < slotCount stats, ∀ j < slotCount stats, slotName stats i = slotName stats j → i = j)
    ⟨fun h => ⟨h.1, h.2⟩, fun h => ⟨h.readable, h.apart⟩⟩

variable {rt : Runtime} {stats : Fields}

variable {i : Nat}

theorem slotName_lt {j : Json} (h : slotName stats i = some j) : i < slotCount stats := by
  rw [slotName_eq] at h
  obtain ⟨entry, hentry, _⟩ := Option.bind_eq_some_iff.mp h
  exact (List.getElem?_eq_some_iff.mp hentry).1

variable {j : Option Json}

theorem readableName_iff :
    readableName j = true ↔ ∃ a, j = some (.str a) ∧ a ≠ "" ∧ strip a = a := by
  unfold readableName
  split
  · rename_i a
    simp
  · rename_i hother
    simp only [Bool.false_eq_true, false_iff]
    rintro ⟨a, ha, _⟩
    exact hother a ha

theorem readableGrade_iff :
    readableGrade j = true ↔ ∃ g, j = some (.int g) ∧ 1 ≤ g ∧ g ≤ 5 := by
  unfold readableGrade
  split
  · rename_i g
    simp
  · rename_i hother
    simp only [Bool.false_eq_true, false_iff]
    rintro ⟨g, hg, _⟩
    exact hother g hg

theorem Named.named (h : Named stats) (hi : i < slotCount stats) :
    ∃ a, slotName stats i = some (.str a) ∧ a ≠ "" ∧ strip a = a :=
  readableName_iff.mp (h.readable i hi)

variable {a : String}

theorem Named.distinct (h : Named stats) {j : Nat}
    (hi : slotName stats i = some (.str a)) (hj : slotName stats j = some (.str a)) : i = j :=
  h.apart i (slotName_lt hi) j (slotName_lt hj) (hi.trans hj.symm)

theorem nameOf_slot {entry : Json} (hentry : (part stats "AppliedAugments")[i]? = some entry)
    (hname : slotName stats i = some (.str a)) (ha : a ≠ "") : nameOf rt entry = some a := by
  rw [slotName_eq, hentry] at hname
  have hget : entry.get? "Name" = some (.str a) := hname
  simp [nameOf, hget, Json.truthy, ha, Runtime.text]

theorem Named.entry (h : Named stats) (rt : Runtime) {entry : Json}
    (hentry : (part stats "AppliedAugments")[i]? = some entry) :
    ∃ a, slotName stats i = some (.str a) ∧ strip a = a ∧ nameOf rt entry = some a := by
  have hi : i < slotCount stats := (List.getElem?_eq_some_iff.mp hentry).1
  obtain ⟨a, hname, hne, hstrip⟩ := h.named hi
  exact ⟨a, hname, hstrip, nameOf_slot hentry hname hne⟩

theorem Named.nameOf_ne_none (h : Named stats) (rt : Runtime) :
    ∀ entry ∈ part stats "AppliedAugments", nameOf rt entry ≠ none := by
  intro entry hmem
  obtain ⟨i, hi⟩ := List.mem_iff_getElem?.mp hmem
  obtain ⟨a, _, _, ha⟩ := h.entry rt hi
  rw [ha]
  exact nofun

theorem Named.length_installed (h : Named stats) :
    (installedAugmentIds rt stats).length = slotCount stats :=
  length_filterMap (h.nameOf_ne_none rt)

theorem Named.entry_of_name (h : Named stats) (rt : Runtime)
    (hname : slotName stats i = some (.str a)) :
    ∃ entry, (part stats "AppliedAugments")[i]? = some entry ∧ nameOf rt entry = some a := by
  have hentry := List.getElem?_eq_getElem (slotName_lt hname)
  obtain ⟨b, hb, _, hnameOf⟩ := h.entry rt hentry
  cases hname.symm.trans hb
  exact ⟨_, hentry, hnameOf⟩

theorem Named.installed (h : Named stats) {i : Nat} {a : String}
    (hname : slotName stats i = some (.str a)) : (installedAugmentIds rt stats)[i]? = some a := by
  obtain ⟨entry, hentry, hnameOf⟩ := h.entry_of_name rt hname
  rw [installedAugmentIds, getElem?_filterMap (h.nameOf_ne_none rt), hentry]
  exact hnameOf

theorem Named.index_eq (h : Named stats) {j : Nat} {entry : Json}
    (hname : slotName stats i = some (.str a))
    (hentry : (part stats "AppliedAugments")[j]? = some entry) (ha : nameOf rt entry = some a) :
    j = i := by
  obtain ⟨b, hb, _, hnameOf⟩ := h.entry rt hentry
  have hba : b = a := Option.some.inj (hnameOf.symm.trans ha)
  subst hba
  exact h.distinct hb hname

theorem Named.dictGet_grades (h : Named stats) {g : Int}
    (hname : slotName stats i = some (.str a)) (hgrade : slotGrade stats i = some (.int g))
    (hg : 1 ≤ g ∧ g ≤ 5) : dictGet (installedGrades rt stats) a = some g := by
  obtain ⟨entry, hentry, hnameOf⟩ := h.entry_of_name rt hname
  rw [slotGrade_eq] at hgrade
  have hgradeOf : gradeOf (.int g) = some g := if_pos hg
  refine dictGet_eq ?_ (fun g' hg' => ?_)
  · refine List.mem_filterMap.mpr ⟨(entry, .int g), ?_, ?_⟩
    · exact List.mem_iff_getElem?.mpr ⟨i, List.getElem?_zip_eq_some.mpr ⟨hentry, hgrade⟩⟩
    · simp [hnameOf, hgradeOf]
  · obtain ⟨⟨entry', q⟩, hmem, hvalue⟩ := List.mem_filterMap.mp hg'
    obtain ⟨j, hj⟩ := List.mem_iff_getElem?.mp hmem
    obtain ⟨hentry', hq⟩ := List.getElem?_zip_eq_some.mp hj
    simp only [Option.bind_eq_bind, Option.bind_eq_some_iff, Option.some.injEq, Prod.mk.injEq]
      at hvalue
    obtain ⟨a', ha', g'', hg'', rfl, rfl⟩ := hvalue
    have hji := h.index_eq hname hentry' ha'
    subst hji
    cases hgrade.symm.trans hq
    exact Option.some.inj (hg''.symm.trans hgradeOf)

abbrev RollsReadable (rt : Runtime) (stats : Fields) (i : Nat) : Prop :=
  readableRolls rt (slotRolls stats i) = true ∧ isArray (slotIndices stats i) = true

theorem readableRolls_iff :
    readableRolls rt j = true ↔
      ∃ l, j = some (.arr l) ∧ l ≠ [] ∧ ∀ r ∈ l, ∃ q, r.number? = some q ∧ rt.double q = q := by
  unfold readableRolls
  split
  · rename_i l
    have hnumber : ∀ r : Json, (match r.number? with
        | some q => decide (rt.double q = q)
        | none => false) = true ↔ ∃ q, r.number? = some q ∧ rt.double q = q := by
      intro r
      cases r.number? <;> simp
    simp only [Bool.and_eq_true, List.all_eq_true, hnumber]
    simp
  · rename_i hother
    simp only [Bool.false_eq_true, false_iff]
    rintro ⟨l, hl, _⟩
    exact hother l hl

theorem isArray_iff : isArray j = true ↔ ∃ l, j = some (.arr l) := by
  unfold isArray
  split
  · simp
  · rename_i hother
    simp only [Bool.false_eq_true, false_iff]
    rintro ⟨l, hl⟩
    exact hother l hl

/-- No slot makes `installed_rolls` raise. -/
abbrev Calm (rt : Runtime) (stats : Fields) : Prop :=
  ∀ p ∈ (part stats "AppliedAugments").zip (part stats "AppliedAugmentRollData"),
    (keptEntry rt p.1 p.2).isSome = true

theorem floats_numeric {l : List Json} (h : ∀ j ∈ l, ∃ q, j.number? = some q ∧ rt.double q = q) :
    ∃ floats, l.mapM rt.float? = some floats ∧
      Json.numeric (.arr (floats.map .dec)) = Json.numeric (.arr l) := by
  induction l with
  | nil => exact ⟨[], rfl, rfl⟩
  | cons j l ih =>
    obtain ⟨q, hq, hdouble⟩ := h j List.mem_cons_self
    obtain ⟨floats, hfloats, hnumeric⟩ := ih fun x hx => h x (List.mem_cons_of_mem j hx)
    have hfloat : rt.float? j = some q ∧ j.point = .dec q := by
      cases j with
      | int z =>
        cases hq
        exact ⟨congrArg some hdouble, rfl⟩
      | dec r =>
        cases hq
        exact ⟨congrArg some hdouble, rfl⟩
      | null | bool _ | str _ | arr _ | obj _ => cases hq
    refine ⟨q :: floats, by simp [hfloat.1, hfloats], ?_⟩
    simp only [Json.numeric, Json.arr.injEq] at hnumeric
    simp only [Json.numeric, List.map_cons, hfloat.2, hnumeric]
    rfl

theorem keptEntry_name {entry data : Json} {v : Kept}
    (h : keptEntry rt entry data = some (some (a, v))) : nameOf rt entry = some a := by
  unfold keptEntry at h
  split at h
  · cases h
  · rename_i name hname
    split at h
    · cases h
    · split at h
      · split at h
        · simp only [Option.bind_eq_bind, Option.bind_eq_some_iff, Option.some.injEq,
            Prod.mk.injEq] at h
          obtain ⟨floats, _, hna, _⟩ := h
          rw [hname, hna]
        · cases h
      · cases h

theorem keptEntry_readable {entry data : Json} (hname : nameOf rt entry = some a)
    (hdata : (part stats "AppliedAugmentRollData")[i]? = some data) (h : RollsReadable rt stats i) :
    ∃ rolls indices, keptEntry rt entry data = some (some (a, ⟨rolls, .arr indices⟩)) ∧
      slotIndices stats i = some (.arr indices) ∧
      (slotRolls stats i).map Json.numeric = some (Json.numeric (.arr rolls)) := by
  obtain ⟨l, hl, hne, hnumbers⟩ := readableRolls_iff.mp h.1
  obtain ⟨indices, hindices⟩ := isArray_iff.mp h.2
  obtain ⟨floats, hfloats, hnumeric⟩ := floats_numeric hnumbers
  refine ⟨floats.map .dec, indices, ?_, hindices, by rw [hl, hnumeric]; rfl⟩
  rw [slotRolls_eq, hdata] at hl
  rw [slotIndices_eq, hdata] at hindices
  change data.get? "StatRolls" = _ at hl
  change data.get? "AppliedEffectIndices" = _ at hindices
  cases data with
  | null | bool _ | int _ | dec _ | str _ | arr _ => cases hl
  | obj fields =>
    obtain ⟨r, rolls, rfl⟩ := List.exists_cons_of_ne_nil hne
    have htruthy : (Json.obj fields).truthy = true := by
      cases fields with
      | nil => cases hl
      | cons f rest => rfl
    rw [Json.get?_obj] at hl hindices
    unfold keptEntry
    simp only [hname, htruthy, hl, hindices, hfloats, Option.bind_eq_bind, Option.bind_some]
    cases indices <;> rfl

theorem Named.dictGet_rolls (h : Named stats) (hcalm : Calm rt stats)
    (hname : slotName stats i = some (.str a)) (hrolls : RollsReadable rt stats i) :
    ∃ rolls indices, dictGet (installedRolls rt stats) a = some ⟨rolls, .arr indices⟩ ∧
      slotIndices stats i = some (.arr indices) ∧
      (slotRolls stats i).map Json.numeric = some (Json.numeric (.arr rolls)) := by
  obtain ⟨entry, hentry, hnameOf⟩ := h.entry_of_name rt hname
  obtain ⟨l, hl, _⟩ := readableRolls_iff.mp hrolls.1
  rw [slotRolls_eq] at hl
  obtain ⟨data, hdata, _⟩ := Option.bind_eq_some_iff.mp hl
  obtain ⟨rolls, indices, hkept, hindices, hnumeric⟩ := keptEntry_readable hnameOf hdata hrolls
  refine ⟨rolls, indices, ?_, hindices, hnumeric⟩
  obtain ⟨turns, hturns⟩ := mapM_isSome fun p hp =>
    Option.isSome_iff_ne_none.mp (hcalm p hp)
  have hmem : ∀ p, some p ∈ turns ↔ p ∈ installedRolls rt stats := by
    intro p
    simp only [installedRolls, hturns, Option.map_some, Option.getD_some, List.mem_filterMap]
    exact ⟨fun hp => ⟨_, hp, rfl⟩, fun ⟨_, hp, he⟩ => he ▸ hp⟩
  refine dictGet_eq ?_ (fun v hv => ?_)
  · refine (hmem _).mp ((mem_mapM hturns).mpr ⟨(entry, data), ?_, hkept⟩)
    exact List.mem_iff_getElem?.mpr ⟨i, List.getElem?_zip_eq_some.mpr ⟨hentry, hdata⟩⟩
  · obtain ⟨⟨entry', data'⟩, hp, hkept'⟩ := (mem_mapM hturns).mp ((hmem _).mpr hv)
    obtain ⟨j, hj⟩ := List.mem_iff_getElem?.mp hp
    obtain ⟨hentry', hdata'⟩ := List.getElem?_zip_eq_some.mp hj
    have hname' : nameOf rt entry' = some a := keptEntry_name hkept'
    have hji := h.index_eq hname hentry' hname'
    subst hji
    cases hentry.symm.trans hentry'
    cases hdata.symm.trans hdata'
    have hsame := hkept.symm.trans hkept'
    simp only [Option.some.injEq, Prod.mk.injEq, true_and] at hsame
    exact hsame.symm

end LastSietch.Augments
