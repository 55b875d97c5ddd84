import LastSietch.Augments.Slots

/-!
# Augments for nothing

The augments of a pawn are the installed slots of the items it carries and its loose copies, each by
name and grade. A write that finds the block it was made from puts a name and grade into a slot only
for a copy of just that name and grade that it deletes, so the pawn gains none.
-/

namespace LastSietch.Augments

open Runs (exec Along)

variable {rt : Runtime}

/-! ## Counting -/

abbrev Holds (stats : Fields) (name : String) (grade : Int) (i : Nat) : Prop :=
  slotName stats i = some (.str name) ∧ slotGrade stats i = some (.int grade)

abbrev Item.Loose (it : Item) (name : String) (grade : Int) : Prop :=
  it.templateId = name ∧ it.qualityLevel = grade ∧ it.stats.has "FAugmentItemStats" = true

def installedCount (stats : Fields) (name : String) (grade : Int) : Nat :=
  ((List.range (slotCount stats)).filter (Holds stats name grade)).length

def Item.augmentCount (name : String) (grade : Int) (it : Item) : Nat :=
  installedCount it.stats name grade + if it.Loose name grade then 1 else 0

def Db.countOn (db : Db) (pawn : Nat) (name : String) (grade : Int) (rows : List Item) : Nat :=
  ((rows.filter (db.carries pawn)).map (Item.augmentCount name grade)).sum

def Db.augmentCount (db : Db) (pawn : Nat) (name : String) (grade : Int) : Nat :=
  db.countOn pawn name grade db.items.rows

theorem filter_range_mono {n : Nat} {P Q : Nat → Bool} (h : ∀ i < n, P i = true → Q i = true) :
    ((List.range n).filter P).length ≤ ((List.range n).filter Q).length := by
  have hsub : (List.range n).filter P ⊆ (List.range n).filter Q := by
    intro i hi
    obtain ⟨hlt, hi⟩ := List.mem_filter.mp hi
    exact List.mem_filter.mpr ⟨hlt, h i (List.mem_range.mp hlt) hi⟩
  exact (List.subperm_of_subset (List.nodup_range.filter P) hsub).length_le

theorem filter_range_le {n k : Nat} {P Q : Nat → Bool} (h : ∀ i < n, P i = true → i ≠ k → Q i = true) :
    ((List.range n).filter P).length ≤
      ((List.range n).filter Q).length + if P k = true then 1 else 0 := by
  by_cases hk : P k = true
  · rw [if_pos hk]
    have hsub : (List.range n).filter P ⊆ k :: (List.range n).filter Q := by
      intro i hi
      obtain ⟨hlt, hi⟩ := List.mem_filter.mp hi
      by_cases hik : i = k
      · exact hik ▸ List.mem_cons_self
      · exact List.mem_cons_of_mem k
          (List.mem_filter.mpr ⟨hlt, h i (List.mem_range.mp hlt) hi hik⟩)
    exact (List.subperm_of_subset (List.nodup_range.filter P) hsub).length_le
  · rw [if_neg hk]
    refine filter_range_mono fun i hi hPi => h i hi hPi ?_
    rintro rfl
    exact hk hPi

variable {db : Db} {pawn : Nat} {name : String} {grade : Int}

theorem countOn_cons (r : Item) (rows : List Item) :
    db.countOn pawn name grade (r :: rows) =
      (if db.carries pawn r = true then r.augmentCount name grade else 0) +
        db.countOn pawn name grade rows := by
  unfold Db.countOn
  by_cases h : db.carries pawn r = true
  · simp [h]
  · simp [h]

theorem countOn_filter_le (rows : List Item) (keep : Item → Bool) :
    db.countOn pawn name grade (rows.filter keep) ≤ db.countOn pawn name grade rows := by
  induction rows with
  | nil => exact Nat.le_refl _
  | cons r rows ih =>
    by_cases hr : keep r = true
    · rw [List.filter_cons_of_pos hr, countOn_cons, countOn_cons]
      omega
    · rw [List.filter_cons_of_neg hr, countOn_cons]
      omega

theorem countOn_filter {rows : List Item} {keep : Item → Bool} {c : Item} (hc : c ∈ rows)
    (hcarried : db.carries pawn c = true) (hkeep : keep c = false) :
    db.countOn pawn name grade (rows.filter keep) + c.augmentCount name grade ≤
      db.countOn pawn name grade rows := by
  induction rows with
  | nil => cases hc
  | cons r rows ih =>
    rcases List.mem_cons.mp hc with rfl | hc
    · rw [List.filter_cons_of_neg (by rw [hkeep]; exact nofun), countOn_cons, if_pos hcarried]
      have hle : db.countOn pawn name grade (rows.filter keep) ≤ db.countOn pawn name grade rows :=
        countOn_filter_le rows keep
      omega
    · have hle := ih hc
      by_cases hr : keep r = true
      · rw [List.filter_cons_of_pos hr, countOn_cons, countOn_cons]
        omega
      · rw [List.filter_cons_of_neg hr, countOn_cons]
        omega

theorem countOn_map {rows : List Item} {id : Nat} {f : Item → Item} {d : Nat}
    (hnodup : (rows.map (·.id)).Nodup) (hother : ∀ r ∈ rows, r.id ≠ id → f r = r)
    (hinventory : ∀ r ∈ rows, (f r).inventoryId = r.inventoryId)
    (hmine : ∀ r ∈ rows, r.id = id → (f r).augmentCount name grade ≤ r.augmentCount name grade + d) :
    db.countOn pawn name grade (rows.map f) ≤ db.countOn pawn name grade rows + d := by
  induction rows with
  | nil => exact Nat.zero_le _
  | cons r rows ih =>
    rw [List.map_cons, List.nodup_cons] at hnodup
    have hcarries : db.carries pawn (f r) = db.carries pawn r := by
      unfold Db.carries
      rw [hinventory r List.mem_cons_self]
    rw [List.map_cons, countOn_cons, countOn_cons, hcarries]
    by_cases hr : r.id = id
    · have hrest : rows.map f = rows := by
        refine (List.map_congr_left fun q hq => ?_).trans (List.map_id rows)
        refine hother q (List.mem_cons_of_mem r hq) (fun hqid => hnodup.1 ?_)
        exact List.mem_map.mpr ⟨q, hq, hqid.trans hr.symm⟩
      have hle := hmine r List.mem_cons_self hr
      rw [hrest]
      split <;> omega
    · rw [hother r List.mem_cons_self hr]
      have hle := ih hnodup.2 (fun q hq => hother q (List.mem_cons_of_mem r hq))
        (fun q hq => hinventory q (List.mem_cons_of_mem r hq))
        (fun q hq => hmine q (List.mem_cons_of_mem r hq))
      omega

/-! ## One write -/

/-- The request was made from the block that is there, and the grades that are written back can be
read. -/
structure Planned.Matches (rt : Runtime) (p : Planned) (stats : Fields) : Prop where
  fresh : p.Fresh rt stats
  gradeable : p.Gradeable stats

def Write.SlotBacked (w : Write) (i : Nat) : Prop :=
  slotName w.newStats i = slotName w.oldStats i ∧ slotGrade w.newStats i = slotGrade w.oldStats i ∨
    ∃ it, (i, it) ∈ w.consumed ∧ it ∈ w.before.items ∧ it ∉ w.after.items ∧
      w.before.carries w.pawn it = true ∧ Holds w.newStats it.templateId it.qualityLevel i ∧
      it.Loose it.templateId it.qualityLevel

structure Write.Backed (w : Write) : Prop where
  slots : ∀ i < slotCount w.newStats, w.SlotBacked i
  count : ∀ name grade, w.after.augmentCount w.pawn name grade ≤ w.before.augmentCount w.pawn name grade

namespace Applied

variable {p : Planned} {w : Write}

theorem slotCount_new (happ : Applied db p.tx w) : slotCount w.newStats = p.tx.ids.length := by
  obtain ⟨payloads, hstats, _⟩ := happ.stats
  rw [hstats]
  exact length_part_put.1

theorem unswapped (happ : Applied db p.tx w) (hkept : p.Kept rt) (h : p.Matches rt w.oldStats)
    {i : Nat} (hi : i < slotCount w.oldStats) (hswap : p.body.swapSlot ≠ some i) :
    slotName w.newStats i = slotName w.oldStats i ∧
      slotGrade w.newStats i = slotGrade w.oldStats i := by
  obtain ⟨payloads, hstats, _⟩ := happ.stats
  obtain ⟨a, hname, _⟩ := h.fresh.named.named hi
  obtain ⟨g, hgrade, hg⟩ := readableGrade_iff.mp (h.gradeable i hi hswap)
  have hid := (Planned.ids_eq hkept h.fresh happ.room).2 i a hswap hname
  have hwritten := Planned.grades_eq hkept h.fresh happ.room hswap hi hgrade hg
  rw [hstats, slotName_put, slotGrade_put, hid, hwritten, hname, hgrade]
  exact ⟨rfl, rfl⟩

theorem swapped (happ : Applied db p.tx w) (hkept : p.Kept rt) (h : p.Matches rt w.oldStats) {k : Nat}
    (hk : p.body.swapSlot = some k) :
    ∃ it, w.consumed = [(k, it)] ∧ it ∈ db.items ∧ it ∉ w.after.items ∧
      db.carries w.pawn it = true ∧ Holds w.newStats it.templateId it.qualityLevel k ∧
      it.Loose it.templateId it.qualityLevel := by
  obtain ⟨it₀, _, _, _, items, hspent, hafter⟩ := happ.item
  obtain ⟨payloads, hstats, _, hgrades, _⟩ := happ.stats
  have hspecs := Planned.specs_of_swap hkept h.fresh happ.room hk
  rw [hspecs] at hspent
  obtain ⟨⟨k', it⟩, hconsumed⟩ := List.length_eq_one_iff.mp
    ((@List.length_map _ _ w.consumed _).symm.trans (congrArg List.length hspent.slots))
  have hslot : k' = k := by
    have hslots : w.consumed.map (·.1) = [k] := hspent.slots
    rw [hconsumed] at hslots
    exact (List.cons.inj hslots).1
  subst hslot
  obtain ⟨s, hs, _, hcopied⟩ := hspent.copies (k', it) (by rw [hconsumed]; exact List.mem_cons_self)
  rw [List.mem_singleton.mp hs] at hcopied
  have hlt := hkept.live.slot k' hk
  have hlt' : k' < p.tx.grades.length := by omega
  have htemplate : it.templateId = p.tx.ids[k'] := hcopied.template.trans (getD_eq hlt _)
  have hgrade : it.qualityLevel = p.tx.grades[k'] := hcopied.grade.trans (getD_eq hlt' _)
  refine ⟨it, hconsumed, hcopied.mem, fun hmem => ?_, hcopied.carried, ?_, rfl, rfl,
    hcopied.standalone⟩
  · rw [hafter, Table.mem_update] at hmem
    obtain ⟨r, hr, hitr⟩ := hmem
    have hne := ((hspent.items r).mp hr).2 (k', it) (by rw [hconsumed]; exact List.mem_cons_self)
    refine hne ?_
    rw [hitr]
    split <;> rfl
  · rw [hstats]
    refine ⟨?_, ?_⟩
    · rw [slotName_put, List.getElem?_eq_getElem hlt, htemplate]
      rfl
    · rw [slotGrade_put, List.getElem?_eq_getElem hlt', hgrade]
      rfl

/-- The item holds of no augment more than before, apart from what its swapped slot holds now. -/
theorem installed_le (happ : Applied db p.tx w) (hkept : p.Kept rt) (h : p.Matches rt w.oldStats)
    (name : String) (grade : Int) :
    installedCount w.newStats name grade ≤ installedCount w.oldStats name grade +
      match p.body.swapSlot with
      | some k => if Holds w.newStats name grade k then 1 else 0
      | none => 0 := by
  have hcount : slotCount w.newStats = slotCount w.oldStats :=
    happ.slotCount_new.trans (Planned.ids_eq hkept h.fresh happ.room).1
  unfold installedCount
  rw [hcount]
  cases hk : p.body.swapSlot with
  | none =>
    refine filter_range_mono fun i hi hholds => ?_
    obtain ⟨hname, hgrade⟩ := happ.unswapped hkept h hi (by rw [hk]; exact nofun)
    have hholds := of_decide_eq_true hholds
    exact decide_eq_true ⟨hname ▸ hholds.1, hgrade ▸ hholds.2⟩
  | some k =>
    have hle := filter_range_le (n := slotCount w.oldStats) (k := k)
      (P := fun i => decide (Holds w.newStats name grade i))
      (Q := fun i => decide (Holds w.oldStats name grade i)) (fun i hi hholds hik => ?_)
    · simpa using hle
    · have hswap : p.body.swapSlot ≠ some i := by
        rw [hk]
        exact fun h => hik (Option.some.inj h).symm
      obtain ⟨hname, hgrade⟩ := happ.unswapped hkept h hi hswap
      have hholds := of_decide_eq_true hholds
      exact decide_eq_true ⟨hname ▸ hholds.1, hgrade ▸ hholds.2⟩

theorem looseKey_kept (happ : Applied db p.tx w) :
    w.newStats.has "FAugmentItemStats" = w.oldStats.has "FAugmentItemStats" := by
  obtain ⟨payloads, hstats, _⟩ := happ.stats
  have hlookup : w.newStats.lookup "FAugmentItemStats" = w.oldStats.lookup "FAugmentItemStats" := by
    rw [hstats, Fields.lookup_put, if_neg (by decide)]
    rcases lookup_baseBlocks p.tx.isWeapon w.oldStats "FAugmentItemStats" with hsame | ⟨_, hkey⟩
    · exact hsame
    · exact absurd hkey (by decide)
  unfold Fields.has
  rw [hlookup]

/-- The rows after a write hold of no augment more than the rows that it has not deleted, apart from
what the swapped slot holds. -/
theorem count_after (happ : Applied db p.tx w) (hkept : p.Kept rt) (h : p.Matches rt w.oldStats)
    (name : String) (grade : Int) :
    w.after.augmentCount w.pawn name grade ≤
      db.countOn w.pawn name grade
          (db.items.rows.filter fun it => w.consumed.all fun q => q.2.id ≠ it.id) +
        match p.body.swapSlot with
        | some k => if Holds w.newStats name grade k then 1 else 0
        | none => 0 := by
  obtain ⟨it₀, hit₀, _, hold, items, hspent, hafter⟩ := happ.item
  have hcarries : w.after.carries w.pawn = db.carries w.pawn := by
    funext it
    unfold Db.carries
    rw [happ.inventories]
  have hperm : items.rows.Perm
      (db.items.rows.filter fun it => w.consumed.all fun q => q.2.id ≠ it.id) := by
    refine (List.perm_ext_iff_of_nodup (items.unique.of_map _)
      ((db.items.unique.of_map _).filter _)).mpr fun it => ?_
    rw [List.mem_filter, List.all_eq_true]
    simpa [Table.mem_def] using hspent.items it
  have hcount : db.countOn w.pawn name grade items.rows = db.countOn w.pawn name grade
      (db.items.rows.filter fun it => w.consumed.all fun q => q.2.id ≠ it.id) :=
    ((hperm.filter _).map _).sum_eq
  rw [← hcount, Db.augmentCount, Db.countOn, hcarries, hafter]
  refine @countOn_map _ _ _ _ _ p.tx.itemId _ _ items.unique (fun r _ hr => ?_) (fun r _ => ?_)
    (fun r hr hid => ?_)
  · exact if_neg fun hd => hr (of_decide_eq_true hd).1
  · split <;> rfl
  · have hsame : r = it₀ := Table.eq_of_key_eq ((hspent.items r).mp hr).1 (Table.mem_of_get? hit₀)
      (hid.trans (Table.key_of_get? hit₀).symm)
    subst hsame
    rw [if_pos (decide_eq_true ⟨hid, rfl⟩)]
    have hinstalled := happ.installed_le hkept h name grade
    have hloose := happ.looseKey_kept
    rw [hold] at hinstalled hloose
    simp only [Item.augmentCount, Item.Loose, hloose]
    omega

theorem backed (happ : Applied db p.tx w) (hkept : p.Kept rt) (h : p.Matches rt w.oldStats) :
    w.Backed := by
  have hcount : slotCount w.newStats = slotCount w.oldStats :=
    happ.slotCount_new.trans (Planned.ids_eq hkept h.fresh happ.room).1
  refine ⟨fun i hi => ?_, fun name grade => ?_⟩
  · by_cases hswap : p.body.swapSlot = some i
    · obtain ⟨it, hconsumed, hmem, hgone, hcarried, hholds, hloose⟩ := happ.swapped hkept h hswap
      rw [happ.before.symm] at hmem hcarried
      exact Or.inr ⟨it, by rw [hconsumed]; exact List.mem_cons_self, hmem, hgone, hcarried, hholds,
        hloose⟩
    · exact Or.inl (happ.unswapped hkept h (hcount ▸ hi) hswap)
  · have hafter := happ.count_after hkept h name grade
    rw [happ.before]
    refine hafter.trans ?_
    cases hk : p.body.swapSlot with
    | none => exact countOn_filter_le _ _
    | some k =>
      obtain ⟨it, hconsumed, hmem, _, hcarried, hholds, hloose⟩ := happ.swapped hkept h hk
      have hdrop : db.countOn w.pawn name grade
          (db.items.rows.filter fun it' => w.consumed.all fun q => q.2.id ≠ it'.id) +
            it.augmentCount name grade ≤ db.countOn w.pawn name grade db.items.rows :=
        countOn_filter hmem hcarried (by rw [hconsumed]; simp)
      have hone : (if Holds w.newStats name grade k then 1 else 0) ≤ it.augmentCount name grade := by
        split
        · rename_i hnow
          have hname : it.templateId = name := by
            have := hholds.1.symm.trans hnow.1
            cases this
            rfl
          have hgrade : it.qualityLevel = grade := by
            have := hholds.2.symm.trans hnow.2
            cases this
            rfl
          rw [hname, hgrade] at hloose
          unfold Item.augmentCount
          rw [if_pos hloose]
          omega
        · exact Nat.zero_le _
      unfold Db.augmentCount
      dsimp only
      omega

end Applied

variable {cat : Catalogue} {s s' : Sys}

structure AllBacked (rt : Runtime) (s : Sys) : Prop where
  kept : s.Kept rt
  writes : ∀ w ∈ s.writes, w.Backed

theorem AllBacked.step {a : Act} (h : AllBacked rt s) (hfinds : s.Finds (Planned.Matches rt) a)
    (hstep : step rt cat s a = some s') : AllBacked rt s' := by
  refine ⟨h.kept.step hstep, fun w hw => ?_⟩
  cases step_effect hstep with
  | idle _ _ hwrites => exact h.writes w (hwrites ▸ hw)
  | wrote i ha r p began hjob w' happly _ hwrites =>
    subst ha
    rw [hwrites] at hw
    rcases List.mem_append.mp hw with hw | hw
    · exact h.writes w hw
    · rw [List.mem_singleton.mp hw]
      have happ := applied_of_applyTx happly
      exact happ.backed (h.kept _ (List.mem_of_getElem? hjob)) (happ.found (hfinds r p began hjob))

/-- In a run whose writes each find the block they were made from, with the grades they write back
readable, every slot is left as it was or is paid for with a copy of its new name and grade, and no
write gives the pawn an augment. -/
theorem augments_backed (hstart : s.Start) {acts : List Act}
    (hfinds : Along (step rt cat) (Sys.Finds (Planned.Matches rt)) s acts)
    (hrun : exec (step rt cat) s acts = some s') : ∀ w ∈ s'.writes, w.Backed := by
  have hbacked : AllBacked rt s := by
    refine ⟨fun j hj => ?_, fun w hw => ?_⟩
    · rw [hstart.jobs] at hj
      cases hj
    · rw [hstart.writes] at hw
      cases hw
  exact (Runs.exec_invariant (I := AllBacked rt) (fun _ _ _ h hfinds hstep => h.step hfinds hstep)
    hbacked hfinds hrun).writes

/-! ### A reroll around a swap -/

instance (p : Planned) (stats : Fields) : Decidable (p.Matches rt stats) :=
  decidable_of_iff (p.Fresh rt stats ∧ p.Gradeable stats)
    ⟨fun h => ⟨h.1, h.2⟩, fun h => ⟨h.fresh, h.gradeable⟩⟩

def aroundSwap : List Act :=
  [.request (reroll 1 (some ["T6_Augment_B"])), .plan 0 (fun _ _ => 1 / 4),
   .request (swap 2 1 "T6_Augment_C" 2)] ++ finish 1 ++ [.begin_ 0, .check 0, .write 0]

theorem aroundSwap_run :
    (exec (step plainRuntime openCatalogue) armory aroundSwap).isSome := by decide

/-- The reroll installs the augment again that the swap has destroyed. -/
theorem freeAugment : armory.Start ∧
    ∃ s', exec (step plainRuntime openCatalogue) armory aroundSwap = some s' ∧
      ∃ w ∈ s'.writes, ¬w.Backed := by
  have hrun := (Option.some_get aroundSwap_run).symm
  refine ⟨armory_start, _, hrun, ?_⟩
  have hgain : ∃ w ∈ ((exec (step plainRuntime openCatalogue) armory aroundSwap).get
      aroundSwap_run).writes, w.before.augmentCount w.pawn "T6_Augment_B" 3 <
        w.after.augmentCount w.pawn "T6_Augment_B" 3 := by
    decide
  obtain ⟨w, hw, hlt⟩ := hgain
  exact ⟨w, hw, fun hbacked => Nat.not_le_of_lt hlt (hbacked.count "T6_Augment_B" 3)⟩

theorem augments_backed_rerollAndSwap :
    ∃ s', exec (step plainRuntime openCatalogue) armory rerollAndSwap = some s' ∧
      s'.writes.map (·.consumed.map (·.1)) = [[], [1]] ∧ ∀ w ∈ s'.writes, w.Backed := by
  have hfinds : Along (step plainRuntime openCatalogue) (Sys.Finds (Planned.Matches plainRuntime))
      armory rerollAndSwap := by
    decide +kernel
  have hrun := (Option.some_get rerollAndSwap_run).symm
  exact ⟨_, hrun, by decide, augments_backed armory_start hfinds hrun⟩

end LastSietch.Augments
