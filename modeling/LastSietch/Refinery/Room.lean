import LastSietch.Refinery.Exchange

/-!
# What a bank has room for

The room of a bank, counted on the rows before a mint: the dust stacks of quality 0 that are below
the cap, and the free slots. The stock that a withdrawal leaves is counted the same way, off the
rows before it.

* `mem_takeAll_withdraw`: the walk of a consume half leaves what `Items.withdraw` says.
-/

namespace LastSietch.Refinery

open Drain

def Items.Same (items items' : Items) : Prop := ∀ r, r ∈ items ↔ r ∈ items'

section Same

variable {items items' : Items}

theorem Items.Same.trans {items'' : Items} (h : items.Same items') (h' : items'.Same items'') :
    items.Same items'' :=
  fun r => (h r).trans (h' r)

theorem Items.Same.perm (h : items.Same items') : items.rows.Perm items'.rows :=
  (List.perm_ext_iff_of_nodup items.nodup_rows items'.nodup_rows).mpr h

theorem Items.Same.sum {β : Type} [AddCommMonoid β] (h : items.Same items') (f : Item → β) :
    (items.rows.map f).sum = (items'.rows.map f).sum :=
  (h.perm.map f).sum_eq

theorem Items.Same.held (h : items.Same items') (inv : Nat) (template : String) :
    items.held inv template = items'.held inv template := by
  rw [Items.held_eq, Items.held_eq, h.sum]

theorem Items.Same.usedVolume (h : items.Same items') (bank : Nat) :
    usedVolume items bank = usedVolume items' bank :=
  ((h.perm.filter _).map _).sum_eq

theorem Items.Same.sortedRows (h : items.Same items') (inv : Nat) (template : String) :
    sortedRows items inv template = sortedRows items' inv template := by
  have hperm : (Refinery.sortedRows items inv template).Perm
      (Refinery.sortedRows items' inv template) :=
    ((List.perm_insertionSort _ _).trans (h.perm.filter _)).trans
      (List.perm_insertionSort _ _).symm
  have hsorted : ∀ items : Items, (Refinery.sortedRows items inv template).Pairwise
      (fun r s => r.id ≤ s.id) := by
    intro items
    have htotal : Std.Total (fun r s : Item => r.id ≤ s.id) := ⟨fun r s => le_total r.id s.id⟩
    have htrans : IsTrans Item (fun r s => r.id ≤ s.id) := ⟨fun _ _ _ => le_trans⟩
    exact List.pairwise_insertionSort _ _
  refine hperm.eq_of_pairwise (fun r s hr hs hrs hsr => ?_) (hsorted items) (hsorted items')
  exact SerialTable.eq_of_id_eq (mem_sortedRows.mp hr).1
    ((h s).mpr (mem_sortedRows.mp hs).1) (le_antisymm hrs hsr)

theorem Items.Same.sourceRows (h : items.Same items') (p : Pawn) (template : String) :
    p.sourceRows items template = p.sourceRows items' template := by
  unfold Pawn.sourceRows
  simp only [h.sortedRows]

end Same

/-! ## A withdrawal -/

def Pawn.held (p : Pawn) (items : Items) (template : String) : Int :=
  items.held p.bank.id template + items.held p.backpack.id template +
    p.toolbar.elim 0 (fun inv => items.held inv.id template)

/-- What each row gives when `need` units are drained from the sources in order. -/
def Pawn.gives (p : Pawn) (items : Items) (template : String) (need : Int) (id : Nat) : Int :=
  total ((drain Source.size need (p.sourceRows items template)).filter (fun q => q.1.row.id = id))

def Items.withdraw (items : Items) (gives : Nat → Int) : Items :=
  (items.update (fun r => gives r.id ≠ 0)
      (fun r => { r with stackSize := r.stackSize - gives r.id })).filter
    (fun r => gives r.id = 0 ∨ 0 < r.stackSize)

theorem mem_withdraw {items : Items} {gives : Nat → Int} {s : Item} :
    s ∈ items.withdraw gives ↔ ∃ r ∈ items, s ∈ r.less (gives r.id) := by
  unfold Items.withdraw
  rw [SerialTable.mem_filter, SerialTable.mem_update]
  simp only [decide_eq_true_eq]
  constructor
  · rintro ⟨⟨r, hr, hs⟩, hkeep⟩
    refine ⟨r, hr, ?_⟩
    by_cases hzero : gives r.id = 0
    · rw [if_neg (not_not.mpr hzero)] at hs
      rw [hs, hzero, Item.less_zero]
      rfl
    · rw [if_pos hzero] at hs
      subst hs
      have hpos : 0 < r.stackSize - gives r.id := hkeep.resolve_left hzero
      unfold Item.less
      rw [if_neg hzero, if_pos (by omega)]
      rfl
  · rintro ⟨r, hr, hs⟩
    have hid := Item.id_less hs
    unfold Item.less at hs
    split at hs
    · rename_i hzero
      cases hs
      exact ⟨⟨s, hr, (if_neg (not_not.mpr hzero)).symm⟩, Or.inl hzero⟩
    · rename_i hzero
      split at hs
      · rename_i hlt
        cases hs
        refine ⟨⟨r, hr, (if_pos hzero).symm⟩, Or.inr ?_⟩
        show 0 < r.stackSize - gives r.id
        omega
      · cases hs

theorem Items.Same.withdraw {items items' : Items} (h : items.Same items') (p : Pawn)
    (template : String) (need : Int) :
    (items.withdraw (p.gives items template need)).Same
      (items'.withdraw (p.gives items' template need)) := by
  have hgives : p.gives items template need = p.gives items' template need := by
    unfold Pawn.gives
    rw [h.sourceRows]
  intro s
  rw [mem_withdraw, mem_withdraw, hgives]
  exact exists_congr (fun r => and_congr_left' (h r))

section Gives

variable {items : Items} {ps : List (Source × Int)}

theorem gives_of_mem (h : Takes items ps) {q : Source × Int} (hq : q ∈ ps) :
    total (ps.filter (fun p => p.1.row.id = q.1.row.id)) = q.2 := by
  have hone : ps.filter (fun p => p.1.row.id = q.1.row.id) = [q] := by
    let rows : Table (Source × Int) (fun p => p.1.row.id) := ⟨ps, h.nodup⟩
    exact Table.filter_eq_singleton (t := rows) hq (decide_eq_true rfl)
      (fun p hp hid => Table.eq_of_key_eq (t := rows) hp hq (of_decide_eq_true hid))
  rw [hone, total_cons, total_nil, add_zero]

theorem gives_of_not_mem {id : Nat} (h : ∀ q ∈ ps, q.1.row.id ≠ id) :
    total (ps.filter (fun p => p.1.row.id = id)) = 0 := by
  have hnone : ps.filter (fun p => p.1.row.id = id) = [] := by
    apply List.filter_eq_nil_iff.mpr
    intro q hq
    rw [decide_eq_true_eq]
    exact h q hq
  rw [hnone, total_nil]

theorem takeAll_withdraw {delete : Items → Nat → Int → Items} (hdel : RemovesExactly delete)
    (items : Items) {p : Pawn} (hp : p.Distinct) (template : String) (need : Int) :
    (takeAll delete (drain Source.size need (p.sourceRows items template)) items).Same
      (items.withdraw (p.gives items template need)) := by
  have htakes : Takes items (drain Source.size need (p.sourceRows items template)) :=
    takes_drain hp need
  intro s
  rw [mem_takeAll hdel htakes, mem_withdraw]
  constructor
  · rintro (⟨hs, hall⟩ | ⟨q, hq, hs⟩)
    · refine ⟨s, hs, ?_⟩
      rw [Pawn.gives, gives_of_not_mem hall, Item.less_zero]
      rfl
    · refine ⟨q.1.row, htakes.mem q hq, ?_⟩
      rwa [Pawn.gives, gives_of_mem htakes hq]
  · rintro ⟨r, hr, hs⟩
    by_cases hvisited : ∃ q ∈ drain Source.size need (p.sourceRows items template),
        q.1.row.id = r.id
    · obtain ⟨q, hq, hqr⟩ := hvisited
      refine Or.inr ⟨q, hq, ?_⟩
      have hrow : q.1.row = r := SerialTable.eq_of_id_eq (htakes.mem q hq) hr hqr
      rw [Pawn.gives, ← hqr, gives_of_mem htakes hq] at hs
      rwa [hrow]
    · have hall := fun q hq hqr => hvisited ⟨q, hq, hqr⟩
      rw [Pawn.gives, gives_of_not_mem hall, Item.less_zero] at hs
      cases hs
      exact Or.inl ⟨hr, hall⟩

end Gives

section Blocks

variable {delete : Items → Nat → Int → Items} {p : Pawn} {items : Items} {template : String}
  {need : Int}

theorem sum_sortedRows (inv : Nat) (pri : Nat) :
    (((sortedRows items inv template).map (Source.mk pri)).map
      (fun s => s.row.stackSize)).sum = items.held inv template := by
  rw [List.map_map]
  exact ((List.perm_insertionSort _ _).map _).sum_eq

theorem sum_sourceRows :
    ((p.sourceRows items template).map (fun s => s.row.stackSize)).sum = p.held items template := by
  unfold Pawn.sourceRows Pawn.held
  rw [List.map_append, List.map_append, List.sum_append, List.sum_append, sum_sortedRows,
    sum_sortedRows]
  congr 1
  cases p.toolbar with
  | none => rfl
  | some inv => exact sum_sortedRows inv.id 2

theorem consumeBlock_eq (hneed : 0 ≤ need) (tag : Tag) :
    consumeBlock delete tag p template need items =
      if need ≤ p.held items template then
        .ok (Used.zero.addAll (drain Source.size need (p.sourceRows items template)),
          takeAll delete (drain Source.size need (p.sourceRows items template)) items)
      else .error (.insufficient tag (p.held items template) need) := by
  unfold consumeBlock
  simp only [consumeLoop_eq, sum_sourceRows]
  by_cases hle : need ≤ p.held items template
  · have htotal : total (drain Source.size need (p.sourceRows items template)) = need := by
      refine total_eq hneed ?_
      show need ≤ ((p.sourceRows items template).map (fun s => s.row.stackSize)).sum
      rwa [sum_sourceRows]
    rw [if_pos hle, require, if_pos hle, require, if_pos (by omega)]
    rfl
  · rw [if_neg hle, require, if_neg hle]
    rfl

theorem drained_of_held (hp : p.Distinct) (hneed : 0 ≤ need)
    (hhave : need ≤ p.held items template) :
    Drained p template need items
      (takeAll deleteInventoryItem (drain Source.size need (p.sourceRows items template)) items)
      (Used.zero.addAll (drain Source.size need (p.sourceRows items template))) := by
  refine drained_takeAll removesExactly_deleteInventoryItem hp (total_eq hneed ?_)
  show need ≤ ((p.sourceRows items template).map (fun s => s.row.stackSize)).sum
  rwa [sum_sourceRows]

theorem held_withdraw (hp : p.Distinct) (hneed : 0 ≤ need)
    (hhave : need ≤ p.held items template) (other : String) :
    p.held (items.withdraw (p.gives items template need)) other =
      p.held items other - if other = template then need else 0 := by
  have hsame := takeAll_withdraw removesExactly_deleteInventoryItem items hp template need
  have hdrained := drained_of_held hp hneed hhave
  unfold Pawn.held
  simp only [← hsame.held]
  by_cases hother : other = template
  · subst hother
    rw [if_pos rfl, hdrained.bank, hdrained.backpack]
    have hsplit := hdrained.split
    cases htool : p.toolbar with
    | none =>
      have hnone := hdrained.noToolbar htool
      dsimp only [Option.elim_none]
      omega
    | some inv =>
      have htoolbar := hdrained.toolbar inv htool
      dsimp only [Option.elim_some]
      omega
  · rw [if_neg hother, sub_zero]
    have hkept : ∀ inv, (takeAll deleteInventoryItem
        (drain Source.size need (p.sourceRows items template)) items).held inv other =
          items.held inv other := by
      intro inv
      rw [Items.held_eq, Items.held_eq]
      refine SerialTable.sum_eq_of_mem (fun r hr => hdrained.kept r (fun hin => ?_))
      refine hr (if_neg (fun h => hother ?_))
      exact h.2.symm.trans hin.2
    simp only [hkept]

end Blocks

/-! ## The room of a bank -/

def Item.spare (bank : Nat) (template : String) (maxStack : Int) (r : Item) : Int :=
  if r.inventoryId = some bank ∧ r.templateId = template ∧ r.qualityLevel = 0 then
    max 0 (maxStack - r.stackSize)
  else 0

def Items.spare (items : Items) (bank : Nat) (template : String) (maxStack : Int) : Int :=
  (items.rows.map (Item.spare bank template maxStack)).sum

def Items.gaps (items : Items) (bank : Nat) (cap : Int) : List Int :=
  ((List.range cap.toNat).map Int.ofNat).filter
    (fun i => (items.inventoryRows bank).all (fun r => r.positionIndex ≠ i))

/-- The units a bank can take, `none` without a slot cap. -/
def Items.room (items : Items) (bank : Inventory) (template : String) (maxStack : Int) :
    Option Int :=
  (bank.maxItemCount.filter (0 ≤ ·)).map
    (fun mic => items.spare bank.id template maxStack + (items.gaps bank.id mic).length * maxStack)

def Items.Fits (items : Items) (bank : Inventory) (template : String) (maxStack dust : Int) :
    Prop :=
  ∀ room ∈ items.room bank template maxStack, dust ≤ room

section Gaps

variable {items items' : Items} {bank : Nat} {cap slot : Int}

theorem mem_gaps : slot ∈ items.gaps bank cap ↔
    (0 ≤ slot ∧ slot < cap) ∧
      ∀ r ∈ items, r.inventoryId = some bank → r.positionIndex ≠ slot := by
  unfold Items.gaps
  rw [List.mem_filter, List.all_eq_true, List.mem_map]
  refine and_congr ?_ ?_
  · constructor
    · rintro ⟨n, hn, rfl⟩
      have hlt := List.mem_range.mp hn
      rw [Int.ofNat_eq_natCast]
      omega
    · rintro ⟨h0, hlt⟩
      refine ⟨slot.toNat, List.mem_range.mpr (by omega), ?_⟩
      rw [Int.ofNat_eq_natCast]
      omega
  · constructor
    · intro h r hr hinv
      exact of_decide_eq_true (h r (mem_inventoryRows.mpr ⟨hr, hinv⟩))
    · intro h r hr
      obtain ⟨hr, hinv⟩ := mem_inventoryRows.mp hr
      exact decide_eq_true (h r hr hinv)

theorem nodup_gaps : (items.gaps bank cap).Nodup := by
  refine (List.Nodup.map (fun m n h => ?_) List.nodup_range).filter _
  exact Int.ofNat.inj h

theorem length_gaps_congr
    (h : ∀ i, (∀ r ∈ items, r.inventoryId = some bank → r.positionIndex ≠ i) ↔
      ∀ r ∈ items', r.inventoryId = some bank → r.positionIndex ≠ i) :
    (items.gaps bank cap).length = (items'.gaps bank cap).length := by
  refine ((List.perm_ext_iff_of_nodup nodup_gaps nodup_gaps).mpr (fun i => ?_)).length_eq
  rw [mem_gaps, mem_gaps, h i]

theorem length_gaps_of_rows {r : Item} (hrows : items'.rows = r :: items.rows)
    (hinv : r.inventoryId = some bank) (hgap : r.positionIndex ∈ items.gaps bank cap) :
    (items.gaps bank cap).length = (items'.gaps bank cap).length + 1 := by
  have hperm : (items.gaps bank cap).Perm (r.positionIndex :: items'.gaps bank cap) := by
    refine (List.perm_ext_iff_of_nodup nodup_gaps (List.nodup_cons.mpr ⟨?_, nodup_gaps⟩)).mpr
      (fun i => ?_)
    · intro hmem
      have hself : r ∈ items' := by
        rw [SerialTable.mem_def, hrows]
        exact List.mem_cons_self ..
      exact (mem_gaps.mp hmem).2 r hself hinv rfl
    · rw [List.mem_cons, mem_gaps, mem_gaps]
      constructor
      · rintro ⟨hrange, hfree⟩
        by_cases hi : i = r.positionIndex
        · exact Or.inl hi
        · refine Or.inr ⟨hrange, fun s hs hsinv => ?_⟩
          rcases (SerialTable.mem_of_rows hrows).mp hs with rfl | hs
          · exact Ne.symm hi
          · exact hfree s hs hsinv
      · rintro (rfl | ⟨hrange, hfree⟩)
        · exact mem_gaps.mp hgap
        · exact ⟨hrange, fun s hs => hfree s ((SerialTable.mem_of_rows hrows).mpr (Or.inr hs))⟩
  exact hperm.length_eq

theorem firstGap_mem (h : firstGap items bank cap = some slot) : slot ∈ items.gaps bank cap := by
  obtain ⟨hfree, hrange⟩ := firstGap_spec h
  exact mem_gaps.mpr ⟨hrange, hfree⟩

theorem firstGap_none (h : firstGap items bank cap = none) : items.gaps bank cap = [] := by
  refine List.filter_eq_nil_iff.mpr (fun i hi => ?_)
  exact List.find?_eq_none.mp h i hi

end Gaps

theorem Items.Same.fits {items items' : Items} (h : items.Same items') (bank : Inventory)
    (template : String) (maxStack dust : Int) :
    items.Fits bank template maxStack dust ↔ items'.Fits bank template maxStack dust := by
  have hgaps : ∀ mic, (items.gaps bank.id mic).length = (items'.gaps bank.id mic).length := by
    refine fun mic => length_gaps_congr (fun i => ?_)
    exact forall_congr' (fun r => imp_congr_left (h r))
  unfold Items.Fits Items.room Items.spare
  simp only [h.sum, hgaps]

section Fits

variable {items items' : Items} {bank : Inventory} {template stats : String}
  {maxStack : Int} {m m' : MintState}

theorem fits_unlimited (hmic : bank.maxItemCount.filter (0 ≤ ·) = none) (dust : Int) :
    items.Fits bank template maxStack dust := by
  unfold Items.Fits Items.room
  rw [hmic]
  exact fun room hroom => by cases hroom

theorem fits_capped {mic : Int} (hmic : bank.maxItemCount = some mic) (h0 : 0 ≤ mic) (dust : Int) :
    items.Fits bank template maxStack dust ↔
      dust ≤ items.spare bank.id template maxStack +
        (items.gaps bank.id mic).length * maxStack := by
  have hfilter : bank.maxItemCount.filter (0 ≤ ·) = some mic := by
    rw [hmic]
    exact Option.filter_some_pos (decide_eq_true h0)
  unfold Items.Fits Items.room
  rw [hfilter]
  exact ⟨fun h => h _ rfl, fun h room hroom => by cases hroom; exact h⟩

theorem spare_nonneg (inv : Nat) : 0 ≤ items.spare inv template maxStack := by
  refine List.sum_nonneg (fun n hn => ?_)
  obtain ⟨r, -, rfl⟩ := List.mem_map.mp hn
  unfold Item.spare
  split
  · exact le_max_left ..
  · exact le_rfl

theorem fits_zero (hmax : 0 < maxStack) : items.Fits bank template maxStack 0 := by
  intro room hroom
  obtain ⟨mic, -, rfl⟩ := Option.map_eq_some_iff.mp hroom
  exact Int.add_nonneg (spare_nonneg _) (Int.mul_nonneg (Int.natCast_nonneg _) hmax.le)

theorem spare_of_closed {inv : Nat} (h : openStack items inv template maxStack = none) :
    items.spare inv template maxStack = 0 := by
  have hnone := pick_eq_none.mp h
  rw [List.filter_eq_nil_iff] at hnone
  refine List.sum_eq_zero (fun n hn => ?_)
  obtain ⟨r, hr, rfl⟩ := List.mem_map.mp hn
  unfold Item.spare
  split
  · rename_i hin
    have hclosed := hnone r (Items.mem_rowsOf.mpr ⟨hr, hin.1, hin.2.1⟩)
    rw [decide_eq_true_eq] at hclosed
    have hge : ¬ r.stackSize < maxStack := fun hlt => hclosed ⟨hin.2.2, hlt⟩
    omega
  · rfl

theorem fits_merge {r : Item} {n left : Int}
    (hr : openStack items bank.id template maxStack = some r) (hmax : r.stackSize + n ≤ maxStack) :
    Items.Fits (items.update (fun q => q.id = r.id)
        (fun q => { q with stackSize := q.stackSize + n })) bank template maxStack (left - n) ↔
      items.Fits bank template maxStack left := by
  cases hmic : bank.maxItemCount.filter (0 ≤ ·) with
  | none => exact iff_of_true (fits_unlimited hmic _) (fits_unlimited hmic _)
  | some mic =>
    obtain ⟨hmic, h0⟩ := Option.filter_eq_some_iff.mp hmic
    rw [decide_eq_true_eq] at h0
    have hrow := List.mem_filter.mp (pick_mem hr)
    rw [decide_eq_true_eq] at hrow
    obtain ⟨hmem, hinv, htemplate⟩ := Items.mem_rowsOf.mp hrow.1
    have hrows : ∀ s, s ∈ items.update (fun q => q.id = r.id)
        (fun q => { q with stackSize := q.stackSize + n }) ↔
          s ∈ items ∧ s.id ≠ r.id ∨ s ∈ some { r with stackSize := r.stackSize + n } := by
      intro s
      rw [SerialTable.mem_update_id hmem, or_comm, Option.mem_some_iff, eq_comm (a := s)]
    have hswap := SerialTable.sum_swap hmem (fun s hs => by cases hs; rfl) hrows
      (Item.spare bank.id template maxStack)
    have hold : r.spare bank.id template maxStack = maxStack - r.stackSize :=
      (if_pos ⟨hinv, htemplate, hrow.2.1⟩).trans (max_eq_right (by omega))
    have hnew : Item.spare bank.id template maxStack { r with stackSize := r.stackSize + n } =
        maxStack - (r.stackSize + n) :=
      (if_pos ⟨hinv, htemplate, hrow.2.1⟩).trans (max_eq_right (by dsimp only; omega))
    have hgaps : (items.gaps bank.id mic).length = (Items.gaps (items.update (fun q => q.id = r.id)
        (fun q => { q with stackSize := q.stackSize + n })) bank.id mic).length := by
      refine length_gaps_congr (fun i => ⟨fun h s hs hsinv => ?_, fun h s hs hsinv => ?_⟩)
      · rcases (hrows s).mp hs with ⟨hs, -⟩ | hs
        · exact h s hs hsinv
        · cases hs
          exact h r hmem hinv
      · by_cases hid : s.id = r.id
        · have hsr : s = r := SerialTable.eq_of_id_eq hs hmem hid
          subst hsr
          exact h { s with stackSize := s.stackSize + n } ((hrows _).mpr (Or.inr rfl)) hsinv
        · exact h s ((hrows s).mpr (Or.inl ⟨hs, hid⟩)) hsinv
    rw [fits_capped hmic h0, fits_capped hmic h0, ← hgaps]
    rw [Option.elim_some, hold, hnew] at hswap
    unfold Items.spare
    omega

theorem fits_insert {r : Item} {left : Int} (hrows : items'.rows = r :: items.rows)
    (hinv : r.inventoryId = some bank.id) (htemplate : r.templateId = template)
    (hquality : r.qualityLevel = 0) (hmax : r.stackSize ≤ maxStack)
    (hgap : ∀ mic, bank.maxItemCount = some mic → 0 ≤ mic →
      r.positionIndex ∈ items.gaps bank.id mic) :
    items'.Fits bank template maxStack (left - r.stackSize) ↔
      items.Fits bank template maxStack left := by
  cases hmic : bank.maxItemCount.filter (0 ≤ ·) with
  | none => exact iff_of_true (fits_unlimited hmic _) (fits_unlimited hmic _)
  | some mic =>
    obtain ⟨hmic, h0⟩ := Option.filter_eq_some_iff.mp hmic
    rw [decide_eq_true_eq] at h0
    have hspare : items'.spare bank.id template maxStack =
        maxStack - r.stackSize + items.spare bank.id template maxStack := by
      have hr : r.spare bank.id template maxStack = maxStack - r.stackSize :=
        (if_pos ⟨hinv, htemplate, hquality⟩).trans (max_eq_right (by omega))
      unfold Items.spare
      rw [hrows, List.map_cons, List.sum_cons, hr]
    have hgaps := length_gaps_of_rows hrows hinv (hgap mic hmic h0)
    rw [fits_capped hmic h0, fits_capped hmic h0, hspare, hgaps, Nat.cast_succ, add_mul, one_mul]
    omega

theorem freeSlot_error_gaps {e : Refusal} (h : freeSlot items bank = .error e) :
    ∃ mic why, bank.maxItemCount = some mic ∧ 0 ≤ mic ∧ items.gaps bank.id mic = [] ∧
      e = .noSpace why := by
  unfold freeSlot at h
  cases hmic : bank.maxItemCount with
  | none =>
    rw [hmic] at h
    cases h
  | some mic =>
    rw [hmic] at h
    dsimp only at h
    split at h
    · rename_i hzero
      cases h
      exact ⟨mic, _, rfl, by omega, by rw [hzero]; rfl, rfl⟩
    · split at h
      · cases h
      · cases hgap : firstGap items bank.id mic with
        | none =>
          rw [hgap] at h
          cases h
          exact ⟨mic, _, rfl, by omega, firstGap_none hgap, rfl⟩
        | some slot =>
          rw [hgap] at h
          cases h

theorem freeSlot_mem_gaps {slot mic : Int} (h : freeSlot items bank = .ok slot)
    (hmic : bank.maxItemCount = some mic) (h0 : 0 ≤ mic) : slot ∈ items.gaps bank.id mic := by
  unfold freeSlot at h
  rw [hmic] at h
  dsimp only at h
  split at h
  · cases h
  · rw [if_neg (by omega)] at h
    exact firstGap_mem (orRaise_eq_ok.mp h)

theorem insert?_isSome (items : Items) (mk : Nat → Item) (hid : ∀ n, (mk n).id = n) :
    ∃ items', items.insert? mk hid = some items' := by
  cases hins : items.insert? mk hid with
  | some items' => exact ⟨items', rfl⟩
  | none =>
    obtain ⟨s, hs, hkey⟩ := SerialTable.insert?_eq_none.mp hins
    have hlt := SerialTable.id_lt_next hs
    rw [hid] at hkey
    omega

theorem mintPass_room (bank : Inventory) (template stats : String) (hmax : 0 < maxStack)
    (hleft : 0 < m.left) :
    (∃ m', mintPass bank template stats maxStack m = .ok m' ∧ 0 ≤ m'.left ∧ m'.left < m.left ∧
        (m'.items.Fits bank template maxStack m'.left ↔
          m.items.Fits bank template maxStack m.left)) ∨
      ∃ why, mintPass bank template stats maxStack m = .error (.noSpace why) ∧
        ¬ m.items.Fits bank template maxStack m.left := by
  unfold mintPass
  cases hopen : openStack m.items bank.id template maxStack with
  | some r =>
    have hlt := (openStack_spec hopen).2.2.2
    refine Or.inl ⟨_, rfl, ?_, ?_, fits_merge hopen (by omega)⟩
    · show 0 ≤ m.left - min (maxStack - r.stackSize) m.left
      omega
    · show m.left - min (maxStack - r.stackSize) m.left < m.left
      omega
  | none =>
    cases hslot : freeSlot m.items bank with
    | error e =>
      obtain ⟨mic, why, hmic, h0, hgaps, rfl⟩ := freeSlot_error_gaps hslot
      refine Or.inr ⟨why, rfl, ?_⟩
      rw [fits_capped hmic h0, hgaps, spare_of_closed hopen, List.length_nil]
      omega
    | ok slot =>
      obtain ⟨items', hins⟩ := insert?_isSome m.items (fun id =>
        { id, inventoryId := some bank.id, stackSize := min maxStack m.left,
          positionIndex := slot, templateId := template, stats, qualityLevel := 0,
          acquisitionTime := 0, isNew := true, volumeOverride := none }) (fun _ => rfl)
      refine Or.inl ⟨⟨items', m.left - min maxStack m.left, m.minted + min maxStack m.left,
        m.stackRows ++ [⟨m.items.next, slot, min maxStack m.left, false⟩]⟩, ?_, ?_, ?_, ?_⟩
      · dsimp only [bind, Except.bind]
        rw [hins]
        rfl
      · show 0 ≤ m.left - min maxStack m.left
        omega
      · show m.left - min maxStack m.left < m.left
        omega
      · exact fits_insert (SerialTable.rows_insert? hins).1 rfl rfl rfl (min_le_left ..)
          (fun mic => freeSlot_mem_gaps hslot)

theorem mintLoop_room (hmax : 0 < maxStack) {fuel : Nat} (hleft : 0 ≤ m.left)
    (hfuel : m.left ≤ fuel) :
    (m.items.Fits bank template maxStack m.left ∧
        ∃ m', mintLoop bank template stats maxStack fuel m = .ok m') ∨
      ¬ m.items.Fits bank template maxStack m.left ∧
        ∃ why, mintLoop bank template stats maxStack fuel m = .error (.noSpace why) := by
  have hdone : m.left = 0 → m.items.Fits bank template maxStack m.left := by
    intro hzero
    rw [hzero]
    exact fits_zero hmax
  induction fuel generalizing m with
  | zero =>
    have hzero : m.left = 0 := by omega
    refine Or.inl ⟨hdone hzero, m, ?_⟩
    unfold mintLoop
    rw [if_neg (by omega)]
  | succ fuel ih =>
    unfold mintLoop
    by_cases hpos : 0 < m.left
    · rw [if_pos hpos]
      rcases mintPass_room bank template stats hmax hpos with
        ⟨m₁, hpass, h0, hless, hfits⟩ | ⟨why, hpass, hfull⟩
      · rw [hpass, ← hfits]
        refine ih h0 (by omega) (fun hzero => ?_)
        rw [hzero]
        exact fits_zero hmax
      · rw [hpass]
        exact Or.inr ⟨hfull, why, rfl⟩
    · rw [if_neg hpos]
      exact Or.inl ⟨hdone (by omega), m, rfl⟩

/-- The mint goes through when the dust fits, and says `no_space` when it does not. -/
theorem mint_room (items : Items) (bank : Inventory) (template : String) (hmax : 0 < maxStack)
    (dust : Nat) :
    (items.Fits bank template maxStack dust ∧
        ∃ m, mint bank template maxStack dust items = .ok m) ∨
      ¬ items.Fits bank template maxStack dust ∧
        ∃ why, mint bank template maxStack dust items = .error (.noSpace why) := by
  refine mintLoop_room (m := ⟨items, dust, 0, []⟩) hmax (Int.natCast_nonneg _) ?_
  show (dust : Int) ≤ (dust + 2 : Nat)
  omega

end Fits

end LastSietch.Refinery
