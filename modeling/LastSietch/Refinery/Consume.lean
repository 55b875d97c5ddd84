import Mathlib.Data.List.Sort
import LastSietch.Lib.Drain
import LastSietch.Refinery.Tables

/-!
# Consuming ingots and Melange

`consumeBlock` is one consume half: it gathers the rows of a template from bank, backpack and
toolbar, and walks them with the engine's `delete_inventory_item`, which is a parameter here.
All that is assumed of it is `RemovesExactly`.

* `consumeLoop_eq`: the walk takes what `Drain.drain` says.
* `mem_takeAll` and `held_takeAll`: the rows and the sums that such takes leave.
* `consumeBlock_drained`: a consume half that does not raise has taken exactly what was needed,
  from the bank first and from the toolbar last, and nothing else.
-/

namespace LastSietch.Refinery

open Drain

/-- What is left of a row from which `n` units are taken. -/
def Item.less (r : Item) (n : Int) : Option Item :=
  if n = 0 then some r
  else if n < r.stackSize then some { r with stackSize := r.stackSize - n }
  else none

/-- `delete_inventory_item(id, n)` takes `n` units off the row, which goes when none is left. -/
def RemovesExactly (delete : Items → Nat → Int → Items) : Prop :=
  ∀ items : Items, ∀ r ∈ items, ∀ n : Int, 0 < n → n ≤ r.stackSize →
    ∀ s, s ∈ delete items r.id n ↔ s ∈ items ∧ s.id ≠ r.id ∨ s ∈ r.less n

def deleteInventoryItem (items : Items) (id : Nat) (n : Int) : Items :=
  (items.update (fun r => r.id = id) (fun r => { r with stackSize := r.stackSize - n })).filter
    (fun r => ¬ (r.id = id ∧ r.stackSize ≤ 0))

theorem mem_less {r s : Item} {n : Int} (hn : 0 < n) :
    s ∈ r.less n ↔ n < r.stackSize ∧ s = { r with stackSize := r.stackSize - n } := by
  unfold Item.less
  rw [if_neg (by omega)]
  split
  · rename_i hlt
    rw [Option.mem_def, Option.some.injEq]
    exact ⟨fun h => ⟨hlt, h.symm⟩, fun h => h.2.symm⟩
  · rename_i hge
    constructor
    · intro h
      cases h
    · exact fun h => absurd h.1 hge

theorem removesExactly_deleteInventoryItem : RemovesExactly deleteInventoryItem := by
  intro items r hr n hn hle s
  unfold deleteInventoryItem
  rw [SerialTable.mem_filter, SerialTable.mem_update_id hr, decide_eq_true_eq, mem_less hn]
  constructor
  · rintro ⟨rfl | ⟨hs, hid⟩, hkeep⟩
    · refine Or.inr ⟨?_, rfl⟩
      have hpos : ¬ r.stackSize - n ≤ 0 := fun h => hkeep ⟨rfl, h⟩
      omega
    · exact Or.inl ⟨hs, hid⟩
  · rintro (⟨hs, hid⟩ | ⟨hlt, rfl⟩)
    · exact ⟨Or.inr ⟨hs, hid⟩, fun h => hid h.1⟩
    · refine ⟨Or.inl rfl, fun h => ?_⟩
      have hle0 : r.stackSize - n ≤ 0 := h.2
      omega

structure Pawn where
  bank : Inventory
  backpack : Inventory
  toolbar : Option Inventory
  deriving DecidableEq

/-- A row of the walk: its entries of `v_ids`, `v_stacks` and `v_pris`. -/
structure Source where
  pri : Nat
  row : Item
  deriving DecidableEq

def sortedRows (items : Items) (inv : Nat) (template : String) : List Item :=
  (items.rowsOf inv template).insertionSort (fun r s => r.id ≤ s.id)

/-- `ORDER BY t.pri, t.id`: one source after the other, each by id. -/
def Pawn.sourceRows (p : Pawn) (items : Items) (template : String) : List Source :=
  (sortedRows items p.bank.id template).map (Source.mk 0) ++
    (sortedRows items p.backpack.id template).map (Source.mk 1) ++
      p.toolbar.elim [] (fun inv => (sortedRows items inv.id template).map (Source.mk 2))

def Used.zero : Used := ⟨0, 0, 0, 0⟩

def Used.add (u : Used) (pri : Nat) (take : Int) : Used :=
  if pri = 0 then { u with units := u.units + take, bank := u.bank + take }
  else if pri = 1 then { u with units := u.units + take, backpack := u.backpack + take }
  else { u with units := u.units + take, toolbar := u.toolbar + take }

def consumeLoop (delete : Items → Nat → Int → Items) :
    List Source → Int → Used → Items → Used × Int × Items
  | [], remaining, used, items => (used, remaining, items)
  | s :: rest, remaining, used, items =>
    if remaining ≤ 0 then (used, remaining, items)
    else
      let take := min s.row.stackSize remaining
      if 0 < take then
        consumeLoop delete rest (remaining - take) (used.add s.pri take)
          (delete items s.row.id take)
      else consumeLoop delete rest remaining used items

def consumeBlock (delete : Items → Nat → Int → Items) (tag : Tag) (p : Pawn)
    (template : String) (need : Int) (items : Items) : Except Refusal (Used × Items) := do
  let rows := p.sourceRows items template
  let avail := (rows.map (fun s => s.row.stackSize)).sum
  require (need ≤ avail) (.insufficient tag avail need)
  let walk := consumeLoop delete rows need Used.zero items
  require (walk.2.1 ≤ 0) (.shortBy tag walk.2.1)
  pure (walk.1, walk.2.2)

/-! ## The walk takes what `drain` says -/

def Source.size (s : Source) : Int := s.row.stackSize

def takeAll (delete : Items → Nat → Int → Items) : List (Source × Int) → Items → Items
  | [], items => items
  | p :: ps, items =>
    takeAll delete ps (if 0 < p.2 then delete items p.1.row.id p.2 else items)

def Used.addAll (u : Used) : List (Source × Int) → Used
  | [] => u
  | p :: ps => (u.add p.1.pri p.2).addAll ps

theorem Used.add_zero (u : Used) (pri : Nat) : u.add pri 0 = u := by
  unfold Used.add
  split
  · simp
  · split <;> simp

section Nothing

variable {ps : List (Source × Int)} (h : ∀ p ∈ ps, p.2 = 0)
include h

theorem takeAll_nothing (delete : Items → Nat → Int → Items) (items : Items) :
    takeAll delete ps items = items := by
  induction ps generalizing items with
  | nil => rfl
  | cons p ps ih =>
    have hp : p.2 = 0 := h p (List.mem_cons_self ..)
    rw [takeAll, hp, if_neg (lt_irrefl 0)]
    exact ih (fun q hq => h q (List.mem_cons_of_mem p hq)) items

theorem addAll_nothing (u : Used) : u.addAll ps = u := by
  induction ps generalizing u with
  | nil => rfl
  | cons p ps ih =>
    have hp : p.2 = 0 := h p (List.mem_cons_self ..)
    rw [Used.addAll, hp, Used.add_zero]
    exact ih (fun q hq => h q (List.mem_cons_of_mem p hq)) u

theorem total_nothing : total ps = 0 := by
  induction ps with
  | nil => rfl
  | cons p ps ih =>
    have hp : p.2 = 0 := h p (List.mem_cons_self ..)
    have hrest := ih (fun q hq => h q (List.mem_cons_of_mem p hq))
    rw [total_cons]
    omega

end Nothing

theorem consumeLoop_eq (delete : Items → Nat → Int → Items) (rows : List Source)
    (remaining : Int) (used : Used) (items : Items) :
    consumeLoop delete rows remaining used items =
      (used.addAll (drain Source.size remaining rows),
        remaining - total (drain Source.size remaining rows),
        takeAll delete (drain Source.size remaining rows) items) := by
  induction rows generalizing remaining used items with
  | nil => simp [consumeLoop, drain, Used.addAll, takeAll]
  | cons s rest ih =>
    by_cases hrem : remaining ≤ 0
    · -- the walk is over, and so is the draining
      have hnone : ∀ p ∈ drain Source.size remaining (s :: rest), p.2 = 0 :=
        fun p hp => of_nonpos hrem hp
      rw [consumeLoop, if_pos hrem, addAll_nothing hnone, total_nothing hnone,
        takeAll_nothing hnone, sub_zero]
    · rw [consumeLoop, if_neg hrem]
      dsimp only
      by_cases htake : 0 < min s.row.stackSize remaining
      · have hmax : max 0 (min s.size remaining) = min s.row.stackSize remaining :=
          max_eq_right htake.le
        rw [if_pos htake, ih, drain, hmax, Used.addAll, total_cons, takeAll, if_pos htake,
          sub_sub]
      · have hmax : max 0 (min s.size remaining) = 0 := max_eq_left (not_lt.mp htake)
        rw [if_neg htake, ih, drain, hmax, sub_zero, Used.addAll, Used.add_zero, total_cons,
          zero_add, takeAll, if_neg (lt_irrefl 0)]

/-! ## What the takes leave -/

section Takes

theorem Item.id_less {r s : Item} {n : Int} (h : s ∈ r.less n) : s.id = r.id := by
  unfold Item.less at h
  split at h
  · cases h
    rfl
  · split at h
    · cases h
      rfl
    · cases h

theorem Item.less_zero (r : Item) : r.less 0 = some r := if_pos rfl

variable {delete : Items → Nat → Int → Items} (hdel : RemovesExactly delete)
  {items : Items} {ps : List (Source × Int)}

structure Takes (items : Items) (ps : List (Source × Int)) : Prop where
  mem : ∀ p ∈ ps, p.1.row ∈ items
  bounds : ∀ p ∈ ps, 0 ≤ p.2 ∧ p.2 ≤ max 0 p.1.row.stackSize
  nodup : (ps.map (fun p => p.1.row.id)).Nodup

theorem Takes.fresh {p q : Source × Int} (h : Takes items (p :: ps)) (hq : q ∈ ps) :
    q.1.row.id ≠ p.1.row.id := by
  have hnd := h.nodup
  rw [List.map_cons, List.nodup_cons] at hnd
  intro hid
  exact hnd.1 (List.mem_map.mpr ⟨q, hq, hid⟩)

include hdel in
theorem mem_delete {p : Source × Int} (h : Takes items (p :: ps)) {s : Item} :
    s ∈ (if 0 < p.2 then delete items p.1.row.id p.2 else items) ↔
      s ∈ items ∧ s.id ≠ p.1.row.id ∨ s ∈ p.1.row.less p.2 := by
  have hmem := h.mem p (List.mem_cons_self ..)
  have hbounds := h.bounds p (List.mem_cons_self ..)
  by_cases hpos : 0 < p.2
  · rw [if_pos hpos]
    exact hdel items p.1.row hmem p.2 hpos (by omega) s
  · have hzero : p.2 = 0 := by omega
    rw [if_neg hpos, hzero, Item.less_zero]
    constructor
    · intro hs
      by_cases hid : s.id = p.1.row.id
      · exact Or.inr (congrArg some (SerialTable.eq_of_id_eq hmem hs hid.symm))
      · exact Or.inl ⟨hs, hid⟩
    · rintro (⟨hs, -⟩ | hs)
      · exact hs
      · cases hs
        exact hmem

include hdel in
theorem Takes.tail {p : Source × Int} (h : Takes items (p :: ps)) :
    Takes (if 0 < p.2 then delete items p.1.row.id p.2 else items) ps where
  mem q hq :=
    (mem_delete hdel h).mpr (Or.inl ⟨h.mem q (List.mem_cons_of_mem p hq), h.fresh hq⟩)
  bounds q hq := h.bounds q (List.mem_cons_of_mem p hq)
  nodup := by
    have hnd := h.nodup
    rw [List.map_cons, List.nodup_cons] at hnd
    exact hnd.2

include hdel in
theorem mem_takeAll (h : Takes items ps) {s : Item} :
    s ∈ takeAll delete ps items ↔
      (s ∈ items ∧ ∀ p ∈ ps, p.1.row.id ≠ s.id) ∨ ∃ p ∈ ps, s ∈ p.1.row.less p.2 := by
  induction ps generalizing items with
  | nil => simp [takeAll]
  | cons p ps ih =>
    rw [takeAll, ih (h.tail hdel), mem_delete hdel h]
    constructor
    · rintro (⟨⟨hs, hid⟩ | hs, hall⟩ | ⟨q, hq, hs⟩)
      · refine Or.inl ⟨hs, fun q hq => ?_⟩
        rcases List.mem_cons.mp hq with rfl | hq
        · exact Ne.symm hid
        · exact hall q hq
      · exact Or.inr ⟨p, List.mem_cons_self .., hs⟩
      · exact Or.inr ⟨q, List.mem_cons_of_mem p hq, hs⟩
    · rintro (⟨hs, hall⟩ | ⟨q, hq, hs⟩)
      · have hid := hall p (List.mem_cons_self ..)
        exact Or.inl ⟨Or.inl ⟨hs, Ne.symm hid⟩, fun q hq => hall q (List.mem_cons_of_mem p hq)⟩
      · rcases List.mem_cons.mp hq with rfl | hq
        · refine Or.inl ⟨Or.inr hs, fun q' hq' => ?_⟩
          rw [Item.id_less hs]
          exact h.fresh hq'
        · exact Or.inr ⟨q, hq, hs⟩

def drawn (ps : List (Source × Int)) (inv : Nat) (template : String) : Int :=
  (ps.map (fun p =>
    if p.1.row.inventoryId = some inv ∧ p.1.row.templateId = template then p.2 else 0)).sum

theorem Item.units_less {r : Item} {n : Int} (hn : 0 ≤ n ∧ n ≤ max 0 r.stackSize) (inv : Nat)
    (template : String) :
    (r.less n).elim 0 (Item.unitsIn inv template) = r.unitsIn inv template -
      if r.inventoryId = some inv ∧ r.templateId = template then n else 0 := by
  unfold Item.less Item.unitsIn
  by_cases hzero : n = 0
  · simp [hzero]
  · rw [if_neg hzero]
    by_cases hlt : n < r.stackSize
    · rw [if_pos hlt]
      dsimp only [Option.elim_some]
      split <;> omega
    · rw [if_neg hlt]
      dsimp only [Option.elim_none]
      split <;> omega

include hdel in
theorem held_takeAll (h : Takes items ps) (inv : Nat) (template : String) :
    (takeAll delete ps items).held inv template =
      items.held inv template - drawn ps inv template := by
  induction ps generalizing items with
  | nil => simp [takeAll, drawn]
  | cons p ps ih =>
    have hmem := h.mem p (List.mem_cons_self ..)
    have hless := Item.units_less (h.bounds p (List.mem_cons_self ..)) inv template
    have hswap := SerialTable.sum_swap hmem (fun s hs => Item.id_less hs)
      (fun s => mem_delete hdel h) (Item.unitsIn inv template)
    have hcons : drawn (p :: ps) inv template =
        (if p.1.row.inventoryId = some inv ∧ p.1.row.templateId = template then p.2 else 0) +
          drawn ps inv template := by
      rw [drawn, List.map_cons, List.sum_cons, drawn]
    rw [takeAll, ih (h.tail hdel), Items.held_eq, Items.held_eq, hcons]
    omega

end Takes

/-! ## The three sources -/

structure Pawn.Distinct (p : Pawn) : Prop where
  backpack : p.backpack.id ≠ p.bank.id
  toolbar : ∀ inv ∈ p.toolbar, inv.id ≠ p.bank.id ∧ inv.id ≠ p.backpack.id

def Pawn.Holds (p : Pawn) (inv : Option Nat) : Prop :=
  inv = some p.bank.id ∨ inv = some p.backpack.id ∨ ∃ t ∈ p.toolbar, inv = some t.id

def Segment (pri inv : Nat) (template : String) (ps : List (Source × Int)) : Prop :=
  ∀ p ∈ ps, p.1.pri = pri ∧ p.1.row.inventoryId = some inv ∧ p.1.row.templateId = template

section Segments

variable {items : Items} {template : String} {pri inv inv' : Nat} {need : Int}
  {ps qs : List (Source × Int)}

theorem mem_sortedRows {r : Item} :
    r ∈ sortedRows items inv template ↔
      r ∈ items ∧ r.inventoryId = some inv ∧ r.templateId = template := by
  unfold sortedRows
  rw [List.mem_insertionSort]
  exact Items.mem_rowsOf

theorem segment_drain :
    Segment pri inv template
      (drain Source.size need ((sortedRows items inv template).map (Source.mk pri))) := by
  intro p hp
  obtain ⟨r, hr, hrp⟩ := List.mem_map.mp (fst_mem hp)
  obtain ⟨-, hinv, htemplate⟩ := mem_sortedRows.mp hr
  rw [← hrp]
  exact ⟨rfl, hinv, htemplate⟩

theorem drawn_append :
    drawn (ps ++ qs) inv template = drawn ps inv template + drawn qs inv template := by
  simp [drawn]

theorem drawn_segment (h : Segment pri inv template ps) : drawn ps inv template = total ps := by
  unfold drawn total
  congr 1
  apply List.map_congr_left
  intro p hp
  exact if_pos (h p hp).2

theorem drawn_other (h : Segment pri inv template ps) (hne : inv ≠ inv') :
    drawn ps inv' template = 0 := by
  apply List.sum_eq_zero
  intro n hn
  obtain ⟨p, hp, rfl⟩ := List.mem_map.mp hn
  refine if_neg (fun hin => hne ?_)
  have heq := (h p hp).2.1.symm.trans hin.1
  exact Option.some.inj heq

theorem Used.add_add (u : Used) (pri : Nat) (m n : Int) :
    (u.add pri m).add pri n = u.add pri (m + n) := by
  unfold Used.add
  split
  · simp [add_assoc]
  · split <;> simp [add_assoc]

theorem Used.addAll_append (u : Used) : u.addAll (ps ++ qs) = (u.addAll ps).addAll qs := by
  induction ps generalizing u with
  | nil => rfl
  | cons p ps ih => exact ih (u.add p.1.pri p.2)

theorem Used.addAll_segment (u : Used) (h : Segment pri inv template ps) :
    u.addAll ps = u.add pri (total ps) := by
  induction ps generalizing u with
  | nil => rw [Used.addAll, total_nil, Used.add_zero]
  | cons p ps ih =>
    have hp := (h p (List.mem_cons_self ..)).1
    rw [Used.addAll, ih _ (fun q hq => h q (List.mem_cons_of_mem p hq)), hp, Used.add_add,
      total_cons]

end Segments

section Sources

variable {p : Pawn} {items : Items} {template : String}

theorem mem_sourceRows {s : Source} (hs : s ∈ p.sourceRows items template) :
    s.row ∈ items ∧ s.row.templateId = template ∧
      (s.pri = 0 ∧ s.row.inventoryId = some p.bank.id ∨
        s.pri = 1 ∧ s.row.inventoryId = some p.backpack.id ∨
        s.pri = 2 ∧ ∃ t ∈ p.toolbar, s.row.inventoryId = some t.id) := by
  unfold Pawn.sourceRows at hs
  rcases List.mem_append.mp hs with hs | hs
  · rcases List.mem_append.mp hs with hs | hs
    · obtain ⟨r, hr, rfl⟩ := List.mem_map.mp hs
      obtain ⟨hmem, hinv, htemplate⟩ := mem_sortedRows.mp hr
      exact ⟨hmem, htemplate, Or.inl ⟨rfl, hinv⟩⟩
    · obtain ⟨r, hr, rfl⟩ := List.mem_map.mp hs
      obtain ⟨hmem, hinv, htemplate⟩ := mem_sortedRows.mp hr
      exact ⟨hmem, htemplate, Or.inr (Or.inl ⟨rfl, hinv⟩)⟩
  · cases htool : p.toolbar with
    | none =>
      rw [htool] at hs
      cases hs
    | some t =>
      rw [htool] at hs
      obtain ⟨r, hr, rfl⟩ := List.mem_map.mp hs
      obtain ⟨hmem, hinv, htemplate⟩ := mem_sortedRows.mp hr
      exact ⟨hmem, htemplate, Or.inr (Or.inr ⟨rfl, t, rfl, hinv⟩)⟩

theorem visited {r : Item} (hr : r ∈ items) (hinv : p.Holds r.inventoryId)
    (htemplate : r.templateId = template) :
    ∃ s ∈ p.sourceRows items template, s.row = r := by
  unfold Pawn.sourceRows
  rcases hinv with hinv | hinv | ⟨t, ht, hinv⟩
  · refine ⟨⟨0, r⟩, List.mem_append_left _ (List.mem_append_left _ ?_), rfl⟩
    exact List.mem_map_of_mem (mem_sortedRows.mpr ⟨hr, hinv, htemplate⟩)
  · refine ⟨⟨1, r⟩, List.mem_append_left _ (List.mem_append_right _ ?_), rfl⟩
    exact List.mem_map_of_mem (mem_sortedRows.mpr ⟨hr, hinv, htemplate⟩)
  · refine ⟨⟨2, r⟩, List.mem_append_right _ ?_, rfl⟩
    rw [Option.mem_def.mp ht]
    exact List.mem_map_of_mem (mem_sortedRows.mpr ⟨hr, hinv, htemplate⟩)

theorem nodup_segment (pri inv : Nat) :
    ((sortedRows items inv template).map (Source.mk pri)).Nodup := by
  refine List.Nodup.map (fun r s h => (Source.mk.inj h).2) ?_
  exact ((List.perm_insertionSort _ _).nodup_iff).mpr (items.nodup_rows.filter _)

theorem nodup_sourceRows : (p.sourceRows items template).Nodup := by
  have hpri : ∀ (pri inv : Nat) (s : Source),
      s ∈ (sortedRows items inv template).map (Source.mk pri) → s.pri = pri := by
    intro pri inv s hs
    obtain ⟨r, -, rfl⟩ := List.mem_map.mp hs
    rfl
  unfold Pawn.sourceRows
  refine List.Nodup.append (List.Nodup.append (nodup_segment ..) (nodup_segment ..) ?_) ?_ ?_
  · intro s hs hs'
    have h0 := hpri _ _ s hs
    have h1 := hpri _ _ s hs'
    omega
  · cases p.toolbar with
    | none => exact List.nodup_nil
    | some t => exact nodup_segment ..
  · intro s hs hs'
    cases htool : p.toolbar with
    | none =>
      rw [htool] at hs'
      cases hs'
    | some t =>
      rw [htool] at hs'
      have h2 := hpri _ _ s hs'
      rcases List.mem_append.mp hs with hs | hs
      · have h0 := hpri _ _ s hs
        omega
      · have h1 := hpri _ _ s hs
        omega

theorem source_eq (hp : p.Distinct) {s s' : Source} (hs : s ∈ p.sourceRows items template)
    (hs' : s' ∈ p.sourceRows items template) (hid : s.row.id = s'.row.id) : s = s' := by
  obtain ⟨hmem, -, hpri⟩ := mem_sourceRows hs
  obtain ⟨hmem', -, hpri'⟩ := mem_sourceRows hs'
  have hrow : s.row = s'.row := SerialTable.eq_of_id_eq hmem hmem' hid
  rw [← hrow] at hpri'
  have hpri_eq : s.pri = s'.pri := by
    rcases hpri with ⟨h, hi⟩ | ⟨h, hi⟩ | ⟨h, t, ht, hi⟩ <;>
      rcases hpri' with ⟨h', hi'⟩ | ⟨h', hi'⟩ | ⟨h', t', ht', hi'⟩ <;>
      rw [hi, Option.some.injEq] at hi'
    · omega
    · exact absurd hi'.symm hp.backpack
    · exact absurd hi'.symm (hp.toolbar t' ht').1
    · exact absurd hi' hp.backpack
    · omega
    · exact absurd hi'.symm (hp.toolbar t' ht').2
    · exact absurd hi' (hp.toolbar t ht).1
    · exact absurd hi' (hp.toolbar t ht).2
    · omega
  obtain ⟨pri, row⟩ := s
  obtain ⟨pri', row'⟩ := s'
  dsimp only at hrow hpri_eq
  rw [hrow, hpri_eq]

theorem takes_drain (hp : p.Distinct) (need : Int) :
    Takes items (drain Source.size need (p.sourceRows items template)) where
  mem q hq := (mem_sourceRows (fst_mem hq)).1
  bounds q hq := mem_drain hq
  nodup := by
    have hfst : (drain Source.size need (p.sourceRows items template)).map Prod.fst =
        p.sourceRows items template := map_fst_drain
    have hmap := congrArg (List.map (fun s : Source => s.row.id)) hfst
    rw [List.map_map] at hmap
    refine hmap ▸ ?_
    exact nodup_sourceRows.map_on (fun s hs s' hs' hid => source_eq hp hs hs' hid)

end Sources

/-! ## The walk, source by source -/

structure Split (p : Pawn) (template : String) (need : Int) (ps bs ks ts : List (Source × Int)) :
    Prop where
  eq : ps = bs ++ ks ++ ts
  bank : Segment 0 p.bank.id template bs
  backpack : Segment 1 p.backpack.id template ks
  toolbar : ∀ t ∈ p.toolbar, Segment 2 t.id template ts
  noToolbar : p.toolbar = none → ts = []
  nonneg : 0 ≤ total bs ∧ 0 ≤ total ks ∧ 0 ≤ total ts
  bankFull : total bs < need → ∀ q ∈ bs, q.2 = max 0 q.1.row.stackSize
  backpackFull : total bs + total ks < need → ∀ q ∈ ks, q.2 = max 0 q.1.row.stackSize

theorem exists_split (p : Pawn) (items : Items) (template : String) (need : Int) :
    ∃ bs ks ts, Split p template need
      (drain Source.size need (p.sourceRows items template)) bs ks ts := by
  let bs := drain Source.size need ((sortedRows items p.bank.id template).map (Source.mk 0))
  let ks := drain Source.size (need - total bs)
    ((sortedRows items p.backpack.id template).map (Source.mk 1))
  let ts := drain Source.size (need - total (bs ++ ks))
    (p.toolbar.elim [] (fun inv => (sortedRows items inv.id template).map (Source.mk 2)))
  refine ⟨bs, ks, ts,
    { eq := ?_, bank := segment_drain, backpack := segment_drain, toolbar := ?_, noToolbar := ?_,
      nonneg := ⟨total_nonneg, total_nonneg, total_nonneg⟩,
      bankFull := fun hshort q hq => exhausted hshort hq,
      backpackFull := ?_ }⟩
  · rw [Pawn.sourceRows, drain_append, drain_append]
  · intro t ht
    have hts : ts = drain Source.size (need - total (bs ++ ks))
        ((sortedRows items t.id template).map (Source.mk 2)) := by
      show drain Source.size _ (p.toolbar.elim [] _) = _
      rw [Option.mem_def.mp ht]
      rfl
    rw [hts]
    exact segment_drain
  · intro hnone
    show drain Source.size _ (p.toolbar.elim [] _) = []
    rw [hnone]
    rfl
  · intro hshort q hq
    have hshort' : total ks < need - total bs := by omega
    exact exhausted hshort' hq

namespace Split

variable {p : Pawn} {template : String} {need : Int}
  {ps bs ks ts : List (Source × Int)}

theorem total_eq (h : Split p template need ps bs ks ts) :
    total ps = total bs + total ks + total ts := by
  rw [h.eq, total_append, total_append]

theorem addAll_eq (h : Split p template need ps bs ks ts) :
    Used.zero.addAll ps = ⟨total ps, total bs, total ks, total ts⟩ := by
  have htool : ∀ u : Used, u.addAll ts = u.add 2 (total ts) := by
    intro u
    cases ht : p.toolbar with
    | none =>
      rw [h.noToolbar ht, Used.addAll, total_nil, Used.add_zero]
    | some t => exact u.addAll_segment (h.toolbar t ht)
  rw [h.total_eq, h.eq, Used.addAll_append, Used.addAll_append, htool,
    Used.addAll_segment _ h.bank, Used.addAll_segment _ h.backpack]
  simp [Used.add, Used.zero]

theorem drawn_toolbar_other (h : Split p template need ps bs ks ts) {inv : Nat}
    (hinv : ∀ t ∈ p.toolbar, t.id ≠ inv) : drawn ts inv template = 0 := by
  cases ht : p.toolbar with
  | none =>
    rw [h.noToolbar ht]
    rfl
  | some t => exact drawn_other (h.toolbar t ht) (hinv t ht)

theorem drawn_bank (h : Split p template need ps bs ks ts) (hp : p.Distinct) :
    drawn ps p.bank.id template = total bs := by
  rw [h.eq, drawn_append, drawn_append, drawn_segment h.bank, drawn_other h.backpack hp.backpack,
    h.drawn_toolbar_other (fun t ht => (hp.toolbar t ht).1)]
  omega

theorem drawn_backpack (h : Split p template need ps bs ks ts) (hp : p.Distinct) :
    drawn ps p.backpack.id template = total ks := by
  rw [h.eq, drawn_append, drawn_append, drawn_segment h.backpack,
    drawn_other h.bank hp.backpack.symm,
    h.drawn_toolbar_other (fun t ht => (hp.toolbar t ht).2)]
  omega

theorem drawn_toolbar (h : Split p template need ps bs ks ts) (hp : p.Distinct)
    {t : Inventory} (ht : t ∈ p.toolbar) : drawn ps t.id template = total ts := by
  rw [h.eq, drawn_append, drawn_append, drawn_segment (h.toolbar t ht),
    drawn_other h.bank (hp.toolbar t ht).1.symm, drawn_other h.backpack (hp.toolbar t ht).2.symm]
  omega

theorem mem_bank (h : Split p template need ps bs ks ts) (hp : p.Distinct)
    {q : Source × Int} (hq : q ∈ ps) (hinv : q.1.row.inventoryId = some p.bank.id) :
    q ∈ bs := by
  rw [h.eq] at hq
  rcases List.mem_append.mp hq with hq | hq
  · rcases List.mem_append.mp hq with hq | hq
    · exact hq
    · have heq := hinv.symm.trans (h.backpack q hq).2.1
      exact absurd (Option.some.inj heq).symm hp.backpack
  · cases ht : p.toolbar with
    | none =>
      rw [h.noToolbar ht] at hq
      cases hq
    | some t =>
      have heq := hinv.symm.trans (h.toolbar t ht q hq).2.1
      exact absurd (Option.some.inj heq).symm (hp.toolbar t ht).1

theorem mem_backpack (h : Split p template need ps bs ks ts) (hp : p.Distinct)
    {q : Source × Int} (hq : q ∈ ps) (hinv : q.1.row.inventoryId = some p.backpack.id) :
    q ∈ ks := by
  rw [h.eq] at hq
  rcases List.mem_append.mp hq with hq | hq
  · rcases List.mem_append.mp hq with hq | hq
    · have heq := hinv.symm.trans (h.bank q hq).2.1
      exact absurd (Option.some.inj heq) hp.backpack
    · exact hq
  · cases ht : p.toolbar with
    | none =>
      rw [h.noToolbar ht] at hq
      cases hq
    | some t =>
      have heq := hinv.symm.trans (h.toolbar t ht q hq).2.1
      exact absurd (Option.some.inj heq).symm (hp.toolbar t ht).2

end Split

/-! ## A consume half is exact -/

/-- What one consume half does: it takes `need` units of the template from the pawn, the bank
before the backpack and the backpack before the toolbar, and touches no other row. -/
structure Drained (p : Pawn) (template : String) (need : Int) (before after : Items) (u : Used) :
    Prop where
  units : u.units = need
  split : u.bank + u.backpack + u.toolbar = need
  nonneg : 0 ≤ u.bank ∧ 0 ≤ u.backpack ∧ 0 ≤ u.toolbar
  bank : after.held p.bank.id template = before.held p.bank.id template - u.bank
  backpack : after.held p.backpack.id template = before.held p.backpack.id template - u.backpack
  toolbar : ∀ t ∈ p.toolbar, after.held t.id template = before.held t.id template - u.toolbar
  noToolbar : p.toolbar = none → u.toolbar = 0
  bankFirst : 0 < u.backpack + u.toolbar →
    ∀ r ∈ after.rowsOf p.bank.id template, r.stackSize ≤ 0
  toolbarLast : 0 < u.toolbar → ∀ r ∈ after.rowsOf p.backpack.id template, r.stackSize ≤ 0
  kept : ∀ r : Item, ¬ (p.Holds r.inventoryId ∧ r.templateId = template) →
    (r ∈ after ↔ r ∈ before)
  shrunk : ∀ r ∈ after, r ∈ before ∨ ∃ r₀ ∈ before, 0 < r.stackSize ∧
    r.stackSize < r₀.stackSize ∧ r = { r₀ with stackSize := r.stackSize }

theorem Drained.share {p : Pawn} {template : String} {need : Int} {before after : Items}
    {u : Used} (h : Drained p template need before after u) {inv i j : Nat}
    (hshare : after.Share inv i j) : before.Share inv i j := by
  refine Items.share_of (fun r hr => ?_) hshare
  rcases h.shrunk r hr with hr | ⟨r₀, hr₀, -, -, heq⟩
  · exact ⟨r, hr, rfl, rfl, rfl⟩
  · refine ⟨r₀, hr₀, ?_, ?_, ?_⟩ <;> rw [heq]

theorem Item.less_cases {r s : Item} {n : Int} (hn : 0 ≤ n) (h : s ∈ r.less n) :
    s = r ∨ 0 < s.stackSize ∧ s.stackSize < r.stackSize ∧
      s = { r with stackSize := s.stackSize } := by
  unfold Item.less at h
  split at h
  · cases h
    exact Or.inl rfl
  · split at h
    · cases h
      refine Or.inr ⟨?_, ?_, rfl⟩
      · show 0 < r.stackSize - n
        omega
      · show r.stackSize - n < r.stackSize
        omega
    · cases h

theorem Item.less_full {r s : Item} (h : s ∈ r.less (max 0 r.stackSize)) : s.stackSize ≤ 0 := by
  unfold Item.less at h
  split at h
  · cases h
    omega
  · split at h
    · omega
    · cases h

theorem Item.less_same {r s : Item} {n : Int} (h : s ∈ r.less n) :
    s.inventoryId = r.inventoryId ∧ s.templateId = r.templateId := by
  unfold Item.less at h
  split at h
  · cases h
    exact ⟨rfl, rfl⟩
  · split at h
    · cases h
      exact ⟨rfl, rfl⟩
    · cases h

section Consume

variable {delete : Items → Nat → Int → Items} (hdel : RemovesExactly delete) {items : Items}
  {p : Pawn} {template : String} {need : Int}

include hdel in
theorem emptied (hp : p.Distinct) {inv : Nat} (hinv : p.Holds (some inv))
    (hfull : ∀ q ∈ drain Source.size need (p.sourceRows items template),
      q.1.row.inventoryId = some inv → q.2 = max 0 q.1.row.stackSize) :
    ∀ r ∈ (takeAll delete (drain Source.size need (p.sourceRows items template)) items).rowsOf
      inv template, r.stackSize ≤ 0 := by
  intro r hr
  obtain ⟨hr, hrinv, hrt⟩ := Items.mem_rowsOf.mp hr
  rcases (mem_takeAll hdel (takes_drain hp need)).mp hr with ⟨hmem, hall⟩ | ⟨q, hq, hless⟩
  · obtain ⟨s, hs, hsr⟩ := visited hmem (hrinv ▸ hinv) hrt
    have hfst : (drain Source.size need (p.sourceRows items template)).map Prod.fst =
        p.sourceRows items template := map_fst_drain
    rw [← hfst] at hs
    obtain ⟨q, hq, hqs⟩ := List.mem_map.mp hs
    refine absurd ?_ (hall q hq)
    rw [hqs, hsr]
  · have hqinv : q.1.row.inventoryId = some inv := (Item.less_same hless).1.symm.trans hrinv
    rw [hfull q hq hqinv] at hless
    exact Item.less_full hless

include hdel in
theorem drained_takeAll (hp : p.Distinct)
    (htotal : total (drain Source.size need (p.sourceRows items template)) = need) :
    Drained p template need items
      (takeAll delete (drain Source.size need (p.sourceRows items template)) items)
      (Used.zero.addAll (drain Source.size need (p.sourceRows items template))) := by
  obtain ⟨bs, ks, ts, hsplit⟩ := exists_split p items template need
  have htakes : Takes items (drain Source.size need (p.sourceRows items template)) :=
    takes_drain hp need
  have hsum := hsplit.total_eq
  obtain ⟨hbank, hbackpack, htoolbar⟩ := hsplit.nonneg
  rw [hsplit.addAll_eq]
  refine
    { units := htotal, split := ?_, nonneg := hsplit.nonneg, bank := ?_, backpack := ?_,
      toolbar := ?_, noToolbar := ?_, bankFirst := ?_, toolbarLast := ?_, kept := ?_,
      shrunk := ?_ }
  · show total bs + total ks + total ts = need
    omega
  · rw [held_takeAll hdel htakes, hsplit.drawn_bank hp]
  · rw [held_takeAll hdel htakes, hsplit.drawn_backpack hp]
  · intro t ht
    rw [held_takeAll hdel htakes, hsplit.drawn_toolbar hp ht]
  · intro hnone
    show total ts = 0
    rw [hsplit.noToolbar hnone, total_nil]
  · intro hpos
    dsimp only at hpos
    refine emptied hdel hp (Or.inl rfl) (fun q hq hinv => ?_)
    exact hsplit.bankFull (by omega) q (hsplit.mem_bank hp hq hinv)
  · intro hpos
    dsimp only at hpos
    refine emptied hdel hp (Or.inr (Or.inl rfl)) (fun q hq hinv => ?_)
    exact hsplit.backpackFull (by omega) q (hsplit.mem_backpack hp hq hinv)
  · intro r hout
    rw [mem_takeAll hdel htakes]
    constructor
    · rintro (⟨hr, -⟩ | ⟨q, hq, hless⟩)
      · exact hr
      · -- what is left of a visited row is a row of the template in a source
        obtain ⟨-, htemplate, hinv⟩ := mem_sourceRows (fst_mem hq)
        obtain ⟨hsame, hsame'⟩ := Item.less_same hless
        refine absurd ⟨?_, hsame'.trans htemplate⟩ hout
        rw [hsame]
        rcases hinv with ⟨-, h⟩ | ⟨-, h⟩ | ⟨-, h⟩
        · exact Or.inl h
        · exact Or.inr (Or.inl h)
        · exact Or.inr (Or.inr h)
    · intro hr
      refine Or.inl ⟨hr, fun q hq hid => ?_⟩
      obtain ⟨hmem, htemplate, hinv⟩ := mem_sourceRows (fst_mem hq)
      have heq : q.1.row = r := SerialTable.eq_of_id_eq hmem hr hid
      rw [heq] at htemplate hinv
      refine hout ⟨?_, htemplate⟩
      rcases hinv with ⟨-, h⟩ | ⟨-, h⟩ | ⟨-, h⟩
      · exact Or.inl h
      · exact Or.inr (Or.inl h)
      · exact Or.inr (Or.inr h)
  · intro r hr
    rcases (mem_takeAll hdel htakes).mp hr with ⟨hr, -⟩ | ⟨q, hq, hless⟩
    · exact Or.inl hr
    · have hmem := htakes.mem q hq
      rcases Item.less_cases (htakes.bounds q hq).1 hless with rfl | ⟨h0, hlt, heq⟩
      · exact Or.inl hmem
      · exact Or.inr ⟨q.1.row, hmem, h0, hlt, heq⟩

include hdel in
theorem consumeBlock_drained (hp : p.Distinct) (hneed : 0 ≤ need) {tag : Tag} {u : Used}
    {after : Items} (h : consumeBlock delete tag p template need items = .ok (u, after)) :
    Drained p template need items after u := by
  unfold consumeBlock at h
  dsimp only at h
  obtain ⟨_, havail, h⟩ := bind_eq_ok.mp h
  obtain ⟨_, _, h⟩ := bind_eq_ok.mp h
  rw [pure_eq_ok, consumeLoop_eq] at h
  cases h
  exact drained_takeAll hdel hp (total_eq hneed (require_eq_ok.mp havail))

end Consume

end LastSietch.Refinery
