import Mathlib.Tactic.Linarith
import LastSietch.Storage.Conservation

/-!
# The volume gate

Runs of pawn moves, and the volume of an inventory by the rule of `unit_volume`. The gate prices
what comes in by that rule, but what is there already by `volume_override` alone (`usedVolume`), and
compares with the cap rounded to a whole number.

* `volume_eq`: the gate leaves out the rows without an override (`unseen`).
* `moveStep_bound`: what a request does that gets as far as the gate.
-/

namespace LastSietch.Storage

open Refinery (Game Inventory Item Items usedVolume mem_inventoryRows)
open Runs (exec Along)

/-- The volume of a row by `unit_volume`; an unknown one counts for nothing. -/
def ruleVolume (vmap : String → Option ℚ) (r : Item) : ℚ :=
  (unitVolume (some r.templateId) r.volumeOverride vmap).getD 0 * (r.stackSize : ℚ)

def volume (vmap : String → Option ℚ) (items : Items) (inv : Nat) : ℚ :=
  ((items.inventoryRows inv).map (ruleVolume vmap)).sum

def unseen (vmap : String → Option ℚ) (items : Items) (inv : Nat) : ℚ :=
  (((items.inventoryRows inv).filter (·.volumeOverride.isNone)).map (ruleVolume vmap)).sum

section Volumes

variable {vmap : String → Option ℚ} {items items' : Items} {inv : Nat}

theorem volume_eq : volume vmap items inv = usedVolume items inv + unseen vmap items inv := by
  unfold volume usedVolume unseen
  rw [Table.sum_filter, ← List.sum_map_add]
  congr 1
  apply List.map_congr_left
  intro r _
  unfold ruleVolume unitVolume
  cases r.volumeOverride with
  | none => simp
  | some v => simp

theorem volume_rows : volume vmap items inv =
    (items.rows.map (fun r => if r.inventoryId = some inv then ruleVolume vmap r else 0)).sum := by
  unfold volume Items.inventoryRows
  rw [Table.sum_filter]
  simp only [decide_eq_true_eq]

theorem volume_rehome (vmap : String → Option ℚ) (inv : Nat) {item : Item} {src : Nat} (dst : Nat)
    (position : Int) (hitem : item ∈ items) (hsrc : item.inventoryId = some src) :
    volume vmap (rehome items item.id src dst position) inv +
        (if src = inv then ruleVolume vmap item else 0) =
      volume vmap items inv + if dst = inv then ruleVolume vmap item else 0 := by
  have hswap := SerialTable.sum_swap hitem (fun s hs => by cases hs; rfl)
    (fun s => @mem_rehome items item s src dst position hitem hsrc)
    (fun r => if r.inventoryId = some inv then ruleVolume vmap r else 0)
  have hsame : ruleVolume vmap { item with
      inventoryId := some dst, positionIndex := position, isNew := true } =
        ruleVolume vmap item := rfl
  rw [volume_rows, volume_rows]
  simpa [hsrc, hsame] using hswap

end Volumes

/-! ## Runs of moves -/

structure MoveCall where
  move : PawnMove
  enabled : Bool
  now : Nat

/-- `COMMIT`, or the rollback of a raise. -/
def moveStep (vmap : String → Option ℚ) (db : Db) (c : MoveCall) : Option Db :=
  match pawnMove c.move c.enabled vmap c.now db with
  | .error _ => some db
  | .ok (_, db') => some db'

def StorageKind.pick (kind : StorageKind) (backpack bank : Inventory) : Inventory :=
  match kind with
  | .bank => bank
  | .backpack => backpack

def settleMove (a : PawnMove) (unitVol : Option ℚ) (db : Db) (item : Item) (src : Nat)
    (srcKind : StorageKind) (dst : Inventory) (position : Int) :
    Except Refusal (MoveResult × Db) := do
  let unverified ← moveVolumeGate dst unitVol item.stackSize db.game.items
  let row : MoveRow :=
    { idempotencyKey := a.idempotencyKey, ownerCtrl := a.owner, itemId := a.itemId,
      expectedTemplate := a.expectedTemplate, templateId := item.templateId,
      requestedSrcKind := a.srcStorage, requestedDstKind := a.dstStorage,
      srcInventoryId := src, dstInventoryId := dst.id,
      srcPositionIndex := item.positionIndex, dstPositionIndex := position,
      stackSize := item.stackSize, volumeUnverified := unverified }
  let moves ← orRaise (db.moves.insert? row) .writeFailed
  pure
    ({ row.republish with srcKind, replay := false },
     { db with
       game := { db.game with items := rehome db.game.items a.itemId src dst.id position }
       moves })

theorem relocate_eq (a : PawnMove) (unitVol : Option ℚ) (now : Nat) (db : Db) :
    relocate a unitVol now db = (do
      offlineGate (db.liveCharacters a.owner) now
      let (backpack, bank) ← db.pawnStorage a.owner
      let item ← orRaise (db.game.items.byId? a.itemId) .itemNotFound
      let src ← orRaise item.inventoryId .itemNotFound
      require (∀ t ∈ a.expectedTemplate, item.templateId = t) .itemNotFound
      let srcKind ← srcKindOf backpack bank src
      require (srcKind = a.srcStorage) .itemNotFound
      require (srcKind ≠ a.dstStorage ∧ src ≠ (a.dstStorage.pick backpack bank).id) .moveFailed
      let position ← slotGate db.game.items (a.dstStorage.pick backpack bank)
      settleMove a unitVol db item src srcKind (a.dstStorage.pick backpack bank) position) :=
  rfl

structure Bound (a : PawnMove) (now : Nat) (db : Db) (item : Item) (src : Nat) (dst : Inventory)
    (position : Int) : Prop where
  fresh : db.moves.get? a.idempotencyKey = none
  offline : offlineGate (db.liveCharacters a.owner) now = .ok ()
  storage : ∃ backpack bank, db.pawnStorage a.owner = .ok (backpack, bank) ∧
    srcKindOf backpack bank src = .ok a.srcStorage ∧ dst = a.dstStorage.pick backpack bank
  item_eq : db.game.items.byId? a.itemId = some item
  item_src : item.inventoryId = some src
  template : ∀ t ∈ a.expectedTemplate, item.templateId = t
  differ : a.srcStorage ≠ a.dstStorage ∧ src ≠ dst.id
  slot : slotGate db.game.items dst = .ok position

def Refused (vmap : String → Option ℚ) (items : Items) (dst : Inventory) (item : Item) : Prop :=
  0 < (dst.maxItemVolume.map toBigint).getD 0 ∧
    ∃ v ∈ unitVolume (some item.templateId) item.volumeOverride vmap,
      (((dst.maxItemVolume.map toBigint).getD 0 : Int) : ℚ) <
        usedVolume items dst.id + v * (item.stackSize : ℚ)

/-- A request that gets as far as the gate is refused there; or, when it moves a stack in, what is
unseen fits into what the gate's count leaves of the cap, and when it moves one out, what stays is
within the cap. -/
def Meets (vmap : String → Option ℚ) (inv : Nat) (cap : ℚ) (db : Db) (c : MoveCall) : Prop :=
  c.enabled = true → ∀ item src dst position, Bound c.move c.now db item src dst position →
    Refused vmap db.game.items dst item ∨
      (dst.id = inv → unseen vmap db.game.items inv ≤
        cap - (usedVolume db.game.items inv + ruleVolume vmap item)) ∧
      (src = inv → volume vmap db.game.items inv - ruleVolume vmap item ≤ cap)

section Moves

variable {vmap : String → Option ℚ} {a : PawnMove} {c : MoveCall} {now : Nat} {db db' : Db}
  {r : MoveResult} {item : Item} {src : Nat} {dst : Inventory} {position : Int}

theorem Bound.unique {item' : Item} {src' : Nat} {dst' : Inventory} {position' : Int}
    (h : Bound a now db item src dst position) (h' : Bound a now db item' src' dst' position') :
    item' = item ∧ src' = src ∧ dst' = dst := by
  obtain ⟨backpack, bank, hstorage, -, hdst⟩ := h.storage
  obtain ⟨backpack', bank', hstorage', -, hdst'⟩ := h'.storage
  rw [hstorage] at hstorage'
  cases hstorage'
  have hitem := h'.item_eq
  rw [h.item_eq] at hitem
  cases hitem
  have hsrc := h'.item_src
  rw [h.item_src] at hsrc
  cases hsrc
  exact ⟨rfl, rfl, hdst'.trans hdst.symm⟩

theorem Bound.unitVolumeOf (h : Bound a now db item src dst position) :
    db.unitVolumeOf a.itemId vmap = unitVolume (some item.templateId) item.volumeOverride vmap := by
  unfold Db.unitVolumeOf
  rw [h.item_eq]
  rfl

theorem moveVolumeGate_refused (h : Refused vmap db.game.items dst item) :
    moveVolumeGate dst (unitVolume (some item.templateId) item.volumeOverride vmap) item.stackSize
      db.game.items = .error .dstFullVolume := by
  obtain ⟨hpos, v, hv, hlt⟩ := h
  unfold moveVolumeGate
  dsimp only
  rw [if_neg (by omega), Option.mem_def.mp hv]
  exact if_pos hlt

theorem moveVolumeGate_passed (h : ¬ Refused vmap db.game.items dst item) :
    ∃ b, moveVolumeGate dst (unitVolume (some item.templateId) item.volumeOverride vmap)
      item.stackSize db.game.items = .ok b := by
  unfold moveVolumeGate
  dsimp only
  split
  · exact ⟨_, rfl⟩
  · rename_i hpos
    cases hv : unitVolume (some item.templateId) item.volumeOverride vmap with
    | none => exact ⟨_, rfl⟩
    | some v =>
      refine ⟨false, if_neg (fun hlt => h ⟨by omega, v, hv, hlt⟩)⟩

theorem relocate_bound (h : Bound a now db item src dst position) (unitVol : Option ℚ) :
    relocate a unitVol now db = settleMove a unitVol db item src a.srcStorage dst position := by
  obtain ⟨backpack, bank, hstorage, hkind, rfl⟩ := h.storage
  have htemplate : ∀ e : Refusal,
      require (∀ t ∈ a.expectedTemplate, item.templateId = t) e = .ok () := fun _ =>
    if_pos h.template
  have hdiffer : ∀ e : Refusal, require (a.srcStorage ≠ a.dstStorage ∧
      src ≠ (a.dstStorage.pick backpack bank).id) e = .ok () := fun _ => if_pos h.differ
  have htrue : ∀ [Decidable True] (e : Refusal), require True e = .ok () := fun _ => if_pos trivial
  rw [relocate_eq]
  simp only [h.offline, hstorage, h.item_eq, h.item_src, htemplate, hkind, htrue, hdiffer, h.slot,
    orRaise, bind, Except.bind]

theorem bound_of_relocate {unitVol : Option ℚ} (hfresh : db.moves.get? a.idempotencyKey = none)
    (h : relocate a unitVol now db = .ok (r, db')) :
    ∃ item src dst position, Bound a now db item src dst position := by
  rw [relocate_eq] at h
  obtain ⟨_, hoffline, h⟩ := bind_eq_ok.mp h
  obtain ⟨⟨backpack, bank⟩, hstorage, h⟩ := bind_eq_ok.mp h
  obtain ⟨item, hitem, h⟩ := bind_eq_ok.mp h
  obtain ⟨src, hsrc, h⟩ := bind_eq_ok.mp h
  obtain ⟨_, htemplate, h⟩ := bind_eq_ok.mp h
  obtain ⟨srcKind, hkind, h⟩ := bind_eq_ok.mp h
  obtain ⟨_, hsame, h⟩ := bind_eq_ok.mp h
  obtain ⟨_, hdiffer, h⟩ := bind_eq_ok.mp h
  obtain ⟨position, hslot, h⟩ := bind_eq_ok.mp h
  have hsame := require_eq_ok.mp hsame
  subst hsame
  exact ⟨item, src, _, position,
    { fresh := hfresh, offline := hoffline, storage := ⟨backpack, bank, hstorage, hkind, rfl⟩,
      item_eq := orRaise_eq_ok.mp hitem, item_src := orRaise_eq_ok.mp hsrc,
      template := require_eq_ok.mp htemplate, differ := require_eq_ok.mp hdiffer,
      slot := hslot }⟩

theorem pawnMove_bound (henabled : c.enabled = true)
    (h : Bound c.move c.now db item src dst position) :
    pawnMove c.move c.enabled vmap c.now db =
      settleMove c.move (unitVolume (some item.templateId) item.volumeOverride vmap) db item src
        c.move.srcStorage dst position := by
  unfold pawnMove pawnMoveTxn
  rw [h.fresh, require, if_pos henabled]
  show relocate c.move _ c.now db = _
  rw [relocate_bound h, h.unitVolumeOf]

theorem moveStep_refused (henabled : c.enabled = true)
    (h : Bound c.move c.now db item src dst position)
    (hrefused : Refused vmap db.game.items dst item) : moveStep vmap db c = some db := by
  unfold moveStep
  rw [pawnMove_bound henabled h, settleMove, moveVolumeGate_refused hrefused]
  rfl

theorem moveStep_passed (henabled : c.enabled = true)
    (h : Bound c.move c.now db item src dst position)
    (hpass : ¬ Refused vmap db.game.items dst item) :
    ∃ db', moveStep vmap db c = some db' ∧
      db'.game.items = rehome db.game.items item.id src dst.id position ∧
        db'.game.inventories = db.game.inventories := by
  obtain ⟨b, hgate⟩ := moveVolumeGate_passed hpass
  have hid := (SerialTable.byId?_eq_some.mp h.item_eq).2
  unfold moveStep
  rw [pawnMove_bound henabled h, settleMove, hgate, hid]
  dsimp only [bind, Except.bind]
  cases hins : db.moves.insert? _ with
  | none =>
    obtain ⟨row, hrow, hkey⟩ := Table.insert?_eq_none.mp hins
    exact absurd hkey (Table.get?_eq_none.mp h.fresh row hrow)
  | some moves => exact ⟨_, rfl, rfl, rfl⟩

theorem moveStep_idle (h : ¬ (c.enabled = true ∧
      ∃ item src dst position, Bound c.move c.now db item src dst position)) :
    moveStep vmap db c = some db := by
  unfold moveStep
  split
  · rfl
  · rename_i r db' hmove
    unfold pawnMove at hmove
    obtain ⟨_, henabled, hmove⟩ := bind_eq_ok.mp hmove
    unfold pawnMoveTxn at hmove
    split at hmove
    · split at hmove
      · cases hmove
        rfl
      · cases hmove
    · rename_i hfresh
      exact absurd ⟨require_eq_ok.mp henabled, bound_of_relocate hfresh hmove⟩ h

end Moves

/-! ## The cap -/

section Caps

variable {vmap : String → Option ℚ} {inv : Inventory} {cap : ℚ} {db db' : Db} {c : MoveCall}

theorem meets_iff (hstart : volume vmap db.game.items inv.id ≤ cap) :
    Meets vmap inv.id cap db c ↔
      ∀ db', moveStep vmap db c = some db' → volume vmap db'.game.items inv.id ≤ cap := by
  by_cases hbound : c.enabled = true ∧
      ∃ item src dst position, Bound c.move c.now db item src dst position
  · obtain ⟨henabled, item, src, dst, position, hb⟩ := hbound
    have hmeets : Meets vmap inv.id cap db c ↔ Refused vmap db.game.items dst item ∨
        (dst.id = inv.id → unseen vmap db.game.items inv.id ≤
          cap - (usedVolume db.game.items inv.id + ruleVolume vmap item)) ∧
        (src = inv.id → volume vmap db.game.items inv.id - ruleVolume vmap item ≤ cap) := by
      constructor
      · exact fun h => h henabled item src dst position hb
      · intro h _ item' src' dst' position' hb'
        obtain ⟨rfl, rfl, rfl⟩ := hb.unique hb'
        exact h
    rw [hmeets]
    by_cases hrefused : Refused vmap db.game.items dst item
    · refine iff_of_true (Or.inl hrefused) (fun db' hstep => ?_)
      rw [moveStep_refused henabled hb hrefused] at hstep
      cases hstep
      exact hstart
    · obtain ⟨db₁, hstep, hitems, -⟩ := moveStep_passed henabled hb hrefused
      have hitem := (SerialTable.byId?_eq_some.mp hb.item_eq).1
      have hvolume := volume_rehome vmap inv.id dst.id position hitem hb.item_src
      have hafter : (∀ db', moveStep vmap db c = some db' →
          volume vmap db'.game.items inv.id ≤ cap) ↔
            volume vmap (rehome db.game.items item.id src dst.id position) inv.id ≤ cap := by
        constructor
        · intro h
          have hnext := h db₁ hstep
          rwa [hitems] at hnext
        · intro h db' hdb'
          rw [hstep] at hdb'
          cases hdb'
          rwa [hitems]
      rw [or_iff_right hrefused, hafter]
      by_cases hin : dst.id = inv.id
      · have hout : src ≠ inv.id := fun h => hb.differ.2 (h.trans hin.symm)
        have heq := @volume_eq vmap db.game.items inv.id
        rw [if_neg hout, if_pos hin, add_zero, heq] at hvolume
        rw [hvolume]
        constructor
        · intro h
          have hfits := h.1 hin
          linarith only [hfits]
        · intro h
          refine ⟨fun _ => ?_, fun h => absurd h hout⟩
          linarith only [h]
      · rw [if_neg hin, add_zero] at hvolume
        by_cases hout : src = inv.id
        · rw [if_pos hout] at hvolume
          constructor
          · intro h
            have hstays := h.2 hout
            linarith only [hstays, hvolume]
          · intro h
            refine ⟨fun h => absurd h hin, fun _ => ?_⟩
            linarith only [h, hvolume]
        · rw [if_neg hout, add_zero] at hvolume
          rw [hvolume]
          exact iff_of_true ⟨fun h => absurd h hin, fun h => absurd h hout⟩ hstart
  · refine iff_of_true (fun henabled item src dst position hb => ?_) (fun db' hstep => ?_)
    · exact absurd ⟨henabled, item, src, dst, position, hb⟩ hbound
    · rw [moveStep_idle hbound] at hstep
      cases hstep
      exact hstart

end Caps

/-! ## A bag of water

The bank of player 11 holds ten units of volume; in the backpack are two stacks of six litres. -/

def waterVolume (template : String) : Option ℚ := if template = "Water" then some 1 else none

def waterStack (id : Nat) (position : Int) : Item :=
  { coinStack id 202 6 position with templateId := "Water" }

def tank : Inventory := { chest 201 101 30 5 with maxItemVolume := some 10 }

def waterDb : Db :=
  { sampleDb with
    game :=
      { characters := [Karum.samplePlayer 1]
        inventories := ⟨[tank, chest 202 101 0 5], by decide⟩
        items := ⟨⟨[waterStack 1 0, waterStack 2 1], by decide⟩, 3, by decide, by decide⟩ } }

def pour (item key : Nat) (h : 1 ≤ item := by decide) : MoveCall :=
  ⟨⟨11, item, .backpack, .bank, key, none, sampleOwner_pos, h, by decide,
    sampleMove.template_ok⟩, true, 0⟩

end LastSietch.Storage
