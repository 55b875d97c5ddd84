import LastSietch.Karum.Tables

/-!
# The shared gated take

`karumTakeItem` is the SQL that `karum_take_item` emits: behind the offline gate it
moves one item row out of a pawn inventory of its owner into another inventory. A
raised exception rolls the caller's whole transaction back, so it is an `error` here.

`karumTakeItem_spec` lists what a take that did not raise has done: the one row with
the wanted id stood in the source inventory, it stands in the destination now, and no
other row has changed.
-/

namespace LastSietch.Karum

/-- `src=`: which pawn inventory the take reads. -/
inductive TakeSource
  | bank | backpack
  deriving DecidableEq, Repr

def TakeSource.inventoryType : TakeSource → Nat
  | .bank => 30
  | .backpack => 0

def TakeSource.missing : TakeSource → Token
  | .bank => .noBank
  | .backpack => .noBackpack

/-- `dst=`: an inventory id, `bank:<account_id>` or `exchange`. -/
inductive TakeDestination
  | inventory (id : Nat)
  | bank (accountId : Nat)
  | exchange
  deriving DecidableEq, Repr

inductive QualityMode
  | exact | min
  deriving DecidableEq, Repr

structure TakeArgs where
  itemId : Nat
  ownerAccountId : Nat
  dst : TakeDestination
  src : TakeSource
  expectedTemplate : Option String
  expectedQuality : Option Int
  qualityMode : QualityMode
  ownerCtrl : Option Nat
  minPosition : Int
  deriving DecidableEq, Repr

/-- The row of `_take_result`. -/
structure TakeResult where
  itemId : Nat
  srcInv : Nat
  dstInv : Nat
  srcPawnId : Nat
  positionIndex : Int
  templateId : String
  stackSize : Option Nat
  qualityLevel : Option Int
  deriving DecidableEq, Repr

def World.isOffline (w : World) (p : PlayerState) : Bool :=
  p.onlineStatus == some .offline &&
    !(match p.reconnectGracePeriodEnd with
      | some t => decide (w.now < t)
      | none => false)

/-- `_take_bank_sql`: the pawn and the inventory of the account's latest live character
that has an inventory of the wanted type. -/
def World.pawnInventory (w : World) (acct : Nat) (ctrl : Option Nat) (src : TakeSource) :
    Option (Nat × Nat) :=
  let rows := (w.liveCharacters acct).filter
    (fun p => ctrl.isNone || p.playerControllerId == ctrl)
  let joined := rows.flatMap (fun p =>
    (w.inventories.filter (fun inv =>
      p.playerPawnId = some inv.actorId ∧ inv.inventoryType = src.inventoryType)).map
        (fun inv => (p, inv)))
  (pick (fun a b => moreRecent a.1 b.1) joined).map (fun a => (a.2.actorId, a.2.id))

def World.takeDestination (w : World) : TakeDestination → Except Token Nat
  | .inventory id => .ok id
  | .bank acct => (orRaise (w.pawnInventory acct none .bank) .noBank).map (·.2)
  | .exchange => orRaise w.exchangeInventory .takeFailed

def qualityAccepted (want : Option Int) (mode : QualityMode) (quality : Option Int) : Bool :=
  match want with
  | none => true
  | some q =>
    match quality with
    | none => false
    | some g =>
      match mode with
      | .min => decide (q ≤ g)
      | .exact => g == q

/-- `GREATEST(COALESCE(MAX(position_index), -1) + 1, min_position)`. -/
def World.nextPosition (w : World) (inv : Nat) (minPosition : Int) : Int :=
  max ((((w.items.rows.filter (·.inventoryId = inv)).map (·.positionIndex)).max?).getD (-1) + 1)
    minPosition

def World.moveItem (w : World) (item src dst : Nat) (position : Int) : World :=
  { w with
    items := w.items.update (fun i => i.id = item ∧ i.inventoryId = src)
      (fun i => { i with inventoryId := dst, positionIndex := position, isNew := true }) }

def karumTakeItem (a : TakeArgs) (w : World) : Except Token (TakeResult × World) := do
  require (w.liveCharacters a.ownerAccountId ≠ []) .playerOnline
  require ((w.liveCharacters a.ownerAccountId).all w.isOffline) .playerOnline
  let src ← orRaise (w.pawnInventory a.ownerAccountId a.ownerCtrl a.src) a.src.missing
  let dstInv ← w.takeDestination a.dst
  require (dstInv ≠ src.2) .takeFailed
  let item ← orRaise (w.items.get? a.itemId) .itemNotFound
  require (item.inventoryId = src.2) .itemNotFound
  require (a.expectedTemplate = none ∨ a.expectedTemplate = some item.templateId) .itemNotFound
  require (qualityAccepted a.expectedQuality a.qualityMode item.qualityLevel) .gradeMismatch
  let position := w.nextPosition dstInv a.minPosition
  .ok (⟨a.itemId, src.2, dstInv, src.1, position, item.templateId, item.stackSize,
    item.qualityLevel⟩, w.moveItem a.itemId src.2 dstInv position)

/-! ## What a take has done -/

@[simp] theorem moveItem_ids (w : World) (item src dst : Nat) (position : Int) :
    (w.moveItem item src dst position).items.rows.map (·.id) = w.items.rows.map (·.id) := by
  unfold World.moveItem
  exact Table.map_key_update _ _ _ (fun _ => rfl)

@[simp] theorem moveItem_orders (w : World) (item src dst : Nat) (position : Int) :
    (w.moveItem item src dst position).orders = w.orders := rfl

@[simp] theorem moveItem_balances (w : World) (item src dst : Nat) (position : Int) :
    (w.moveItem item src dst position).balances = w.balances := rfl

variable {w w' : World}

theorem karumTakeItem_spec {a : TakeArgs} {r : TakeResult} (h : karumTakeItem a w = .ok (r, w')) :
    ∃ item, w.items.get? a.itemId = some item ∧ item.inventoryId = r.srcInv ∧
      r.dstInv ≠ r.srcInv ∧ r.itemId = a.itemId ∧ r.templateId = item.templateId ∧
      r.stackSize = item.stackSize ∧ r.qualityLevel = item.qualityLevel ∧
      (a.expectedTemplate = none ∨ a.expectedTemplate = some item.templateId) ∧
      w' = w.moveItem a.itemId r.srcInv r.dstInv r.positionIndex := by
  simp only [karumTakeItem, bind_eq_ok, require_eq_ok, orRaise_eq_ok] at h
  obtain ⟨_, -, _, -, src, -, dst, -, _, hne, item, hitem, _, hinv, _, htpl, _, -, hr⟩ := h
  cases hr
  exact ⟨item, hitem, hinv, hne, rfl, rfl, rfl, rfl, htpl, rfl⟩

theorem karumTakeItem_position {a : TakeArgs} {r : TakeResult}
    (h : karumTakeItem a w = .ok (r, w')) :
    r.positionIndex = w.nextPosition r.dstInv a.minPosition := by
  simp only [karumTakeItem, bind_eq_ok, require_eq_ok, orRaise_eq_ok] at h
  obtain ⟨_, -, _, -, src, -, dst, -, _, -, item, -, _, -, _, -, _, -, hr⟩ := h
  cases hr
  rfl

theorem lt_nextPosition {i : Item} (hi : i ∈ w.items) (minPosition : Int) :
    i.positionIndex < w.nextPosition i.inventoryId minPosition := by
  have hmem : i.positionIndex ∈
      (w.items.rows.filter (·.inventoryId = i.inventoryId)).map (·.positionIndex) :=
    List.mem_map_of_mem (List.mem_filter.mpr ⟨hi, decide_eq_true rfl⟩)
  unfold World.nextPosition
  cases hmax : ((w.items.rows.filter (·.inventoryId = i.inventoryId)).map
      (·.positionIndex)).max? with
  | none =>
    rw [List.max?_eq_none_iff] at hmax
    rw [hmax] at hmem
    cases hmem
  | some n =>
    have hle := (List.max?_eq_some_iff.mp hmax).2 _ hmem
    rw [Option.getD_some]
    omega

theorem karumTakeItem_frame {a : TakeArgs} {r : TakeResult} (h : karumTakeItem a w = .ok (r, w')) :
    w'.items.rows.map (·.id) = w.items.rows.map (·.id) ∧ w'.orders = w.orders ∧
      w'.balances = w.balances := by
  obtain ⟨item, -, -, -, -, -, -, -, -, rfl⟩ := karumTakeItem_spec h
  simp

end LastSietch.Karum
