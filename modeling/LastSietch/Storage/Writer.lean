import LastSietch.Storage.Tables

/-!
# The storage writer

`withdraw`, `deposit` and `pawnMove` are the transactions of `build_withdraw_sql`,
`build_deposit_sql` and `build_pawn_move_sql`, each an `Except` whose error rolls everything
back. The requests carry what `gather_args` lets through, and `Op.run` is a live call of the
writer. Volumes are exact rationals, and an idempotency key is the uuid as a number.
-/

namespace LastSietch.Storage

open Refinery (Game Inventory Item Items appendSlot firstGap firstStack offline templateRe
  usedVolume)
open Karum (Balances PlayerState)

structure Withdraw where
  owner : Nat
  amount : Nat
  dstInv : Option Nat
  owner_pos : 1 ≤ owner
  amount_pos : 1 ≤ amount
  amount_cap : amount ≤ withdrawCap
  dst_pos : ∀ dst ∈ dstInv, 1 ≤ dst

/-- `VALID_MODES`, with the amount that goes with `amount`. -/
inductive DepositMode
  | sweep
  | amount (n : Nat)
  deriving DecidableEq, Repr

def DepositMode.valid : DepositMode → Bool
  | .sweep => true
  | .amount n => 1 ≤ n

structure Deposit where
  owner : Nat
  mode : DepositMode
  srcInv : Option Nat
  owner_pos : 1 ≤ owner
  mode_ok : mode.valid = true
  src_pos : ∀ src ∈ srcInv, 1 ≤ src

structure PawnMove where
  owner : Nat
  itemId : Nat
  srcStorage : StorageKind
  dstStorage : StorageKind
  idempotencyKey : Nat
  expectedTemplate : Option String
  owner_pos : 1 ≤ owner
  item_pos : 1 ≤ itemId
  storage_pair : srcStorage ≠ dstStorage
  template_ok : ∀ t ∈ expectedTemplate, templateRe t = true

/-- The `RAISE`s of the three transactions, and the answer of the dark file gate. -/
inductive Refusal
  | playerOnline | noBank | noSpace | noCoins
  | insufficientBank (held need : Int)
  | insufficientCoins (held need : Int)
  | idempotencyConflict | noBackpack | itemNotFound | notOwner | moveFailed
  | dstNoSlots | dstFullSlots | dstFullVolume
  | pawnMoveDisabled | writeFailed
  deriving DecidableEq, Repr

def offlineGate (characters : List PlayerState) (now : Nat) : Except Refusal Unit :=
  require (characters.head?.any (offline now) = true) .playerOnline

/-! ## Withdraw -/

/-- The row of `_wd_result`. -/
structure WithdrawResult where
  coinId : Nat
  bankInv : Nat
  amount : Nat
  merged : Bool
  bankBefore : Int
  bankAfter : Option Int
  dstInv : Nat
  dstKind : DstKind
  dstSlot : Int
  deriving DecidableEq, Repr

inductive Fit
  | merge (r : Item)
  | slot (i : Int)
  deriving DecidableEq

def mergeable (items : Items) (inv amount : Nat) : Option Item :=
  pick firstStack ((items.rowsOf inv solarisTemplate).filter
    (fun r => r.stackSize + amount ≤ solarisStackMax))

def emptySlot (items : Items) (inv : Inventory) : Option Int :=
  match inv.maxItemCount with
  | none => some (appendSlot items inv.id)
  | some mic =>
    if mic ≤ 0 then some (appendSlot items inv.id) else firstGap items inv.id mic

def fit (items : Items) (amount : Nat) (inv : Inventory) : Option Fit :=
  match mergeable items inv.id amount with
  | some r => some (.merge r)
  | none => (emptySlot items inv).map .slot

/-- `ORDER BY c.pri ASC, c.inv_id ASC`. -/
def candidateOrder (c d : Candidate) : Prop :=
  c.pri < d.pri ∨ c.pri = d.pri ∧ c.inv.id ≤ d.inv.id

instance : DecidableRel candidateOrder := fun c d => by
  unfold candidateOrder
  infer_instance

def Db.destination (db : Db) (a : Withdraw) : Option (Candidate × Fit) :=
  ((db.deliveryDst a.owner a.dstInv).insertionSort candidateOrder).findSome?
    (fun c => (fit db.game.items a.amount c.inv).map (fun f => (c, f)))

def newStack (inv amount : Nat) (slot : Int) (id : Nat) : Item :=
  { id, inventoryId := some inv, stackSize := amount, positionIndex := slot,
    templateId := solarisTemplate, stats := statsJson, qualityLevel := 0, acquisitionTime := 0,
    isNew := true, volumeOverride := none }

def addCoins (items : Items) (inv amount : Nat) : Fit → Except Refusal (Items × Nat × Int)
  | .merge r =>
    .ok (items.update (fun q => q.id = r.id) (fun q => { q with stackSize := q.stackSize + amount }),
      r.id, r.positionIndex)
  | .slot i =>
    (orRaise (items.insert? (newStack inv amount i)) .writeFailed).map
      (fun items' => (items', items.next, i))

def Fit.merged : Fit → Bool
  | .merge _ => true
  | .slot _ => false

def withdraw (e : Engine) (a : Withdraw) (now : Nat) (db : Db) :
    Except Refusal (WithdrawResult × Db) := do
  offlineGate (db.charactersOf a.owner) now
  let bankInv ← orRaise (db.pawnInventories (db.charactersOf a.owner) 30).head? .noBank
  let bank ← orRaise (db.balances.get? a.owner) (.insufficientBank 0 a.amount)
  require ((a.amount : Int) ≤ bank.balance) (.insufficientBank bank.balance a.amount)
  let (dst, f) ← orRaise (db.destination a) .noSpace
  let (items, coinId, slot) ← addCoins db.game.items dst.inv.id a.amount f
  let balances := e.solaris.adjust db.balances a.owner (-(a.amount : Int))
  pure
    ({ coinId, bankInv := bankInv.id, amount := a.amount, merged := f.merged,
       bankBefore := bank.balance, bankAfter := (balances.get? a.owner).map (·.balance),
       dstInv := dst.inv.id, dstKind := dst.kind, dstSlot := slot },
     { db with game := { db.game with items }, balances })

/-- The row of `_dep_result`. -/
structure DepositResult where
  sweptTotal : Int
  coinCount : Nat
  mode : DepositMode
  bankBefore : Int
  bankAfter : Option Int
  srcInv : Option Nat
  srcKind : Option DstKind
  deriving DecidableEq, Repr

def Db.sourceCoins (db : Db) (a : Deposit) : List Item :=
  (db.game.items.rows.filter
    (fun r => InSet (db.depositSrc a.owner a.srcInv) r ∧ r.templateId = solarisTemplate)).insertionSort
      (fun r s => r.id ≤ s.id)

def consumeStacks (e : Engine) : List Item → Int → Items → Items
  | [], _, items => items
  | r :: rest, remaining, items =>
    if remaining ≤ 0 then items
    else
      let take := min r.stackSize remaining
      consumeStacks e rest (remaining - take) (e.deleteInventoryItem items r.id take)

def consumeCoins (e : Engine) (mode : DepositMode) (rows : List Item) (items : Items) :
    Except Refusal (Int × Items) := do
  let avail := (rows.map (·.stackSize)).sum
  require (avail ≠ 0 ∧ rows ≠ []) .noCoins
  match mode with
  | .sweep => pure (avail, e.deleteItems items (rows.map (·.id)))
  | .amount n => do
    require ((n : Int) ≤ avail) (.insufficientCoins avail n)
    pure (n, consumeStacks e rows n items)

def deposit (e : Engine) (a : Deposit) (now : Nat) (db : Db) :
    Except Refusal (DepositResult × Db) := do
  offlineGate (db.charactersOf a.owner) now
  let rows := db.sourceCoins a
  let (total, items) ← consumeCoins e a.mode rows db.game.items
  let balances := e.solaris.adjust db.balances a.owner total
  let srcKind := a.srcInv.bind (fun src =>
    ((db.deliveryDst a.owner none).find? (fun c => c.inv.id = src)).map (·.kind))
  pure
    ({ sweptTotal := total, coinCount := rows.length, mode := a.mode,
       bankBefore := db.balances.of a.owner,
       bankAfter := (balances.get? a.owner).map (·.balance), srcInv := a.srcInv, srcKind },
     { db with game := { db.game with items }, balances })

/-! ## Pawn move -/

def unitVolume (template : Option String) (volumeOverride : Option ℚ) (vmap : String → Option ℚ) :
    Option ℚ :=
  match volumeOverride with
  | some v => some v
  | none =>
    if template = some solarisTemplate then some 0 else template.bind vmap

/-- What `do_live` computes for the item before it opens the session. -/
def Db.unitVolumeOf (db : Db) (itemId : Nat) (vmap : String → Option ℚ) : Option ℚ :=
  let item := db.game.items.byId? itemId
  unitVolume (item.map (·.templateId)) (item.bind (·.volumeOverride)) vmap

/-- The row of `_pm_result`. -/
structure MoveResult where
  itemId : Nat
  srcInv : Nat
  dstInv : Nat
  srcKind : StorageKind
  dstKind : StorageKind
  firstEmpty : Int
  stackSize : Int
  volumeUnverified : Bool
  replay : Bool
  deriving DecidableEq, Repr

structure MoveRow.Agrees (row : MoveRow) (a : PawnMove) : Prop where
  ownerCtrl : row.ownerCtrl = a.owner
  itemId : row.itemId = a.itemId
  expectedTemplate : row.expectedTemplate = a.expectedTemplate
  srcKind : row.requestedSrcKind = a.srcStorage
  dstKind : row.requestedDstKind = a.dstStorage

instance (row : MoveRow) (a : PawnMove) : Decidable (row.Agrees a) :=
  decidable_of_iff (row.ownerCtrl = a.owner ∧ row.itemId = a.itemId ∧
    row.expectedTemplate = a.expectedTemplate ∧ row.requestedSrcKind = a.srcStorage ∧
    row.requestedDstKind = a.dstStorage)
    ⟨fun ⟨h1, h2, h3, h4, h5⟩ => ⟨h1, h2, h3, h4, h5⟩,
      fun ⟨h1, h2, h3, h4, h5⟩ => ⟨h1, h2, h3, h4, h5⟩⟩

def MoveRow.republish (row : MoveRow) : MoveResult :=
  { itemId := row.itemId, srcInv := row.srcInventoryId, dstInv := row.dstInventoryId,
    srcKind := row.requestedSrcKind, dstKind := row.requestedDstKind,
    firstEmpty := row.dstPositionIndex, stackSize := row.stackSize,
    volumeUnverified := row.volumeUnverified, replay := true }

def Db.pawnStorage (db : Db) (owner : Nat) : Except Refusal (Inventory × Inventory) :=
  match db.pawnInventories (db.liveCharacters owner) 0 with
  | [backpack] =>
    match db.pawnInventories (db.liveCharacters owner) 30 with
    | [bank] => .ok (backpack, bank)
    | _ => .error .noBank
  | _ => .error .noBackpack

/-- The slot gate: here no cap is `-1` alone, and a missing cap leaves no slot. -/
def slotGate (items : Items) (dst : Inventory) : Except Refusal Int :=
  match dst.maxItemCount with
  | none => .error .dstFullSlots
  | some mic =>
    if mic = 0 then .error .dstNoSlots
    else if mic = -1 then .ok (appendSlot items dst.id)
    else orRaise (firstGap items dst.id mic) .dstFullSlots

/-- The cast of a `real` to `bigint`: to the nearest integer, a tie to the even one. -/
def toBigint (q : ℚ) : Int :=
  if q - q.floor < 1 / 2 then q.floor
  else if 1 / 2 < q - q.floor then q.floor + 1
  else if q.floor % 2 = 0 then q.floor
  else q.floor + 1

/-- Whether the fit is unverified, or `dst_full_volume`. -/
def moveVolumeGate (dst : Inventory) (unitVol : Option ℚ) (stackSize : Int) (items : Items) :
    Except Refusal Bool :=
  let cap := (dst.maxItemVolume.map toBigint).getD 0
  if cap ≤ 0 then .ok false
  else
    match unitVol with
    | none => .ok true
    | some v =>
      if (cap : ℚ) < usedVolume items dst.id + v * (stackSize : ℚ) then .error .dstFullVolume
      else .ok false

def srcKindOf (backpack bank : Inventory) (inv : Nat) : Except Refusal StorageKind :=
  if inv = bank.id then .ok .bank
  else if inv = backpack.id then .ok .backpack
  else .error .notOwner

def rehome (items : Items) (itemId src dst : Nat) (position : Int) : Items :=
  items.update (fun r => r.id = itemId ∧ r.inventoryId = some src)
    (fun r => { r with inventoryId := some dst, positionIndex := position, isNew := true })

def relocate (a : PawnMove) (unitVol : Option ℚ) (now : Nat) (db : Db) :
    Except Refusal (MoveResult × Db) := do
  offlineGate (db.liveCharacters a.owner) now
  let (backpack, bank) ← db.pawnStorage a.owner
  let dst := match a.dstStorage with
    | .bank => bank
    | .backpack => backpack
  let item ← orRaise (db.game.items.byId? a.itemId) .itemNotFound
  let srcInv ← orRaise item.inventoryId .itemNotFound
  require (∀ t ∈ a.expectedTemplate, item.templateId = t) .itemNotFound
  let srcKind ← srcKindOf backpack bank srcInv
  require (srcKind = a.srcStorage) .itemNotFound
  require (srcKind ≠ a.dstStorage ∧ srcInv ≠ dst.id) .moveFailed
  let position ← slotGate db.game.items dst
  let unverified ← moveVolumeGate dst unitVol item.stackSize db.game.items
  let row : MoveRow :=
    { idempotencyKey := a.idempotencyKey, ownerCtrl := a.owner, itemId := a.itemId,
      expectedTemplate := a.expectedTemplate, templateId := item.templateId,
      requestedSrcKind := a.srcStorage, requestedDstKind := a.dstStorage,
      srcInventoryId := srcInv, dstInventoryId := dst.id,
      srcPositionIndex := item.positionIndex, dstPositionIndex := position,
      stackSize := item.stackSize, volumeUnverified := unverified }
  let moves ← orRaise (db.moves.insert? row) .writeFailed
  pure
    ({ row.republish with srcKind, replay := false },
     { db with
       game := { db.game with items := rehome db.game.items a.itemId srcInv dst.id position }
       moves })

/-- `build_pawn_move_sql`. -/
def pawnMoveTxn (a : PawnMove) (unitVol : Option ℚ) (now : Nat) (db : Db) :
    Except Refusal (MoveResult × Db) :=
  match db.moves.get? a.idempotencyKey with
  | some row => if row.Agrees a then .ok (row.republish, db) else .error .idempotencyConflict
  | none => relocate a unitVol now db

/-- A live `pawn_move`: the file gate, the volume of the item, the transaction. -/
def pawnMove (a : PawnMove) (enabled : Bool) (vmap : String → Option ℚ) (now : Nat) (db : Db) :
    Except Refusal (MoveResult × Db) := do
  require (enabled = true) .pawnMoveDisabled
  pawnMoveTxn a (db.unitVolumeOf a.itemId vmap) now db

inductive Op
  | withdraw (a : Withdraw) (now : Nat)
  | deposit (a : Deposit) (now : Nat)
  | pawnMove (a : PawnMove) (enabled : Bool) (vmap : String → Option ℚ) (now : Nat)

inductive Answer
  | withdrawn (r : WithdrawResult)
  | deposited (r : DepositResult)
  | moved (r : MoveResult)
  deriving DecidableEq, Repr

def Op.owner : Op → Nat
  | .withdraw a _ => a.owner
  | .deposit a _ => a.owner
  | .pawnMove a _ _ _ => a.owner

def Op.exec (e : Engine) (op : Op) (db : Db) : Except Refusal (Answer × Db) :=
  match op with
  | .withdraw a now => (Storage.withdraw e a now db).map (fun p => (.withdrawn p.1, p.2))
  | .deposit a now => (Storage.deposit e a now db).map (fun p => (.deposited p.1, p.2))
  | .pawnMove a enabled vmap now =>
    (Storage.pawnMove a enabled vmap now db).map (fun p => (.moved p.1, p.2))

/-- `COMMIT`, or the rollback of a raise. -/
def Op.run (e : Engine) (op : Op) (db : Db) : Except Refusal Answer × Db :=
  match op.exec e db with
  | .error refusal => (.error refusal, db)
  | .ok (answer, db') => (.ok answer, db')

end LastSietch.Storage
