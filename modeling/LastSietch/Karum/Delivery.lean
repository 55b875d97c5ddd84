import LastSietch.Karum.Tables

/-!
# The delivery transaction

`buildDeliveryTxn` is the transaction that `build_delivery_txn` emits. Transaction B of
a purchase and of a wanted-order fill, a cancellation and the two operator verbs
force-deliver and force-return all end in it. It adopts the escrowed item row of a
listing into one exchange order and closes the escrow row.

The transaction commits in one of four ways (`Delivery`): it hands the item over, it
records that the item is gone, or it does nothing, because the escrow has been closed
before or because its correlation id is in the delivery log already.
`buildDeliveryTxn_spec` is the case analysis that every later proof uses.
-/

namespace LastSietch.Karum

inductive Role
  | buyer | seller
  deriving DecidableEq, Repr

inductive EndState
  | delivered | returned
  deriving DecidableEq, Repr

def EndState.state : EndState → EscrowState
  | .delivered => .delivered
  | .returned => .returned

theorem EndState.state_ne_held (s : EndState) : s.state ≠ .held := by
  cases s <;> decide

structure DeliveryArgs where
  corr : Corr
  listingId : Nat
  targetAcct : Nat
  role : Role
  endState : EndState
  price : Nat
  targetCtrl : Option Nat
  deriving DecidableEq, Repr

/-- `_dlv_result.state`. -/
inductive DeliveryState
  | applied | replay | escrowMissing
  deriving DecidableEq, Repr

/-- The row of `_dlv_result`. -/
structure DeliveryResult where
  state : DeliveryState
  orderId : Option Nat
  itemId : Nat
  escrowId : Nat
  stackSize : Option Nat
  deriving DecidableEq, Repr

structure Recipient where
  ctrl : Nat
  flsId : Option String
  actorId : Option Nat
  deriving DecidableEq, Repr

/-- The recipient of the give: the account's latest live character with a controller,
pinned to `ctrl` when one is given. -/
def World.recipient (w : World) (acct : Nat) (ctrl : Option Nat) : Option Recipient :=
  let rows := (w.liveCharacters acct).filter
    (fun p => p.playerControllerId.isSome && (ctrl.isNone || p.playerControllerId == ctrl))
  let joined := rows.flatMap (fun p =>
    (w.accounts.filter (fun acc => acc.id = p.accountId)).map (fun acc => (p, acc)))
  (pick (fun a b => moreRecent a.1 b.1) joined).bind (fun a =>
    a.1.playerControllerId.map (fun c => ⟨c, a.2.user, a.1.playerPawnId⟩))

/-- `WHERE listing_id = l AND state = 'held' ORDER BY id DESC LIMIT 1`. -/
def heldEscrow (t : Escrow) (listing : Nat) : Option EscrowRow :=
  t.rows.find? (fun e => e.listingId = listing ∧ e.state = .held)

/-- `WHERE listing_id = l ORDER BY id DESC LIMIT 1`. -/
def lastEscrow (t : Escrow) (listing : Nat) : Option EscrowRow :=
  t.rows.find? (fun e => e.listingId = listing)

/-- `stack_size` of the item where the escrow row says it is. -/
def World.stackInEscrow (w : World) (e : EscrowRow) : Option Nat :=
  ((w.items.get? e.itemId).filter (·.inventoryId = e.inventoryId)).bind (·.stackSize)

def World.deliveryCategory (w : World) (e : EscrowRow) : Option (Int × Option Int) :=
  match e.categoryMask with
  | some m => if m ≠ 0 then some (m, e.categoryDepth) else live
  | none => live
where
  live : Option (Int × Option Int) := (w.modalCategory e.templateId).map (fun c => (c.1, some c.2))

def EscrowRow.close (e : EscrowRow) (state : EscrowState) (buyer order : Option Nat)
    (now : Nat) : EscrowRow :=
  { e with state := state, buyerCtrl := buyer, orderId := order, closedAt := some now }

def closeEscrow (t : Escrow) (id now : Nat) (state : EscrowState) (buyer order : Option Nat) :
    Escrow :=
  t.update (fun e => e.id = id) (·.close state buyer order now)

def EscrowRow.missing (e : EscrowRow) (now : Nat) : EscrowRow :=
  { e with state := .reconciledMissing, closedAt := some now }

def markMissing (t : Escrow) (id now : Nat) : Escrow :=
  t.update (fun e => e.id = id) (·.missing now)

variable {t : Escrow}

theorem mem_closeEscrow {id now : Nat} {state : EscrowState}
    {buyer order : Option Nat} {g : EscrowRow} :
    g ∈ closeEscrow t id now state buyer order ↔
      ∃ e ∈ t, g = if e.id = id then e.close state buyer order now else e := by
  refine Iff.trans SerialTable.mem_update ?_
  simp only [decide_eq_true_eq]

theorem mem_markMissing {id now : Nat} {g : EscrowRow} :
    g ∈ markMissing t id now ↔ ∃ e ∈ t, g = if e.id = id then e.missing now else e := by
  refine Iff.trans SerialTable.mem_update ?_
  simp only [decide_eq_true_eq]

def claimOrder (a : DeliveryArgs) (e : EscrowRow) (ctrl : Nat) (mask depth expiry : Int)
    (id : Nat) : ExchangeOrder :=
  { id, exchangeId, ownerId := ctrl, itemId := e.itemId, templateId := e.templateId,
    categoryMask := mask, categoryDepth := depth, accessPointId := accessPoint,
    isNpcOrder := false, itemPrice := a.price, expirationTime := expiry,
    qualityLevel := e.qualityLevel }

def deliveryRow (a : DeliveryArgs) (e : EscrowRow) (who : Recipient) (stack id : Nat) :
    DeliveryRow :=
  { id, correlationId := a.corr, accountId := a.targetAcct, flsId := who.flsId,
    actorId := who.actorId, templateId := e.templateId, quantity := stack,
    qualityLevel := e.qualityLevel, observedItemId := e.itemId }

def handOver (a : DeliveryArgs) (e : EscrowRow) (who : Recipient) (stack : Nat)
    (orders : ExchangeOrders) (log : DeliveryLog) (db : GameDb) : GameDb :=
  let order := db.world.orders.next
  { db with
    world := { db.world with
      orders
      fulfilled := ⟨order, completionType, stack, order⟩ :: db.world.fulfilled }
    deliveryLog := log
    escrow := closeEscrow db.escrow e.id db.world.now a.endState.state
      (if a.role = .buyer then some who.ctrl else none) (some order) }

def buildDeliveryTxn (a : DeliveryArgs) (db : GameDb) :
    Except Token (Option DeliveryResult × GameDb) := do
  let who ← orRaise (db.world.recipient a.targetAcct a.targetCtrl) .noCharacter
  match heldEscrow db.escrow a.listingId with
  | none =>
    -- settled before (the ordinary replay), or never escrowed
    require (db.deliveryLog.get? a.corr).isSome .escrowMissing
    .ok ((lastEscrow db.escrow a.listingId).map
      (fun e => ⟨.replay, e.orderId, e.itemId, e.id, some e.stackSize⟩), db)
  | some e =>
    match db.world.stackInEscrow e with
    | none =>
      -- recorded and committed, not raised
      .ok (some ⟨.escrowMissing, none, e.itemId, e.id, none⟩,
        { db with escrow := markMissing db.escrow e.id db.world.now })
    | some stack =>
      let category ← orRaise (db.world.deliveryCategory e) .noCategory
      let farm ← orRaise db.world.farmSeconds .noGameClock
      match db.deliveryLog.insert? (deliveryRow a e who stack) with
      | none => .ok (some ⟨.replay, e.orderId, e.itemId, e.id, some stack⟩, db)
      | some log =>
        -- `category_depth` is NOT NULL on an order
        let depth ← orRaise category.2 .writeFailed
        let expiry := farm + claimExpiryDays * 86400
        let orders ← orRaise (db.world.orders.insert?
          (claimOrder a e who.ctrl category.1 depth expiry)) .writeFailed
        .ok (some ⟨.applied, some db.world.orders.next, e.itemId, e.id, some stack⟩,
          handOver a e who stack orders log db)

/-! ## The four ways to commit -/

theorem heldEscrow_some {listing : Nat} {e : EscrowRow}
    (h : heldEscrow t listing = some e) : e ∈ t ∧ e.listingId = listing ∧ e.state = .held := by
  have hp := List.find?_some h
  simp only [decide_eq_true_eq] at hp
  exact ⟨List.mem_of_find?_eq_some h, hp⟩

theorem heldEscrow_none {listing : Nat} :
    heldEscrow t listing = none ↔ ∀ e ∈ t, e.listingId = listing → e.state ≠ .held := by
  simp [heldEscrow, List.find?_eq_none, SerialTable.mem_def]

theorem lastEscrow_some {listing : Nat} {e : EscrowRow}
    (h : lastEscrow t listing = some e) : e ∈ t ∧ e.listingId = listing := by
  have hp := List.find?_some h
  simp only [decide_eq_true_eq] at hp
  exact ⟨List.mem_of_find?_eq_some h, hp⟩

inductive Delivery (a : DeliveryArgs) (db : GameDb) : Option DeliveryResult → GameDb → Prop
  | settled (hnone : heldEscrow db.escrow a.listingId = none)
      (hlog : (db.deliveryLog.get? a.corr).isSome) (r : Option DeliveryResult)
      (hr : r = (lastEscrow db.escrow a.listingId).map
        (fun e => ⟨.replay, e.orderId, e.itemId, e.id, some e.stackSize⟩)) :
      Delivery a db r db
  | missing (e : EscrowRow) (he : heldEscrow db.escrow a.listingId = some e)
      (hstack : db.world.stackInEscrow e = none) :
      Delivery a db (some ⟨.escrowMissing, none, e.itemId, e.id, none⟩)
        { db with escrow := markMissing db.escrow e.id db.world.now }
  | logged (e : EscrowRow) (he : heldEscrow db.escrow a.listingId = some e)
      (hlog : ∃ d ∈ db.deliveryLog, d.correlationId = a.corr) (stack : Nat)
      (hstack : db.world.stackInEscrow e = some stack) :
      Delivery a db (some ⟨.replay, e.orderId, e.itemId, e.id, some stack⟩) db
  | handed (e : EscrowRow) (who : Recipient) (stack : Nat) (mask depth expiry : Int)
      (orders : ExchangeOrders) (log : DeliveryLog)
      (he : heldEscrow db.escrow a.listingId = some e)
      (hstack : db.world.stackInEscrow e = some stack)
      (hlog : db.deliveryLog.insert? (deliveryRow a e who stack) = some log)
      (horders : db.world.orders.insert? (claimOrder a e who.ctrl mask depth expiry) =
        some orders) :
      Delivery a db (some ⟨.applied, some db.world.orders.next, e.itemId, e.id, some stack⟩)
        (handOver a e who stack orders log db)

theorem buildDeliveryTxn_spec {a : DeliveryArgs} {db db' : GameDb} {r : Option DeliveryResult}
    (h : buildDeliveryTxn a db = .ok (r, db')) : Delivery a db r db' := by
  simp only [buildDeliveryTxn, bind_eq_ok, orRaise_eq_ok] at h
  obtain ⟨who, -, h⟩ := h
  split at h
  · rename_i hnone
    simp only [bind_eq_ok, require_eq_ok] at h
    obtain ⟨_, hlog, h⟩ := h
    cases h
    exact .settled hnone hlog _ rfl
  · rename_i e he
    split at h
    · rename_i hstack
      cases h
      exact .missing e he hstack
    · rename_i stack hstack
      simp only [bind_eq_ok, orRaise_eq_ok] at h
      obtain ⟨category, -, farm, -, h⟩ := h
      split at h
      · rename_i hlog
        cases h
        exact .logged e he (SerialTable.insert?_eq_none.mp hlog) stack hstack
      · rename_i log hlog
        simp only [bind_eq_ok, orRaise_eq_ok] at h
        obtain ⟨depth, -, orders, horders, h⟩ := h
        cases h
        exact .handed e who stack category.1 depth _ orders log he hstack hlog horders

end LastSietch.Karum
