import LastSietch.Karum.Take
import LastSietch.Karum.Delivery

/-!
# The writer's transactions

The transactions of `dune-karum-op.sh` apart from the delivery: the escrow leg of a
listing (`opList`), the payment of a purchase (`opBuy`), the take and payment of a
wanted-order fill (`opFill`) and the operator's refund (`opRefund`). Each one opens a
gate, an insertion into a ledger with a unique correlation id, and does its work only
when the insertion was new: the result is `is_new`.

The game's procedure that moves Solari is not part of the writer. `SolarisProc` is that
procedure together with what the writer relies on: it adds `delta` to one balance.

* `Txn`, `Txn.run`, `commit`: one transaction as a step on the game database, where a
  raise leaves the database as it was.
-/

namespace LastSietch.Karum

/-- `adjust_player_virtual_currency_balance`. -/
structure SolarisProc where
  adjust : Balances → Nat → Int → Balances
  of_adjust : ∀ (b : Balances) (ctrl : Nat) (delta : Int) (c : Nat),
    (adjust b ctrl delta).of c = if c = ctrl then b.of c + delta else b.of c

structure ListArgs where
  corr : Corr
  listingId : Nat
  sellerAccountId : Nat
  itemId : Nat
  templateId : String
  src : TakeSource
  deriving DecidableEq, Repr

def ListArgs.take (a : ListArgs) : TakeArgs :=
  { itemId := a.itemId, ownerAccountId := a.sellerAccountId, dst := .exchange, src := a.src,
    expectedTemplate := some a.templateId, expectedQuality := none, qualityMode := .exact,
    ownerCtrl := none, minPosition := positionBase }

def escrowGate (corr : Corr) (listing item inv seller ctrl : Nat) (template : String)
    (category : Option (Int × Int)) (now id : Nat) : EscrowRow :=
  { id, correlationId := corr, listingId := listing, itemId := item, inventoryId := inv,
    sellerAccountId := seller, sellerCtrl := ctrl, templateId := template, stackSize := 0,
    qualityLevel := 0, categoryMask := category.map (·.1), categoryDepth := category.map (·.2),
    state := .held, buyerCtrl := none, orderId := none, heldAt := now, closedAt := none }

/-- The gate row filled in from what the take published. Both callers store the seller's
controller in the gate row already, so that column keeps its value. -/
def EscrowRow.backfill (e : EscrowRow) (r : TakeResult) (stack : Nat) (quality : Int) :
    EscrowRow :=
  { e with itemId := r.itemId, inventoryId := r.dstInv, templateId := r.templateId,
           stackSize := stack, qualityLevel := quality }

def GameDb.listingsToday (db : GameDb) (seller : Nat) : Nat :=
  (db.escrow.rows.filter
    (fun e => e.sellerAccountId = seller ∧ db.world.withinDay e.heldAt)).length

def opList (a : ListArgs) (db : GameDb) : Except Token (Bool × GameDb) := do
  let ctrl ← orRaise (db.world.sellerController a.sellerAccountId) .noCharacter
  -- `inventory_id` is NOT NULL, which is checked before the conflict on the gate
  let inv ← orRaise db.world.exchangeInventory .writeFailed
  let category := db.world.modalCategory a.templateId
  match db.escrow.insert? (escrowGate a.corr a.listingId a.itemId inv a.sellerAccountId ctrl
      a.templateId category db.world.now) with
  | none => .ok (false, db)
  | some escrow =>
    require category.isSome .noCategory
    require (db.listingsToday a.sellerAccountId < maxListingsPerDay) .rateLimited
    let (r, world) ← karumTakeItem a.take db.world
    let stack ← orRaise r.stackSize .writeFailed
    let quality ← orRaise r.qualityLevel .writeFailed
    .ok (true, { db with
      world
      escrow := escrow.update (fun e => e.id = db.escrow.next) (·.backfill r stack quality) })

structure BuyArgs where
  corr : Corr
  listingId : Nat
  buyerAccountId : Nat
  sellerAccountId : Nat
  amount : Nat
  deriving DecidableEq, Repr

def paymentGate (corr : Corr) (listing buyer seller amount : Nat) (detail : PaymentDetail)
    (now id : Nat) : PaymentRow :=
  { id, correlationId := corr.uuid, listingId := listing, buyerAccountId := buyer,
    sellerAccountId := seller, amount, buyerBalanceBefore := none, sellerBalanceBefore := none,
    status := .applied, detail, appliedAt := now, reversedAt := none, reversalCorrId := none }

def PaymentRow.before (p : PaymentRow) (buyer seller : Int) : PaymentRow :=
  { p with buyerBalanceBefore := some buyer, sellerBalanceBefore := some seller }

def GameDb.pairToday (db : GameDb) (buyer seller : Nat) : Nat :=
  (db.payments.rows.filter (fun p => p.buyerAccountId = buyer ∧ p.sellerAccountId = seller ∧
    p.status = .applied ∧ db.world.withinDay p.appliedAt)).length

/-- The two adjusts: `amount` from `payer` to `payee`. -/
def SolarisProc.transfer (proc : SolarisProc) (b : Balances) (payer payee amount : Nat) :
    Balances :=
  proc.adjust (proc.adjust b payer (-(amount : Int))) payee amount

def opBuy (proc : SolarisProc) (a : BuyArgs) (db : GameDb) : Except Token (Bool × GameDb) :=
  match db.payments.insert? (paymentGate a.corr a.listingId a.buyerAccountId a.sellerAccountId
      a.amount .karumBuy db.world.now) with
  | none => .ok (false, db)
  | some payments => do
    let buyer ← orRaise (db.world.latestController a.buyerAccountId) .noCharacter
    let seller ← orRaise (db.world.latestController a.sellerAccountId) .noCharacter
    require (buyer ≠ seller) .selfTrade
    let buyerBal := db.world.balances.of buyer
    let sellerBal := db.world.balances.of seller
    require ((a.amount : Int) ≤ buyerBal) .insufficientFunds
    require (db.pairToday a.buyerAccountId a.sellerAccountId < maxPairPerDay) .rateLimited
    .ok (true, { db with
      payments := payments.update (fun p => p.id = db.payments.next) (·.before buyerBal sellerBal)
      world := { db.world with balances := proc.transfer db.world.balances buyer seller a.amount } })

/-! ## The take and payment of a wanted-order fill -/

structure FillArgs where
  corr : Corr
  takeCorr : Corr
  requestId : Nat
  listingId : Nat
  buyerAccountId : Nat
  buyerCtrl : Nat
  sellerAccountId : Nat
  sellerCtrl : Nat
  itemId : Nat
  templateId : String
  stackSize : Nat
  amount : Nat
  src : TakeSource
  expectedQuality : Option Int
  qualityMode : QualityMode
  deriving DecidableEq, Repr

def FillArgs.take (a : FillArgs) : TakeArgs :=
  { itemId := a.itemId, ownerAccountId := a.sellerAccountId, dst := .exchange, src := a.src,
    expectedTemplate := some a.templateId, expectedQuality := a.expectedQuality,
    qualityMode := a.qualityMode, ownerCtrl := some a.sellerCtrl, minPosition := positionBase }

def FillArgs.matches (a : FillArgs) (e : EscrowRow) (p : PaymentRow) : Prop :=
  e.listingId = a.listingId ∧ e.itemId = a.itemId ∧ e.sellerAccountId = a.sellerAccountId ∧
    e.templateId = a.templateId ∧ p.listingId = a.listingId ∧
    p.buyerAccountId = a.buyerAccountId ∧ p.sellerAccountId = a.sellerAccountId ∧
    p.amount = a.amount

instance (a : FillArgs) (e : EscrowRow) (p : PaymentRow) : Decidable (a.matches e p) := by
  unfold FillArgs.matches
  infer_instance

def opFill (proc : SolarisProc) (a : FillArgs) (db : GameDb) : Except Token (Bool × GameDb) := do
  let seller ← orRaise (db.world.exactController a.sellerAccountId a.sellerCtrl) .noCharacter
  let buyer ← orRaise (db.world.exactController a.buyerAccountId a.buyerCtrl) .noCharacter
  require (seller ≠ buyer) .selfTrade
  let inv ← orRaise db.world.exchangeInventory .writeFailed
  let category := db.world.modalCategory a.templateId
  match db.escrow.insert? (escrowGate a.takeCorr a.listingId a.itemId inv a.sellerAccountId
      a.sellerCtrl a.templateId category db.world.now),
    db.payments.insert? (paymentGate a.corr a.listingId a.buyerAccountId a.sellerAccountId
      a.amount (.karumFill a.requestId) db.world.now) with
  | none, none =>
    let e ← orRaise (db.escrow.get? a.takeCorr) .writeFailed
    let p ← orRaise (db.payments.get? a.corr.uuid) .writeFailed
    require (a.matches e p) .alreadySettled
    .ok (false, db)
  | some escrow, some payments =>
    -- the rows this transaction has just inserted carry its own facts
    require category.isSome .noCategory
    require (db.listingsToday a.sellerAccountId < maxListingsPerDay) .rateLimited
    require (db.pairToday a.buyerAccountId a.sellerAccountId < maxPairPerDay) .rateLimited
    let (r, world) ← karumTakeItem a.take db.world
    let stack ← orRaise r.stackSize .writeFailed
    require (stack = a.stackSize) .quantityMismatch
    let quality ← orRaise r.qualityLevel .writeFailed
    let buyerBal := world.balances.of a.buyerCtrl
    let sellerBal := world.balances.of a.sellerCtrl
    require ((a.amount : Int) ≤ buyerBal) .insufficientFunds
    .ok (true, { db with
      escrow := escrow.update (fun e => e.id = db.escrow.next) (·.backfill r stack quality)
      payments := payments.update (fun p => p.id = db.payments.next) (·.before buyerBal sellerBal)
      world := { world with
        balances := proc.transfer world.balances a.buyerCtrl a.sellerCtrl a.amount } })
  | _, _ => .error .alreadySettled

structure RefundArgs where
  corr : Corr
  listingId : Nat
  buyerAccountId : Nat
  sellerAccountId : Nat
  amount : Nat
  originalCorr : Corr
  deriving DecidableEq, Repr

def PaymentRow.reversed (p : PaymentRow) (now reversal : Nat) : PaymentRow :=
  { p with status := .reversed, reversedAt := some now, reversalCorrId := some reversal }

def stampReversed (t : Payments) (original now reversal : Nat) : Payments :=
  t.update (fun p => p.correlationId = original) (·.reversed now reversal)

theorem mem_stampReversed {t : Payments} {original now reversal : Nat} {q : PaymentRow} :
    q ∈ stampReversed t original now reversal ↔
      ∃ p ∈ t, q = if p.correlationId = original then p.reversed now reversal else p := by
  refine Iff.trans SerialTable.mem_update ?_
  simp only [decide_eq_true_eq]

def opRefund (proc : SolarisProc) (a : RefundArgs) (db : GameDb) :
    Except Token (Bool × GameDb) :=
  match db.payments.insert? (paymentGate a.corr a.listingId a.buyerAccountId a.sellerAccountId
      a.amount (.karumRefund a.originalCorr) db.world.now) with
  | none => .ok (false, db)
  | some payments => do
    let buyer ← orRaise (db.world.latestController a.buyerAccountId) .noCharacter
    let seller ← orRaise (db.world.latestController a.sellerAccountId) .noCharacter
    .ok (true, { db with
      payments := stampReversed payments a.originalCorr.uuid db.world.now a.corr.uuid
      world := { db.world with balances := proc.transfer db.world.balances seller buyer a.amount } })

inductive Txn
  | list (a : ListArgs)
  | pay (a : BuyArgs)
  | fill (a : FillArgs)
  | deliver (a : DeliveryArgs)
  | refund (a : RefundArgs)
  deriving DecidableEq, Repr

inductive TxnResult
  | gate (new : Bool)
  | delivery (r : Option DeliveryResult)
  deriving DecidableEq, Repr

def Txn.run (proc : SolarisProc) : Txn → GameDb → Except Token (TxnResult × GameDb)
  | .list a, db => (opList a db).map (fun r => (.gate r.1, r.2))
  | .pay a, db => (opBuy proc a db).map (fun r => (.gate r.1, r.2))
  | .fill a, db => (opFill proc a db).map (fun r => (.gate r.1, r.2))
  | .deliver a, db => (buildDeliveryTxn a db).map (fun r => (.delivery r.1, r.2))
  | .refund a, db => (opRefund proc a db).map (fun r => (.gate r.1, r.2))

def commit (proc : SolarisProc) (t : Txn) (db : GameDb) : GameDb :=
  match t.run proc db with
  | .ok r => r.2
  | .error _ => db

/-! ## The ways to commit -/

structure Held (e : EscrowRow) (corr : Corr) (listing item seller : Nat) (template : String) :
    Prop where
  correlationId : e.correlationId = corr
  listingId : e.listingId = listing
  itemId : e.itemId = item
  sellerAccountId : e.sellerAccountId = seller
  templateId : e.templateId = template
  state : e.state = .held
  orderId : e.orderId = none

theorem held_backfill {a : TakeArgs} {w w' : World} {r : TakeResult} {corr : Corr}
    {listing seller inv ctrl now id stack : Nat} {quality : Int} {template : String}
    {category : Option (Int × Int)} (htake : karumTakeItem a w = .ok (r, w'))
    (htpl : a.expectedTemplate = some template) :
    Held ((escrowGate corr listing a.itemId inv seller ctrl template category now id).backfill
      r stack quality) corr listing a.itemId seller template := by
  obtain ⟨item, -, -, -, hid, hrtpl, -, -, hexp, -⟩ := karumTakeItem_spec htake
  have hitem : item.templateId = template := by
    rcases hexp with hexp | hexp
    · rw [htpl] at hexp
      cases hexp
    · rw [htpl] at hexp
      exact (Option.some.inj hexp).symm
  exact ⟨rfl, rfl, hid, rfl, hrtpl.trans hitem, rfl, rfl⟩

structure Paid (p : PaymentRow) (corr : Corr) (listing buyer seller amount : Nat)
    (detail : PaymentDetail) : Prop where
  correlationId : p.correlationId = corr.uuid
  listingId : p.listingId = listing
  buyerAccountId : p.buyerAccountId = buyer
  sellerAccountId : p.sellerAccountId = seller
  amount : p.amount = amount
  detail : p.detail = detail
  status : p.status = .applied

/-- How a transaction commits. A replay changes nothing. Otherwise the ledgers have one
more row, which carries the facts of the request, and the world has moved with it. -/
inductive Effect (proc : SolarisProc) (db : GameDb) : Txn → TxnResult → GameDb → Prop
  | listReplay (a : ListArgs) (e : EscrowRow) (he : e ∈ db.escrow)
      (hcorr : e.correlationId = a.corr) : Effect proc db (.list a) (.gate false) db
  | listed (a : ListArgs) (e : EscrowRow) (escrow : Escrow) (res : TakeResult) (world : World)
      (htake : karumTakeItem a.take db.world = .ok (res, world))
      (hheld : Held e a.corr a.listingId a.itemId a.sellerAccountId a.templateId)
      (hid : e.id = db.escrow.next) (hrows : escrow.rows = e :: db.escrow.rows) :
      Effect proc db (.list a) (.gate true) { db with world, escrow }
  | payReplay (a : BuyArgs) (p : PaymentRow) (hp : p ∈ db.payments)
      (hcorr : p.correlationId = a.corr.uuid) : Effect proc db (.pay a) (.gate false) db
  | paid (a : BuyArgs) (p : PaymentRow) (payments : Payments) (buyer seller : Nat)
      (hpaid : Paid p a.corr a.listingId a.buyerAccountId a.sellerAccountId a.amount .karumBuy)
      (hid : p.id = db.payments.next) (hrows : payments.rows = p :: db.payments.rows)
      (hbuyer : db.world.latestController a.buyerAccountId = some buyer)
      (hseller : db.world.latestController a.sellerAccountId = some seller)
      (hfunds : (a.amount : Int) ≤ db.world.balances.of buyer) :
      Effect proc db (.pay a) (.gate true) { db with
        payments
        world := { db.world with
          balances := proc.transfer db.world.balances buyer seller a.amount } }
  | fillReplay (a : FillArgs) (e : EscrowRow) (p : PaymentRow) (he : e ∈ db.escrow)
      (hp : p ∈ db.payments) (hecorr : e.correlationId = a.takeCorr)
      (hpcorr : p.correlationId = a.corr.uuid) (hmatch : a.matches e p) :
      Effect proc db (.fill a) (.gate false) db
  | filled (a : FillArgs) (e : EscrowRow) (escrow : Escrow) (p : PaymentRow)
      (payments : Payments) (res : TakeResult) (world : World)
      (htake : karumTakeItem a.take db.world = .ok (res, world))
      (hheld : Held e a.takeCorr a.listingId a.itemId a.sellerAccountId a.templateId)
      (heid : e.id = db.escrow.next) (herows : escrow.rows = e :: db.escrow.rows)
      (hpaid : Paid p a.corr a.listingId a.buyerAccountId a.sellerAccountId a.amount
        (.karumFill a.requestId))
      (hpid : p.id = db.payments.next) (hprows : payments.rows = p :: db.payments.rows)
      (hbuyer : db.world.exactController a.buyerAccountId a.buyerCtrl = some a.buyerCtrl)
      (hseller : db.world.exactController a.sellerAccountId a.sellerCtrl = some a.sellerCtrl)
      (hfunds : (a.amount : Int) ≤ world.balances.of a.buyerCtrl) :
      Effect proc db (.fill a) (.gate true) { db with
        escrow, payments
        world := { world with
          balances := proc.transfer world.balances a.buyerCtrl a.sellerCtrl a.amount } }
  | refundReplay (a : RefundArgs) (p : PaymentRow) (hp : p ∈ db.payments)
      (hcorr : p.correlationId = a.corr.uuid) : Effect proc db (.refund a) (.gate false) db
  | refunded (a : RefundArgs) (p : PaymentRow) (payments : Payments) (buyer seller : Nat)
      (hpaid : Paid p a.corr a.listingId a.buyerAccountId a.sellerAccountId a.amount
        (.karumRefund a.originalCorr))
      (hid : p.id = db.payments.next) (hrows : payments.rows = p :: db.payments.rows)
      (hbuyer : db.world.latestController a.buyerAccountId = some buyer)
      (hseller : db.world.latestController a.sellerAccountId = some seller) :
      Effect proc db (.refund a) (.gate true) { db with
        payments := stampReversed payments a.originalCorr.uuid db.world.now a.corr.uuid
        world := { db.world with
          balances := proc.transfer db.world.balances seller buyer a.amount } }
  | delivered (a : DeliveryArgs) (res : Option DeliveryResult) (db' : GameDb)
      (hdlv : Delivery a db res db') : Effect proc db (.deliver a) (.delivery res) db'

section Specs

variable {proc : SolarisProc} {db db' : GameDb} {new : Bool}

theorem opList_spec {a : ListArgs} (h : opList a db = .ok (new, db')) :
    Effect proc db (.list a) (.gate new) db' := by
  simp only [opList, bind_eq_ok, orRaise_eq_ok] at h
  obtain ⟨ctrl, -, inv, -, h⟩ := h
  split at h
  · rename_i hgate
    cases h
    obtain ⟨e, he, hk⟩ := SerialTable.insert?_eq_none.mp hgate
    exact .listReplay a e he hk
  · rename_i escrow hgate
    simp only [bind_eq_ok, require_eq_ok, orRaise_eq_ok] at h
    obtain ⟨_, -, _, -, ⟨res, world⟩, htake, stack, -, quality, -, h⟩ := h
    cases h
    exact .listed a _ _ res world htake (held_backfill htake rfl) rfl
      (SerialTable.rows_update_insert? hgate)

theorem opBuy_spec {a : BuyArgs} (h : opBuy proc a db = .ok (new, db')) :
    Effect proc db (.pay a) (.gate new) db' := by
  simp only [opBuy] at h
  split at h
  · rename_i hgate
    cases h
    obtain ⟨p, hp, hk⟩ := SerialTable.insert?_eq_none.mp hgate
    exact .payReplay a p hp hk
  · rename_i payments hgate
    simp only [bind_eq_ok, require_eq_ok, orRaise_eq_ok] at h
    obtain ⟨buyer, hbuyer, seller, hseller, _, -, _, hfunds, _, -, h⟩ := h
    cases h
    exact .paid a _ _ buyer seller ⟨rfl, rfl, rfl, rfl, rfl, rfl, rfl⟩ rfl
      (SerialTable.rows_update_insert? hgate) hbuyer hseller hfunds

theorem exactController_eq {w : World} {acct ctrl c : Nat}
    (h : w.exactController acct ctrl = some c) : w.exactController acct ctrl = some ctrl := by
  unfold World.exactController at h ⊢
  split at h
  · rename_i hany
    rw [if_pos hany]
  · cases h

theorem opFill_spec {a : FillArgs} (h : opFill proc a db = .ok (new, db')) :
    Effect proc db (.fill a) (.gate new) db' := by
  simp only [opFill, bind_eq_ok, orRaise_eq_ok, require_eq_ok] at h
  obtain ⟨seller, hseller, buyer, hbuyer, _, -, inv, -, h⟩ := h
  split at h
  · simp only [bind_eq_ok, orRaise_eq_ok, require_eq_ok] at h
    obtain ⟨e, he, p, hp, _, hmatch, h⟩ := h
    cases h
    obtain ⟨he, hek⟩ := SerialTable.get?_eq_some.mp he
    obtain ⟨hp, hpk⟩ := SerialTable.get?_eq_some.mp hp
    exact .fillReplay a e p he hp hek hpk hmatch
  · rename_i escrow payments hescrow hpayments
    simp only [bind_eq_ok, orRaise_eq_ok, require_eq_ok] at h
    obtain ⟨_, -, _, -, _, -, ⟨res, world⟩, htake, stack, -, _, -, quality, -, _, hfunds, h⟩ := h
    cases h
    exact .filled a _ _ _ _ res world htake (held_backfill htake rfl) rfl
      (SerialTable.rows_update_insert? hescrow) ⟨rfl, rfl, rfl, rfl, rfl, rfl, rfl⟩ rfl
      (SerialTable.rows_update_insert? hpayments) (exactController_eq hbuyer)
      (exactController_eq hseller) hfunds
  · cases h

theorem opRefund_spec {a : RefundArgs} (h : opRefund proc a db = .ok (new, db')) :
    Effect proc db (.refund a) (.gate new) db' := by
  simp only [opRefund] at h
  split at h
  · rename_i hgate
    cases h
    obtain ⟨p, hp, hk⟩ := SerialTable.insert?_eq_none.mp hgate
    exact .refundReplay a p hp hk
  · rename_i payments hgate
    simp only [bind_eq_ok, orRaise_eq_ok] at h
    obtain ⟨buyer, hbuyer, seller, hseller, h⟩ := h
    cases h
    exact .refunded a _ payments buyer seller ⟨rfl, rfl, rfl, rfl, rfl, rfl, rfl⟩ rfl
      (SerialTable.rows_insert? hgate).1 hbuyer hseller

theorem Txn.run_spec {t : Txn} {res : TxnResult} (h : t.run proc db = .ok (res, db')) :
    Effect proc db t res db' := by
  cases t with
  | list a =>
    obtain ⟨⟨new, db''⟩, hok, heq⟩ := map_eq_ok.mp h
    cases heq
    exact opList_spec hok
  | pay a =>
    obtain ⟨⟨new, db''⟩, hok, heq⟩ := map_eq_ok.mp h
    cases heq
    exact opBuy_spec hok
  | fill a =>
    obtain ⟨⟨new, db''⟩, hok, heq⟩ := map_eq_ok.mp h
    cases heq
    exact opFill_spec hok
  | deliver a =>
    obtain ⟨⟨res, db''⟩, hok, heq⟩ := map_eq_ok.mp h
    cases heq
    exact .delivered a _ _ (buildDeliveryTxn_spec hok)
  | refund a =>
    obtain ⟨⟨new, db''⟩, hok, heq⟩ := map_eq_ok.mp h
    cases heq
    exact opRefund_spec hok

theorem commit_spec (proc : SolarisProc) (t : Txn) (db : GameDb) :
    commit proc t db = db ∨ ∃ res, Effect proc db t res (commit proc t db) := by
  unfold commit
  cases hrun : t.run proc db with
  | error e => exact Or.inl rfl
  | ok r => exact Or.inr ⟨r.1, Txn.run_spec hrun⟩

end Specs

end LastSietch.Karum
