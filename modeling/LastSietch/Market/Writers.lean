import LastSietch.Market.Tables

/-!
# The market writers

The transactions that list a stack, cancel an order and put it up again. The procedures of the
exchange are an `Exchange`: of them it is only taken that they store the expiration that they are
given, in an order of a player, and leave the other orders as they are.
-/

namespace LastSietch.Market

open Landsraad (Order Orders)
open Refinery (Item)

/-- The arguments of `dune_exchange_add_sell_order`. -/
structure SellOrder where
  exchangeId : Nat
  accessPointId : Nat
  ownerId : Nat
  maxOrders : Nat
  expirationTime : Int
  itemId : Nat
  count : Nat
  categoryMask : Int
  categoryDepth : Int
  durabilityCur : ℚ
  durabilityMax : ℚ
  itemPrice : Nat
  wearNormalizedPrice : Nat
  qualityLevel : Int
  solariCost : Nat

/-- A `duneexchangeaddsellorderresult`. -/
structure Added where
  orderId : Option Nat
  orderSlotsUsed : Option Nat

/-- The order with the id is a player's and has the expiration, and the others are as before. -/
structure Stored (id : Nat) (expiration : Int) (orders orders' : Orders) : Prop where
  here : ∃ o ∈ orders', o.id = id ∧ o.expirationTime = some expiration ∧ o.isNpcOrder = false
  others : ∀ o, o.id ≠ id → (o ∈ orders' ↔ o ∈ orders)

structure Exchange where
  modifyUserSolariBalance : Nat → Int → Db → Except Refusal Db
  addSellOrder : SellOrder → Db → Except Refusal (Added × Db)
  cancelOrder : Nat → Int → Nat → Db → Except Refusal Db
  relistOrder : Nat → Int → Nat → Nat → Nat → Db → Except Refusal (Option Nat × Db)
  modify_orders : ∀ {owner amount db db'}, modifyUserSolariBalance owner amount db = .ok db' →
    db'.orders = db.orders
  add_stores : ∀ {a db added db' id}, addSellOrder a db = .ok (added, db') →
    added.orderId = some id → id ≠ 0 →
      (∀ o ∈ db.orders, o.id ≠ id) ∧ Stored id a.expirationTime db.orders db'.orders
  cancel_stores : ∀ {id purge type db db'}, cancelOrder id purge type db = .ok db' →
    (∃ o ∈ db.orders, o.id = id ∧ o.isNpcOrder = false) → Stored id purge db.orders db'.orders
  relist_stores : ∀ {id expiration price wear cost db stack db'},
    relistOrder id expiration price wear cost db = .ok (some stack, db') → stack ≠ 0 →
      (∃ o ∈ db.orders, o.id = id ∧ o.isNpcOrder = false) →
        Stored id expiration db.orders db'.orders

/-! ### The procedures as the writers describe them -/

/-- `dune_exchange_modify_user_solari_balance`: from the bank to the wallet. -/
def Db.modifyUserSolariBalance (db : Db) (owner : Nat) (amount : Int) : Db :=
  { db with
    balances := db.balances.map fun b =>
      if b.playerControllerId = owner ∧ b.currencyId = bankCurrencyId then
        { b with balance := b.balance - amount }
      else b
    wallets := Function.update db.wallets owner (db.wallets owner + amount) }

/-- The new order of `dune_exchange_add_sell_order`. -/
def sellOrder (a : SellOrder) (item : Nat) (template : String) (id : Nat) : Order :=
  ⟨id, 1, a.exchangeId, a.ownerId, some item, template, a.categoryMask, a.categoryDepth,
    a.accessPointId, false, a.itemPrice, some a.expirationTime, a.durabilityCur, a.durabilityMax,
    a.qualityLevel⟩

def Db.slotsUsed (db : Db) (owner : Nat) : Nat :=
  (db.orders.rows.filter (·.ownerId = owner)).length

def escrowed (r : Item) : Item := { r with inventoryId := some Landsraad.exchangeInv }

/-- `dune_exchange_add_sell_order`, of a whole stack. -/
def Db.addSellOrder (db : Db) (a : SellOrder) : Except Refusal (Added × Db) :=
  match db.land.items.byId? a.itemId with
  | some it =>
    if db.wallets a.ownerId < a.solariCost ∨ a.maxOrders ≤ db.slotsUsed a.ownerId ∨
        it.stackSize ≠ a.count then
      pure (⟨none, some (db.slotsUsed a.ownerId)⟩, db)
    else do
      let orders ← orRaise (db.orders.insert? (sellOrder a it.id it.templateId)) .writeFailed
      pure (⟨some db.orders.next, some (db.slotsUsed a.ownerId + 1)⟩,
        { db with
          land := { db.land with
            orders
            items := db.land.items.update (fun r => r.id = it.id) escrowed }
          sellOrders := ⟨db.orders.next, a.count⟩ :: db.sellOrders
          wallets := Function.update db.wallets a.ownerId (db.wallets a.ownerId - a.solariCost) })
  | none => pure (⟨none, some (db.slotsUsed a.ownerId)⟩, db)

def canceled (purge : Int) (o : Order) : Order :=
  { o with revision := o.revision + 1, expirationTime := some purge }

def relisted (expiration : Int) (price : Nat) (o : Order) : Order :=
  { o with revision := o.revision + 1, itemPrice := price, expirationTime := some expiration }

/-- `dune_exchange_cancel_order`. -/
def Db.cancelOrder (db : Db) (id : Nat) (purge : Int) (type : Nat) : Db :=
  let stack := ((db.orders.byId? id).bind (·.itemId)).bind db.land.items.byId?
  { db with
    land := { db.land with
      orders := db.orders.update (fun o => o.id = id) (canceled purge)
      fulfilled :=
        ⟨id, type, (stack.map (·.stackSize)).getD 0, none, some id⟩ :: db.land.fulfilled }
    sellOrders := db.sellOrders.filter (·.orderId ≠ id) }

/-- `dune_exchange_relist_order`. -/
def Db.relistOrder (db : Db) (id : Nat) (expiration : Int) (price cost : Nat) : Option Nat × Db :=
  match db.orders.byId? id, db.fulfilledOf id with
  | some o, some f =>
    if db.wallets o.ownerId < cost then (some 0, db)
    else
      (some f.stackSize.toNat,
        { db with
          land := { db.land with
            orders := db.orders.update (fun o => o.id = id) (relisted expiration price)
            fulfilled := db.land.fulfilled.filter (·.orderId ≠ id) }
          sellOrders := ⟨id, f.stackSize⟩ :: db.sellOrders
          wallets := Function.update db.wallets o.ownerId (db.wallets o.ownerId - cost) })
  | _, _ => (some 0, db)

theorem stored_update {id : Nat} {expiration : Int} {orders : Orders} {f : Order → Order}
    (hid : ∀ o, (f o).id = o.id) (hentry : ∀ o, (f o).entry = o.entry)
    (h : ∃ o ∈ orders, o.id = id ∧ o.isNpcOrder = false)
    (hexpires : ∀ o, (f o).expirationTime = some expiration)
    (hnpc : ∀ o, (f o).isNpcOrder = o.isNpcOrder) :
    Stored id expiration orders (orders.update (fun o => o.id = id) f hid hentry) := by
  obtain ⟨o, ho, rfl, hplayer⟩ := h
  refine ⟨⟨f o, ?_, hid o, hexpires o, (hnpc o).trans hplayer⟩, fun q hq => ?_⟩
  · exact (SerialTable.mem_update_id ho).mpr (Or.inl rfl)
  · refine (SerialTable.mem_update_id ho).trans ⟨?_, fun h => Or.inr ⟨h, hq⟩⟩
    rintro (rfl | ⟨h, -⟩)
    · exact absurd (hid o) hq
    · exact h

theorem Db.addSellOrder_stores {a : SellOrder} {db db' : Db} {added : Added} {id : Nat}
    (h : db.addSellOrder a = .ok (added, db')) (hid : added.orderId = some id) :
    (∀ o ∈ db.orders, o.id ≠ id) ∧ Stored id a.expirationTime db.orders db'.orders := by
  unfold Db.addSellOrder at h
  split at h
  · case h_1 it _ =>
    split at h
    · cases h
      cases hid
    · obtain ⟨orders, hins, h⟩ := bind_eq_ok.mp h
      cases h
      cases hid
      have hins := orRaise_eq_ok.mp hins
      have hmem := fun o => SerialTable.mem_insert? hins (s := o)
      have hfresh : ∀ o ∈ db.orders, o.id ≠ db.orders.next :=
        fun o ho => (SerialTable.id_lt_next ho).ne
      refine ⟨hfresh, ⟨_, (hmem _).mpr (Or.inl rfl), rfl, rfl, rfl⟩, fun o ho => ?_⟩
      refine (hmem o).trans ⟨?_, Or.inr⟩
      rintro (rfl | h)
      · exact absurd rfl ho
      · exact h
  · cases h
    cases hid

theorem Db.relistOrder_stores {id stack price cost : Nat} {expiration : Int} {db db' : Db}
    (h : db.relistOrder id expiration price cost = (some stack, db')) (hstack : stack ≠ 0)
    (hnpc : ∃ o ∈ db.orders, o.id = id ∧ o.isNpcOrder = false) :
    Stored id expiration db.orders db'.orders := by
  unfold Db.relistOrder at h
  split at h
  · split at h
    · cases h
      exact absurd rfl hstack
    · cases h
      exact stored_update (f := relisted expiration price) (fun _ => rfl) (fun _ => rfl) hnpc
        (fun _ => rfl) (fun _ => rfl)
  · cases h
    exact absurd rfl hstack

def Exchange.described : Exchange where
  modifyUserSolariBalance owner amount db := .ok (db.modifyUserSolariBalance owner amount)
  addSellOrder a db := db.addSellOrder a
  cancelOrder id purge type db := .ok (db.cancelOrder id purge type)
  relistOrder id expiration price _ cost db := .ok (db.relistOrder id expiration price cost)
  modify_orders h := by
    cases h
    rfl
  add_stores h hid _ := Db.addSellOrder_stores h hid
  cancel_stores {_ purge _ _ _} h hnpc := by
    cases h
    exact stored_update (f := canceled purge) (fun _ => rfl) (fun _ => rfl) hnpc (fun _ => rfl)
      (fun _ => rfl)
  relist_stores h hstack hnpc := Db.relistOrder_stores (Except.ok.inj h) hstack hnpc

/-! ## Listing -/

def computeFee (price days : Nat) : Nat := (price * (days + 1) + 50) / 100 + 20 * days

def maxInteger : Nat := 2147483647
def maxBigint : Nat := 9223372036854775807

/-- `v_fee`. The literal of the price is an `integer` as long as it fits, then a `bigint`, and the
sums with it are of its type. What is past that is a `numeric`, which rounds where it is assigned. -/
def sqlFee (price days : Nat) : Option Nat :=
  let sum := price * (days + 1) + 50
  if price ≤ maxInteger then
    if sum ≤ maxInteger then some (sum / 100 + 20 * days) else none
  else if price ≤ maxBigint then
    if sum ≤ maxBigint then some (sum / 100 + 20 * days) else none
  else
    let fee := (sum + 50) / 100 + 20 * days
    if fee ≤ maxBigint then some fee else none

/-- No procedure takes a `numeric`, so that a fee that is charged is the one of the dry run. -/
theorem sqlFee_eq {price days fee : Nat} (h : sqlFee price days = some fee)
    (hprice : price ≤ maxBigint) : fee = computeFee price days := by
  have hsum : ∀ bound, (if price * (days + 1) + 50 ≤ bound then
      some ((price * (days + 1) + 50) / 100 + 20 * days) else none) = some fee →
      fee = computeFee price days := by
    intro bound h
    split at h
    · exact (Option.some.inj h).symm
    · cases h
  unfold sqlFee at h
  dsimp only at h
  by_cases hinteger : price ≤ maxInteger
  · rw [if_pos hinteger] at h
    exact hsum _ h
  · rw [if_neg hinteger, if_pos hprice] at h
    exact hsum _ h

/-- What `gather_args` lets through, the two flag files and the clock of the server. -/
structure Listing where
  seller : Nat
  itemId : Nat
  count : Nat
  price : Nat
  days : Nat
  maxOrders : Nat
  expectedTemplate : Option String
  expectedSrc : Option Src
  containerEnabled : Bool
  backpackEnabled : Bool
  now : ℚ
  days_valid : days ∈ validDurations

structure Cancel where
  owner : Nat
  orderId : Nat
  revision : Int

structure Relist where
  owner : Nat
  orderId : Nat
  revision : Int
  price : Nat
  days : Nat
  days_valid : days ∈ validDurations

structure Receipt where
  orderId : Nat
  templateId : String
  expirationTime : Int
  fee : Nat
  bankBefore : Option Int
  bankAfter : Option Int
  deriving DecidableEq, Repr

namespace Db

variable (db : Db)

/-- The source gates of `do_live`. -/
def sourceGate (q : Listing) : Except Refusal Unit :=
  match db.land.items.byId? q.itemId with
  | some it => do
    let src := it.inventoryId.bind (db.srcOf q.seller)
    require (q.backpackEnabled = true ∨ src ≠ some .backpack) .backpackSourceDisabled
    require (q.containerEnabled = true ∨ src ≠ none) .containerSourceDisabled
  | none => pure ()

def accountOffline (account : Nat) (now : ℚ) : Prop :=
  let chars := db.land.characters.filter fun c =>
    c.accountId = account ∧ c.characterState ≠ some .deleted
  chars ≠ [] ∧ ∀ c ∈ chars, c.onlineStatus = some .offline ∧
    ¬ ∃ t ∈ c.reconnectGracePeriodEnd, now < t

instance (account : Nat) (now : ℚ) : Decidable (db.accountOffline account now) :=
  inferInstanceAs (Decidable (_ ∧ ∀ c ∈ _, _))

def category (template : String) : Option (Int × Int) :=
  (db.orders.rows.find? (fun o => o.templateId = template ∧ o.categoryMask ≠ 0)).map fun o =>
    (o.categoryMask, o.categoryDepth)

def fund (x : Exchange) (owner : Nat) (amount : Int) : Except Refusal (Int × Db) := do
  let balance ← orRaise (db.bank owner) .insufficientBank
  require (amount ≤ balance) .insufficientBank
  let db ← x.modifyUserSolariBalance owner amount db
  pure (balance, db)

/-- `build_write_sql`, behind the source gates. -/
def sell (x : Exchange) (q : Listing) : Except Refusal (Receipt × Db) := do
  db.sourceGate q
  let character ← orRaise (db.live q.seller).head? .playerOnline
  require (db.accountOffline character.accountId q.now) .playerOnline
  let it ← orRaise (db.land.items.byId? q.itemId) .itemNotFound
  require (∀ template ∈ q.expectedTemplate, it.templateId = template) .itemNotFound
  let inv ← orRaise it.inventoryId .notOwner
  require (db.owned q.seller inv = true) .notOwner
  require (∀ src ∈ q.expectedSrc, db.srcOf q.seller inv = some src) .itemNotFound
  require ((q.count : Int) ≤ it.stackSize) .countExceedsStack
  let (mask, depth) ← orRaise (db.category it.templateId) .categoryUnresolved
  let gameNow ← orRaise (clock db.orders) .expirationUnresolved
  let expire := gameNow + q.days * daySecs
  let fee ← orRaise (sqlFee q.price q.days) .writeFailed
  let (balance, db) ← db.fund x q.seller fee
  require (q.price ≤ maxBigint) .writeFailed
  let (added, db) ← x.addSellOrder
    ⟨Landsraad.exchangeId, Landsraad.accessPoint, q.seller, q.maxOrders, expire, q.itemId, q.count,
      mask, depth, 1, 1, q.price, q.price, it.qualityLevel, fee⟩ db
  let id ← orRaise (added.orderId.filter (· ≠ 0))
    (if q.maxOrders ≤ added.orderSlotsUsed.getD 0 then .slotsFull else .listFailed)
  pure (⟨id, it.templateId, expire, fee, some balance, db.bank q.seller⟩, db)

def lockOrder (owner id : Nat) (revision : Int) : Except Refusal Order := do
  let o ← orRaise (db.orders.byId? id) .orderGone
  require (o.ownerId = owner ∧ o.isNpcOrder = false) .notOwner
  require (o.revision = revision) .revisionDrift
  pure o

/-- `build_cancel_sql`. -/
def cancel (x : Exchange) (q : Cancel) : Except Refusal (Receipt × Db) := do
  let o ← db.lockOrder q.owner q.orderId q.revision
  require ((db.sellRow q.orderId).isSome = true ∧ db.fulfilledOf q.orderId = none) .notActive
  let gameNow ← orRaise (clock db.orders) .clockUnresolved
  let purge := gameNow + purgeWindowSecs
  let db ← x.cancelOrder q.orderId purge canceledCompletionType db
  require (∃ f ∈ db.land.fulfilled, f.orderId = q.orderId ∧
    f.completionType = canceledCompletionType) .cancelFailed
  pure (⟨q.orderId, o.templateId, purge, 0, none, none⟩, db)

/-- `build_relist_sql`. -/
def relist (x : Exchange) (q : Relist) : Except Refusal (Receipt × Db) := do
  let o ← db.lockOrder q.owner q.orderId q.revision
  require (o.itemId ≠ none ∧ (db.fulfilledOf q.orderId).map (·.completionType) =
    some canceledCompletionType) .notCanceled
  let gameNow ← orRaise (clock db.orders) .clockUnresolved
  let expire := gameNow + q.days * daySecs
  let fee ← orRaise (sqlFee q.price q.days) .writeFailed
  let (balance, db) ← db.fund x q.owner fee
  require (q.price ≤ maxBigint) .writeFailed
  let (stack, db) ← x.relistOrder q.orderId expire q.price q.price fee db
  let _ ← orRaise (stack.filter (· ≠ 0)) .relistFailed
  pure (⟨q.orderId, o.templateId, expire, fee, some balance, db.bank q.owner⟩, db)

end Db

/-! ## What a write stores -/

section Stores

variable {x : Exchange} {db db' : Db} {r : Receipt}

theorem Db.fund_orders {owner : Nat} {amount balance : Int}
    (h : db.fund x owner amount = .ok (balance, db')) : db'.orders = db.orders := by
  obtain ⟨_, -, h⟩ := bind_eq_ok.mp h
  obtain ⟨_, -, h⟩ := bind_eq_ok.mp h
  obtain ⟨funded, hmodify, h⟩ := bind_eq_ok.mp h
  cases h
  exact x.modify_orders hmodify

/-- The write takes the time from the orders and stores the order of its receipt `window` later. -/
def Stores (window : Int) (db : Db) (r : Receipt) (db' : Db) : Prop :=
  ∃ T, clock db.orders = some T ∧ Stored r.orderId (T + window) db.orders db'.orders

theorem Db.sell_ok {q : Listing} (h : db.sell x q = .ok (r, db')) :
    ∃ it inv T fee balance funded added mask depth,
      (db.land.items.byId? q.itemId = some it ∧ it.inventoryId = some inv ∧
        db.owned q.seller inv = true ∧ (∀ template ∈ q.expectedTemplate, it.templateId = template) ∧
        (∀ src ∈ q.expectedSrc, db.srcOf q.seller inv = some src) ∧
        (q.count : Int) ≤ it.stackSize) ∧
      clock db.orders = some T ∧ sqlFee q.price q.days = some fee ∧ q.price ≤ maxBigint ∧
      db.fund x q.seller fee = .ok (balance, funded) ∧
      x.addSellOrder ⟨Landsraad.exchangeId, Landsraad.accessPoint, q.seller, q.maxOrders,
        T + q.days * daySecs, q.itemId, q.count, mask, depth, 1, 1, q.price, q.price,
        it.qualityLevel, fee⟩ funded = .ok (added, db') ∧
      added.orderId = some r.orderId ∧ r.orderId ≠ 0 ∧ r.fee = fee ∧
      r.bankBefore = some balance ∧ r.bankAfter = db'.bank q.seller := by
  obtain ⟨_, -, h⟩ := bind_eq_ok.mp h
  obtain ⟨character, -, h⟩ := bind_eq_ok.mp h
  obtain ⟨_, -, h⟩ := bind_eq_ok.mp h
  obtain ⟨it, hit, h⟩ := bind_eq_ok.mp h
  obtain ⟨_, htemplate, h⟩ := bind_eq_ok.mp h
  obtain ⟨inv, hinv, h⟩ := bind_eq_ok.mp h
  obtain ⟨_, howned, h⟩ := bind_eq_ok.mp h
  obtain ⟨_, hsrc, h⟩ := bind_eq_ok.mp h
  obtain ⟨_, hcount, h⟩ := bind_eq_ok.mp h
  obtain ⟨⟨mask, depth⟩, -, h⟩ := bind_eq_ok.mp h
  obtain ⟨T, hclock, h⟩ := bind_eq_ok.mp h
  obtain ⟨fee, hfee, h⟩ := bind_eq_ok.mp h
  obtain ⟨⟨balance, funded⟩, hfund, h⟩ := bind_eq_ok.mp h
  obtain ⟨_, hprice, h⟩ := bind_eq_ok.mp h
  obtain ⟨⟨added, sold⟩, hadd, h⟩ := bind_eq_ok.mp h
  obtain ⟨id, hid, h⟩ := bind_eq_ok.mp h
  cases h
  obtain ⟨hid, hne⟩ := Option.filter_eq_some_iff.mp (orRaise_eq_ok.mp hid)
  exact ⟨it, inv, T, fee, balance, funded, added, mask, depth,
    ⟨orRaise_eq_ok.mp hit, orRaise_eq_ok.mp hinv, require_eq_ok.mp howned,
      require_eq_ok.mp htemplate, require_eq_ok.mp hsrc, require_eq_ok.mp hcount⟩,
    orRaise_eq_ok.mp hclock, orRaise_eq_ok.mp hfee, require_eq_ok.mp hprice, hfund, hadd, hid,
    of_decide_eq_true hne, rfl, rfl, rfl⟩

theorem Db.sell_stores {q : Listing} (h : db.sell x q = .ok (r, db')) :
    Stores (q.days * daySecs) db r db' ∧ ∀ o ∈ db.orders, o.id ≠ r.orderId := by
  obtain ⟨_, _, T, _, _, _, _, _, _, -, hclock, -, -, hfund, hadd, hid, hne, -⟩ := Db.sell_ok h
  obtain ⟨hfresh, hstored⟩ := x.add_stores hadd hid hne
  rw [Db.fund_orders hfund] at hfresh hstored
  exact ⟨⟨T, hclock, hstored⟩, hfresh⟩

theorem Db.lockOrder_ok {owner id : Nat} {revision : Int} {o : Order}
    (h : db.lockOrder owner id revision = .ok o) : db.orders.byId? id = some o ∧
      o.ownerId = owner ∧ o.isNpcOrder = false ∧ o.revision = revision := by
  obtain ⟨o', hrow, h⟩ := bind_eq_ok.mp h
  obtain ⟨_, howner, h⟩ := bind_eq_ok.mp h
  obtain ⟨_, hrevision, h⟩ := bind_eq_ok.mp h
  cases h
  exact ⟨orRaise_eq_ok.mp hrow, (require_eq_ok.mp howner).1, (require_eq_ok.mp howner).2,
    require_eq_ok.mp hrevision⟩

theorem Db.lockOrder_player {owner id : Nat} {revision : Int} {o : Order}
    (h : db.lockOrder owner id revision = .ok o) :
    ∃ o ∈ db.orders, o.id = id ∧ o.isNpcOrder = false := by
  obtain ⟨hrow, -, hnpc, -⟩ := Db.lockOrder_ok h
  obtain ⟨ho, hid⟩ := SerialTable.byId?_eq_some.mp hrow
  exact ⟨o, ho, hid, hnpc⟩

theorem Db.cancel_ok {q : Cancel} (h : db.cancel x q = .ok (r, db')) :
    ∃ o T, db.lockOrder q.owner q.orderId q.revision = .ok o ∧ clock db.orders = some T ∧
      x.cancelOrder q.orderId (T + purgeWindowSecs) canceledCompletionType db = .ok db' ∧
      r.orderId = q.orderId ∧ r.fee = 0 := by
  obtain ⟨o, hlock, h⟩ := bind_eq_ok.mp h
  obtain ⟨_, -, h⟩ := bind_eq_ok.mp h
  obtain ⟨T, hclock, h⟩ := bind_eq_ok.mp h
  obtain ⟨canceled, hcancel, h⟩ := bind_eq_ok.mp h
  obtain ⟨_, -, h⟩ := bind_eq_ok.mp h
  cases h
  exact ⟨o, T, hlock, orRaise_eq_ok.mp hclock, hcancel, rfl, rfl⟩

theorem Db.cancel_stores {q : Cancel} (h : db.cancel x q = .ok (r, db')) :
    r.orderId = q.orderId ∧ Stores purgeWindowSecs db r db' := by
  obtain ⟨o, T, hlock, hclock, hcancel, hid, -⟩ := Db.cancel_ok h
  refine ⟨hid, T, hclock, ?_⟩
  rw [hid]
  exact x.cancel_stores hcancel (Db.lockOrder_player hlock)

theorem Db.relist_ok {q : Relist} (h : db.relist x q = .ok (r, db')) :
    ∃ o T fee balance funded stack, db.lockOrder q.owner q.orderId q.revision = .ok o ∧
      clock db.orders = some T ∧ sqlFee q.price q.days = some fee ∧ q.price ≤ maxBigint ∧
      db.fund x q.owner fee = .ok (balance, funded) ∧
      x.relistOrder q.orderId (T + q.days * daySecs) q.price q.price fee funded =
        .ok (some stack, db') ∧
      stack ≠ 0 ∧ r.orderId = q.orderId ∧ r.fee = fee ∧ r.bankBefore = some balance ∧
      r.bankAfter = db'.bank q.owner := by
  obtain ⟨o, hlock, h⟩ := bind_eq_ok.mp h
  obtain ⟨_, -, h⟩ := bind_eq_ok.mp h
  obtain ⟨T, hclock, h⟩ := bind_eq_ok.mp h
  obtain ⟨fee, hfee, h⟩ := bind_eq_ok.mp h
  obtain ⟨⟨balance, funded⟩, hfund, h⟩ := bind_eq_ok.mp h
  obtain ⟨_, hprice, h⟩ := bind_eq_ok.mp h
  obtain ⟨⟨stack, relisted⟩, hrelist, h⟩ := bind_eq_ok.mp h
  obtain ⟨n, hn, h⟩ := bind_eq_ok.mp h
  cases h
  obtain ⟨rfl, hne⟩ := Option.filter_eq_some_iff.mp (orRaise_eq_ok.mp hn)
  exact ⟨o, T, fee, balance, funded, n, hlock, orRaise_eq_ok.mp hclock, orRaise_eq_ok.mp hfee,
    require_eq_ok.mp hprice, hfund, hrelist, of_decide_eq_true hne, rfl, rfl, rfl, rfl⟩

theorem Db.relist_stores {q : Relist} (h : db.relist x q = .ok (r, db')) :
    r.orderId = q.orderId ∧ Stores (q.days * daySecs) db r db' := by
  obtain ⟨o, T, _, _, _, _, hlock, hclock, -, -, hfund, hrelist, hne, hid, -⟩ := Db.relist_ok h
  have hstored := x.relist_stores hrelist hne
  rw [Db.fund_orders hfund] at hstored
  refine ⟨hid, T, hclock, ?_⟩
  rw [hid]
  exact hstored (Db.lockOrder_player hlock)

end Stores

end LastSietch.Market
