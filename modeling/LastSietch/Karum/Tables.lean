import LastSietch.Lib.Table
import LastSietch.Lib.Sql

/-!
# The game database of the Karum

The rows the Karum writer reads and writes. `World` holds the game server's own tables
(characters, inventories, items, exchange orders, balances); `GameDb` adds the three
ledgers the writer owns:

* `escrow`, `ls_karum_escrow`, unique on `correlation_id` as text;
* `payments`, `ls_karum_payments`, unique on `correlation_id` as uuid;
* `deliveryLog`, `ls_item_delivery_log`, unique on `correlation_id` as text.

A uuid is accepted in any mix of letter cases, so two different texts can be the same
uuid: `Corr` keeps the uuid and its spelling apart.
-/

namespace LastSietch.Karum

structure Corr where
  uuid : Nat
  spelling : Nat
  deriving DecidableEq, Repr

/-- `KARUM_ERROR_TOKENS`, and `write_failed` for every other failure. -/
inductive Token
  | playerOnline | noBank | noBackpack | itemNotFound | takeFailed
  | selfTrade | insufficientFunds | rateLimited | priceTooHigh
  | escrowMissing | quantityMismatch | gradeMismatch | noCategory
  | noGameClock | noCharacter | alreadySettled | writeFailed
  deriving DecidableEq, Repr

/-! ## The game server's tables -/

/-- `character_state`: only `'Deleted'` is told apart. -/
inductive CharacterState
  | deleted | other
  deriving DecidableEq, Repr

/-- `online_status`: only `'Offline'` is told apart. -/
inductive OnlineStatus
  | offline | other
  deriving DecidableEq, Repr

/-- A row of `encrypted_player_state`. -/
structure PlayerState where
  accountId : Nat
  playerControllerId : Option Nat
  playerPawnId : Option Nat
  characterState : Option CharacterState
  onlineStatus : Option OnlineStatus
  reconnectGracePeriodEnd : Option Nat
  lastAvatarActivity : Option Nat
  deriving DecidableEq, Repr

/-- A row of `accounts`. -/
structure Account where
  id : Nat
  user : Option String
  deriving DecidableEq, Repr

/-- A row of `inventories`; `inventory_type` 30 is a CHOAM bank and 0 a backpack. -/
structure Inventory where
  id : Nat
  actorId : Nat
  inventoryType : Nat
  deriving DecidableEq, Repr

/-- A row of `items`. -/
structure Item where
  id : Nat
  inventoryId : Nat
  positionIndex : Int
  templateId : String
  stackSize : Option Nat
  qualityLevel : Option Int
  isNew : Bool
  deriving DecidableEq, Repr

/-- A row of `dune_exchange_orders`. -/
structure ExchangeOrder where
  id : Nat
  exchangeId : Nat
  ownerId : Nat
  itemId : Nat
  templateId : String
  categoryMask : Int
  categoryDepth : Int
  accessPointId : Nat
  isNpcOrder : Bool
  itemPrice : Nat
  expirationTime : Int
  qualityLevel : Int
  deriving DecidableEq, Repr

/-- A row of `dune_exchange_fulfilled_orders`. -/
structure FulfilledOrder where
  orderId : Nat
  completionType : Nat
  stackSize : Nat
  originalOrderId : Nat
  deriving DecidableEq, Repr

/-- A Solaris row of `player_virtual_currency_balances`. -/
structure Balance where
  playerControllerId : Nat
  balance : Int
  deriving DecidableEq, Repr

abbrev Items := Table Item (·.id)
abbrev ExchangeOrders := SerialTable ExchangeOrder (·.id) (·.id)
abbrev Balances := Table Balance (·.playerControllerId)

/-- The game server's tables. `farmSeconds` is the result of the writer's query over
`farm_variables` (the active universe seconds) and `exchangeInventory` that of
`get_exchange_inventory_id(2)`. -/
structure World where
  now : Nat
  players : List PlayerState
  accounts : List Account
  inventories : List Inventory
  items : Items
  orders : ExchangeOrders
  fulfilled : List FulfilledOrder
  balances : Balances
  farmSeconds : Option Int
  exchangeInventory : Option Nat

/-- `COALESCE(balance, 0)` of a controller. -/
def Balances.of (b : Balances) (ctrl : Nat) : Int :=
  ((b.get? ctrl).map (·.balance)).getD 0

def Balances.total (b : Balances) : Int := (b.rows.map (·.balance)).sum

/-! ## The writer's ledgers -/

/-- `ls_karum_escrow_state_chk`. -/
inductive EscrowState
  | held | delivered | returned | reconciledMissing
  deriving DecidableEq, Repr

/-- A row of `ls_karum_escrow`. -/
structure EscrowRow where
  id : Nat
  correlationId : Corr
  listingId : Nat
  itemId : Nat
  inventoryId : Nat
  sellerAccountId : Nat
  sellerCtrl : Nat
  templateId : String
  stackSize : Nat
  qualityLevel : Int
  categoryMask : Option Int
  categoryDepth : Option Int
  state : EscrowState
  buyerCtrl : Option Nat
  orderId : Option Nat
  heldAt : Nat
  closedAt : Option Nat
  deriving DecidableEq, Repr

/-- `ls_karum_payments_status_chk`. -/
inductive PaymentStatus
  | applied | reversed
  deriving DecidableEq, Repr

/-- The `detail` sidecar of a payment. -/
inductive PaymentDetail
  | karumBuy
  | karumFill (requestId : Nat)
  | karumRefund (reverses : Corr)
  deriving DecidableEq, Repr

/-- A row of `ls_karum_payments`. Its `correlation_id` has type uuid. -/
structure PaymentRow where
  id : Nat
  correlationId : Nat
  listingId : Nat
  buyerAccountId : Nat
  sellerAccountId : Nat
  amount : Nat
  buyerBalanceBefore : Option Int
  sellerBalanceBefore : Option Int
  status : PaymentStatus
  detail : PaymentDetail
  appliedAt : Nat
  reversedAt : Option Nat
  reversalCorrId : Option Nat
  deriving DecidableEq, Repr

def PaymentRow.isRefund (p : PaymentRow) : Bool :=
  match p.detail with
  | .karumRefund _ => true
  | _ => false

/-- A row of `ls_item_delivery_log` as the Karum writes it. -/
structure DeliveryRow where
  id : Nat
  correlationId : Corr
  accountId : Nat
  flsId : Option String
  actorId : Option Nat
  templateId : String
  quantity : Nat
  qualityLevel : Int
  observedItemId : Nat
  deriving DecidableEq, Repr

abbrev Escrow := SerialTable EscrowRow (·.id) (·.correlationId)
abbrev Payments := SerialTable PaymentRow (·.id) (·.correlationId)
abbrev DeliveryLog := SerialTable DeliveryRow (·.id) (·.correlationId)

structure GameDb where
  world : World
  escrow : Escrow
  payments : Payments
  deliveryLog : DeliveryLog

def World.liveCharacters (w : World) (acct : Nat) : List PlayerState :=
  w.players.filter (fun p => p.accountId = acct ∧ p.characterState ≠ some .deleted)

/-- `a DESC NULLS LAST`: does `a` stand before `b`? -/
def descNullsLast (a b : Option Nat) : Bool :=
  match a, b with
  | some x, some y => y < x
  | some _, none => true
  | none, _ => false

/-- `a DESC`, which puts `NULL` first. -/
def descNullsFirst (a b : Option Nat) : Bool :=
  match a, b with
  | some x, some y => y < x
  | none, some _ => true
  | _, none => false

/-- `ORDER BY last_avatar_activity DESC NULLS LAST, player_controller_id DESC`. -/
def moreRecent (a b : PlayerState) : Bool :=
  descNullsLast a.lastAvatarActivity b.lastAvatarActivity ||
    (a.lastAvatarActivity == b.lastAvatarActivity &&
      descNullsFirst a.playerControllerId b.playerControllerId)

/-- The controller of the account's latest live character, as `op_buy` and the refund
resolve it: a latest row without a controller resolves to nothing. -/
def World.latestController (w : World) (acct : Nat) : Option Nat :=
  (pick moreRecent (w.liveCharacters acct)).bind (·.playerControllerId)

/-- The controller as `op_list` resolves it: rows without a controller are passed over. -/
def World.sellerController (w : World) (acct : Nat) : Option Nat :=
  (pick moreRecent
    ((w.liveCharacters acct).filter (·.playerControllerId.isSome))).bind (·.playerControllerId)

/-- The exact controller `ctrl`, when a live character of the account has it. -/
def World.exactController (w : World) (acct ctrl : Nat) : Option Nat :=
  if (w.liveCharacters acct).any (fun p => p.playerControllerId = some ctrl) then some ctrl
  else none

/-- `ORDER BY count(*) DESC, category_mask` over the categories `cats`. -/
def modalFirst (cats : List (Int × Int)) (a b : Int × Int) : Bool :=
  cats.count b < cats.count a || (cats.count a == cats.count b && a.1 < b.1)

def World.modalCategory (w : World) (template : String) : Option (Int × Int) :=
  let cats := (w.orders.rows.filter
    (fun o => o.templateId = template ∧ o.categoryMask ≠ 0)).map
      (fun o => (o.categoryMask, o.categoryDepth))
  pick (modalFirst cats) cats

/-! ## Tunables and constants -/

/-- `KARUM_MAX_LISTINGS_PER_DAY`. -/
def maxListingsPerDay : Nat := 20

/-- `KARUM_MAX_PAIR_PER_DAY`. -/
def maxPairPerDay : Nat := 5

/-- `KARUM_MAX_PRICE`. -/
def maxPrice : Nat := 900000000

/-- `KARUM_CLAIM_EXPIRY_DAYS`. -/
def claimExpiryDays : Int := 365

/-- `KARUM_POSITION_BASE`. -/
def positionBase : Int := 1000000000

def exchangeId : Nat := 2
def accessPoint : Nat := 1
def completionType : Nat := 3

/-- `now() - interval '1 day'` in seconds: `t` is within the last day. -/
def World.withinDay (w : World) (t : Nat) : Bool := w.now ≤ t + 86400

/-! ## A small world

Three accounts with one offline character each. Account 1 has 500 Solari, account 2 has
a stack of spice and one of water in its bank, and both templates have a category. -/

def samplePlayer (acct : Nat) : PlayerState :=
  { accountId := acct, playerControllerId := some (10 + acct), playerPawnId := some (100 + acct),
    characterState := none, onlineStatus := some .offline, reconnectGracePeriodEnd := none,
    lastAvatarActivity := some acct }

def sampleItem (id : Nat) (template : String) : Item :=
  { id, inventoryId := 202, positionIndex := 0, templateId := template, stackSize := some 5,
    qualityLevel := some 0, isNew := false }

def sampleOrder (id : Nat) (template : String) : ExchangeOrder :=
  { id, exchangeId := 2, ownerId := 1, itemId := 900, templateId := template, categoryMask := 4,
    categoryDepth := 1, accessPointId := 1, isNpcOrder := true, itemPrice := 1,
    expirationTime := 0, qualityLevel := 0 }

def sampleWorld : World where
  now := 1000000
  players := [samplePlayer 1, samplePlayer 2, samplePlayer 3]
  accounts := [⟨1, none⟩, ⟨2, none⟩, ⟨3, none⟩]
  inventories := [⟨201, 101, 30⟩, ⟨202, 102, 30⟩, ⟨203, 103, 30⟩]
  items := ⟨[sampleItem 51 "spice", sampleItem 52 "water"], by decide⟩
  orders := ⟨⟨[sampleOrder 2 "spice", sampleOrder 1 "water"], by decide⟩, 3, by decide, by decide⟩
  fulfilled := []
  balances := ⟨[⟨11, 500⟩, ⟨12, 0⟩, ⟨13, 0⟩], by decide⟩
  farmSeconds := some 0
  exchangeInventory := some 610

def GameDb.init (w : World) (log : DeliveryLog) : GameDb :=
  ⟨w, SerialTable.empty, SerialTable.empty, log⟩

def sampleDb : GameDb := GameDb.init sampleWorld SerialTable.empty

end LastSietch.Karum
