import LastSietch.Landsraad.Claim

/-!
# The tables of the market writers

What `dune-market-sell.py`, `dune-market-orders.py` and `dune-market-buy.py` read besides the tables
of the Landsraad claim, with which they share the orders. All take the time of the game from the
orders: `clock`.
-/

namespace LastSietch.Market

open Landsraad (Character Fulfilled Order Orders)
open Refinery (Inventory Item)

/-- `BANK_CURRENCY_ID`, the completion types, `BUYER_FEE`, `PURGE_WINDOW_SECS` and
`VALID_DURATIONS`. -/
def bankCurrencyId : Nat := 0
def canceledCompletionType : Nat := 3
def purchasedCompletionType : Nat := 5
def soldCompletionType : Nat := 4
def buyerFee : Nat := 0
def purgeWindowSecs : Int := 2592000
def validDurations : List Nat := [1, 3, 7, 14]

def sentinel : Int := 1000000000

def daySecs : Int := 86400

/-! ## Rows -/

/-- A row of `dune_exchange_sell_orders`. -/
structure SellRow where
  orderId : Nat
  initialStackSize : Int
  deriving DecidableEq, Repr

/-- A row of `player_virtual_currency_balances`. -/
structure Balance where
  playerControllerId : Nat
  currencyId : Nat
  balance : Int
  deriving DecidableEq

/-- A row of `placeables`. -/
structure Placeable where
  id : Nat
  ownerEntityId : Nat
  isHologram : Bool
  buildingType : String
  deriving DecidableEq

/-- A row of `actor_fgl_entities`. -/
structure Link where
  actorId : Nat
  entityId : Nat
  deriving DecidableEq

/-- A row of `permission_actor_rank`. -/
structure Rank where
  permissionActorId : Nat
  playerId : Nat
  rank : Nat
  deriving DecidableEq

/-- A row of `actors`. -/
structure Vehicle where
  id : Nat
  map : Option String
  className : Option String
  deriving DecidableEq

/-- `land` are the tables of the Landsraad claim, `wallets` what the exchange keeps for a player. -/
structure Db where
  land : Landsraad.Db
  sellOrders : List SellRow
  balances : List Balance
  wallets : Nat → Int
  placeables : List Placeable
  links : List Link
  ranks : List Rank
  vehicles : List Vehicle

inductive Src
  | bank | backpack
  deriving DecidableEq, Repr

/-- The tokens of `ERROR_TOKENS` in the writers. -/
inductive Refusal
  | backpackSourceDisabled | containerSourceDisabled | playerOnline | itemNotFound | notOwner
  | countExceedsStack | categoryUnresolved | expirationUnresolved | insufficientBank | slotsFull
  | listFailed | orderGone | revisionDrift | notActive | notCanceled | clockUnresolved
  | cancelFailed | relistFailed | purgeTimeUnresolved | fulfillFailed | writeFailed
  deriving DecidableEq, Repr

def counted (o : Order) : Option Int :=
  if o.isNpcOrder = false then o.expirationTime.filter (· < sentinel) else none

/-- `MAX(expiration_time) - 86400`, over the orders of players below the sentinel. -/
def clock (orders : Orders) : Option Int :=
  (orders.rows.filterMap counted).max?.map (· - daySecs)

namespace Db

variable (db : Db)

def orders : Orders := db.land.orders

def expirationOf (id : Nat) : Option Int := (db.orders.byId? id).bind (·.expirationTime)

def sellRow (id : Nat) : Option SellRow := db.sellOrders.find? (·.orderId = id)

def fulfilledOf (id : Nat) : Option Fulfilled := db.land.fulfilled.find? (·.orderId = id)

def bank (owner : Nat) : Option Int :=
  (db.balances.find? (fun b => b.playerControllerId = owner ∧ b.currencyId = bankCurrencyId)).map
    (·.balance)

def live (seller : Nat) : List Character :=
  db.land.characters.filter fun c =>
    c.playerControllerId = some seller ∧ c.characterState ≠ some .deleted

/-- The building types of `owned_inv_sql`. -/
def containerTypes : List String :=
  ["SpiceSilo_Placeable", "GenericContainer_Placeable", "StorageContainer_Placeable",
    "MediumStorageContainer_Placeable"]

def ownsContainer (seller : Nat) (inv : Inventory) : Bool :=
  db.placeables.any fun p => !p.isHologram && containerTypes.contains p.buildingType &&
    inv.actorId == some p.id && db.links.any fun l => l.entityId == p.ownerEntityId &&
      db.ranks.any fun r => r.permissionActorId == l.actorId && r.rank == 1 && r.playerId == seller

def ownsBank (seller : Nat) (inv : Inventory) : Bool :=
  inv.inventoryType == some 30 && db.land.characters.any fun c =>
    c.playerControllerId == some seller && c.playerPawnId.isSome && c.playerPawnId == inv.actorId

/-- `class ILIKE '%…%'`. -/
def isVehicle (className : String) : Bool :=
  ["ornithopter", "buggy", "sandbike", "crawler", "containervehicle"].any fun kind =>
    decide (kind.toList <:+: className.toLower.toList)

def ownsCargo (seller : Nat) (inv : Inventory) : Bool :=
  inv.inventoryType == some 0 && inv.maxItemCount.any (fun n => decide (0 < n)) &&
    db.vehicles.any fun a => inv.actorId == some a.id && a.map.any (· != "DeepDesert") &&
      a.className.any isVehicle && db.ranks.any fun r =>
        r.permissionActorId == a.id && r.rank == 1 && r.playerId == seller

def onPawn (seller : Nat) (inv : Inventory) : Bool :=
  (db.live seller).any fun c => c.playerPawnId.isSome && c.playerPawnId == inv.actorId

def ownsBackpack (seller : Nat) (inv : Inventory) : Bool :=
  inv.inventoryType == some 0 && db.onPawn seller inv

/-- `owned_inv_sql`. -/
def owned (seller inv : Nat) : Bool :=
  db.land.inventories.rows.any fun i => i.id == inv && (db.ownsContainer seller i ||
    db.ownsBank seller i || db.ownsCargo seller i || db.ownsBackpack seller i)

/-- `v_src`. -/
def srcOf (seller inv : Nat) : Option Src :=
  (db.land.inventories.rows.find? fun i => i.id == inv &&
    (i.inventoryType == some 0 || i.inventoryType == some 30) && db.onPawn seller i).map fun i =>
      if i.inventoryType = some 30 then .bank else .backpack

end Db

end LastSietch.Market
