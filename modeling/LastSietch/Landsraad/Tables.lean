import Mathlib.Data.List.Sort
import Mathlib.Data.Rat.Floor
import LastSietch.Refinery.Tables

/-!
# The tables of the Landsraad claim

The rows that the claim writer reads and writes, the reward templates that are swatches, and the
two tables that `build_claim_sql` is given. Items and inventories are those of the refinery.

`safeStacks` gives every template that the catalog knows a cap of at least one, and `safeCats` no
category to the Solari.
-/

namespace LastSietch.Landsraad

open Karum (Account CharacterState OnlineStatus)
open Refinery (Inventories Items)

/-- `SOLARIS_TEMPLATE` and `SOLARIS_STACK_MAX`. -/
def solarisTemplate : String := "SolarisCoin"
def solarisStackMax : Nat := 100000

def stackCeiling : Int := 1000

def slotSafety : Nat := 2

/-- `EXCHANGE_INV`, `EXCHANGE_ID`, `ACCESS_POINT`, `COMPLETION_TYPE`, `EXCHANGE_PRICE` and
`EXCHANGE_EXPIRY_DAYS`. -/
def exchangeInv : Nat := 610
def exchangeId : Nat := 2
def accessPoint : Nat := 1
def completionType : Nat := 3
def exchangePrice : Int := 250
def exchangeExpiryDays : Int := 365

def statsJson : String :=
  "\x7b\"FItemStackAndDurabilityStats\": [[], \x7b\"DecayedMaxDurability\": 0.0\x7d]\x7d"

/-! ## Rows -/

/-- A row of `encrypted_player_state`; the times are UTC. -/
structure Character where
  accountId : Nat
  playerControllerId : Option Nat
  playerPawnId : Option Nat
  characterState : Option CharacterState
  onlineStatus : Option OnlineStatus
  reconnectGracePeriodEnd : Option ℚ
  logoffPersistenceEndTime : Option ℚ
  lastLoginTime : Option ℚ
  deriving DecidableEq

/-- The list of unlocked customizations in the properties of a pawn. A parent key of its path may
be missing, and it may be something else than a list. -/
inductive Unlocks
  | noParent
  | malformed
  | ids (ids : List String)
  deriving DecidableEq, Repr

structure Actor where
  id : Nat
  unlocks : Unlocks
  deriving DecidableEq, Repr

/-- A row of `landsraad_house_rewards`. -/
structure Reward where
  playerId : Nat
  houseName : String
  templateId : String
  amount : Int
  deriving DecidableEq, Repr

abbrev Ledger := Table Reward (fun r => (r.playerId, r.houseName, r.templateId))

/-- A row of `dune_exchange_orders`. -/
structure Order where
  id : Nat
  revision : Int
  exchangeId : Nat
  ownerId : Nat
  itemId : Option Nat
  templateId : String
  categoryMask : Int
  categoryDepth : Int
  accessPointId : Nat
  isNpcOrder : Bool
  itemPrice : Int
  expirationTime : Option Int
  durabilityCur : ℚ
  durabilityMax : ℚ
  qualityLevel : Int
  deriving DecidableEq

/-- `dune_exchange_orders_item_id_unique`: an order without an item is in no entry of it. -/
def Order.entry (o : Order) : Nat ⊕ Nat := o.itemId.elim (.inl o.id) .inr

abbrev Orders := SerialTable Order Order.id Order.entry

/-- A row of `dune_exchange_fulfilled_orders`. -/
structure Fulfilled where
  orderId : Nat
  completionType : Nat
  stackSize : Int
  sourceOrderId : Option Nat
  originalOrderId : Option Nat
  deriving DecidableEq, Repr

/-- The row of `farm_variables`; the accumulation is in microseconds. -/
structure FarmVariables where
  universeTimeTimestamp : Option ℚ
  downTimeAccumulation : Option Int

inductive Lane
  | backpack | exchange | unlock | rep
  deriving DecidableEq, Repr

/-- A row of `ls_item_delivery_log`; its `correlation_id` is the run token and a number. -/
structure Delivery where
  correlationId : String × Nat
  lane : Lane
  accountId : Nat
  flsId : Option String
  actorId : Nat
  templateId : String
  quantity : Nat
  delivered : Bool
  observedItemId : Option Nat
  operator : String
  deriving DecidableEq, Repr

abbrev Deliveries := Table Delivery Delivery.correlationId

structure Db where
  characters : List Character
  accounts : Table Account Account.id
  inventories : Inventories
  items : Items
  actors : Table Actor Actor.id
  ledger : Ledger
  orders : Orders
  fulfilled : List Fulfilled
  deliveries : Deliveries
  farm : Option FarmVariables
  exchange_no_backpack : ∀ inv ∈ inventories, inv.inventoryType = some 0 → inv.id ≠ exchangeInv

/-- `ERROR_TOKENS`, under their aliases. -/
inductive Refusal
  | playerOnline | noCharacter | noBackpack | unlockWriteFailed | withdrawRejected | writeFailed
  deriving DecidableEq, Repr

/-! ## Swatches -/

def swatchPrefix : List (String × String) :=
  [("Placeables", "PlaceableDyePack"), ("LightArmor", "LArmCharDyepack"),
    ("Stillsuit", "StillSCharDyepack"), ("HeavyArmor", "HArmCharDyepack")]

def swatchOverrides : List (String × String) :=
  [("Taligari_Stillsuit_Swatch", "StillSCharDyepackTalgari")]

def knownUnlocks : List String :=
  ["HArmCharDyepackAgrosaz", "HArmCharDyepackAlexin", "HArmCharDyepackAtre",
    "HArmCharDyepackDyvetz", "HArmCharDyepackEcaz", "HArmCharDyepackHagal", "HArmCharDyepackHark",
    "HArmCharDyepackHurata", "HArmCharDyepackImota", "HArmCharDyepackKenola",
    "HArmCharDyepackLindaren", "HArmCharDyepackMaros", "HArmCharDyepackMikarrol",
    "HArmCharDyepackMoritani", "HArmCharDyepackMutelli", "HArmCharDyepackNovebruns",
    "HArmCharDyepackRichese", "HArmCharDyepackSor", "HArmCharDyepackSpinette",
    "HArmCharDyepackTalgari", "HArmCharDyepackThorvald", "HArmCharDyepackTseida",
    "HArmCharDyepackVarota", "HArmCharDyepackVernius", "HArmCharDyepackWallach",
    "HArmCharDyepackWayku", "HArmCharDyepackWydras", "LArmCharDyepackAgrosaz",
    "LArmCharDyepackAlexin", "LArmCharDyepackAtre", "LArmCharDyepackDyvetz",
    "LArmCharDyepackEcaz", "LArmCharDyepackHagal", "LArmCharDyepackHark", "LArmCharDyepackHurata",
    "LArmCharDyepackImota", "LArmCharDyepackKenola", "LArmCharDyepackLindaren",
    "LArmCharDyepackMaros", "LArmCharDyepackMikarrol", "LArmCharDyepackMoritani",
    "LArmCharDyepackMutelli", "LArmCharDyepackNovebruns", "LArmCharDyepackRichese",
    "LArmCharDyepackSor", "LArmCharDyepackSpinette", "LArmCharDyepackTalgari",
    "LArmCharDyepackThorvald", "LArmCharDyepackTseida", "LArmCharDyepackVarota",
    "LArmCharDyepackVernius", "LArmCharDyepackWallach", "LArmCharDyepackWayku",
    "LArmCharDyepackWydras", "PlaceableDyePackAlexin", "PlaceableDyePackArgosaz",
    "PlaceableDyePackAtreides", "PlaceableDyePackDyvetz", "PlaceableDyePackEcaz",
    "PlaceableDyePackHagal", "PlaceableDyePackHarkonnen", "PlaceableDyePackHurata",
    "PlaceableDyePackImota", "PlaceableDyePackKenola", "PlaceableDyePackLindaren",
    "PlaceableDyePackMaros", "PlaceableDyePackMikarrol", "PlaceableDyePackMoritani",
    "PlaceableDyePackMutelli", "PlaceableDyePackNovebruns", "PlaceableDyePackRichese",
    "PlaceableDyePackSor", "PlaceableDyePackSpinette", "PlaceableDyePackTaligari",
    "PlaceableDyePackThorvald", "PlaceableDyePackTseida", "PlaceableDyePackVarota",
    "PlaceableDyePackVernius", "PlaceableDyePackWallach", "PlaceableDyePackWayku",
    "PlaceableDyePackWydras", "StillSCharDyepackAgrosaz", "StillSCharDyepackAlexin",
    "StillSCharDyepackAtre", "StillSCharDyepackDyvetz", "StillSCharDyepackEcaz",
    "StillSCharDyepackHagal", "StillSCharDyepackHark", "StillSCharDyepackHurata",
    "StillSCharDyepackImota", "StillSCharDyepackKenola", "StillSCharDyepackLindaren",
    "StillSCharDyepackMaros", "StillSCharDyepackMikarrol", "StillSCharDyepackMoritani",
    "StillSCharDyepackMutelli", "StillSCharDyepackNovebruns", "StillSCharDyepackRichese",
    "StillSCharDyepackSor", "StillSCharDyepackSpinette", "StillSCharDyepackTalgari",
    "StillSCharDyepackThorvald", "StillSCharDyepackTseida", "StillSCharDyepackVarota",
    "StillSCharDyepackVernius", "StillSCharDyepackWallach", "StillSCharDyepackWayku",
    "StillSCharDyepackWydras"]

/-- `template_id ~ '_Swatch$'`. -/
def isSwatch (template : String) : Bool := "_Swatch".toList.isSuffixOf template.toList

/-- The house of a template that `SWATCH_RE` matches with the given kind. -/
def swatchHouse (kind template : String) : Option String :=
  let tail := "_".toList ++ kind.toList ++ "_Swatch".toList
  let house := template.toList.take (template.toList.length - tail.length)
  if house ++ tail = template.toList ∧ house ≠ [] ∧ house.all Char.isAlpha = true then
    some (String.ofList house)
  else
    none

def swatchUnlock (template : String) : Option String :=
  ((swatchOverrides.lookup template).or
    (swatchPrefix.findSome? (fun (kind, unlock) =>
      (swatchHouse kind template).map (fun house => unlock ++ house)))).filter
    (fun unlock => unlock ∈ knownUnlocks)

/-- What `read_context` has read before the transaction. -/
structure Context where
  templates : List String
  liveStacks : String → Option Int
  cats : String → Option (Int × Int)

/-- `TEMPLATE_RE`; the `$` of Python lets a line end pass. -/
def templateRe (s : String) : Bool :=
  let cs := if s.toList.getLast? = some '\n' then s.toList.dropLast else s.toList
  1 ≤ cs.length && cs.length ≤ 64 && cs.all (fun c => c.isAlphanum || c == '_')

structure Cap where
  size : Nat
  size_pos : 0 < size

/-- `max(1, n)`. -/
def Cap.atLeastOne (n : Int) : Cap := ⟨(max 1 n).toNat, by omega⟩

/-- `SOLARIS_STACK_MAX`. -/
def Cap.solaris : Cap := ⟨solarisStackMax, by decide⟩

def safeStacks (pak : String → Option Int) (ctx : Context) (template : String) : Option Cap :=
  if (template ∈ ctx.templates ∨ (ctx.liveStacks template).isSome = true) ∧
      templateRe template = true ∧ template ≠ solarisTemplate then
    (pak template.toLower).map fun cap =>
      let observed := (ctx.liveStacks template).getD 0
      let cap := if 0 < observed then min cap observed else cap
      Cap.atLeastOne (min cap stackCeiling)
  else
    none

def safeCats (ctx : Context) (template : String) : Option (Int × Int) :=
  if templateRe template = true ∧ template ≠ solarisTemplate then ctx.cats template else none

theorem safeCats_solaris (ctx : Context) : safeCats ctx solarisTemplate = none :=
  if_neg (fun h => h.2 rfl)

end LastSietch.Landsraad
