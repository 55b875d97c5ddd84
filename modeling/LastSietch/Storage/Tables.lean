import LastSietch.Refinery.Exchange
import LastSietch.Karum.Writer

/-!
# The tables of the storage manager

The rows the storage writer reads and writes, and which inventories it counts as an owner's.
The characters, the inventories and the items are those of the refinery, the balances those of
the Karum.

* `Db.Owns`: the delivery set. `owns_depositSrc` and `owns_pawnInventory` say that every
  inventory the writer can reach for an owner is in it.
-/

namespace LastSietch.Storage

open Refinery (Game Inventory Item Items RemovesExactly)
open Karum (Balances PlayerState SolarisProc)

/-! ## Rows -/

/-- A row of `placeables`; its `id` is that of its actor. -/
structure Placeable where
  id : Nat
  ownerEntityId : Option Nat
  buildingType : Option String
  isHologram : Option Bool
  deriving DecidableEq

/-- A row of `actor_fgl_entities`. -/
structure FglEntity where
  actorId : Nat
  entityId : Nat
  deriving DecidableEq

/-- A row of `permission_actor_rank`. -/
structure ActorRank where
  permissionActorId : Nat
  playerId : Nat
  rank : Int
  deriving DecidableEq

/-- A row of `actors`. -/
structure Actor where
  id : Nat
  actorClass : Option String
  map : Option String
  deriving DecidableEq

/-- `VALID_PAWN_KINDS`. -/
inductive StorageKind
  | bank | backpack
  deriving DecidableEq, Repr

/-- A row of `ls_storage_pawn_moves`. -/
structure MoveRow where
  idempotencyKey : Nat
  ownerCtrl : Nat
  itemId : Nat
  expectedTemplate : Option String
  templateId : String
  requestedSrcKind : StorageKind
  requestedDstKind : StorageKind
  srcInventoryId : Nat
  dstInventoryId : Nat
  srcPositionIndex : Int
  dstPositionIndex : Int
  stackSize : Int
  volumeUnverified : Bool
  deriving DecidableEq

abbrev Moves := Table MoveRow (·.idempotencyKey)

structure Land where
  placeables : List Placeable
  entities : List FglEntity
  ranks : List ActorRank
  actors : List Actor

structure Db where
  game : Game
  land : Land
  balances : Balances
  moves : Moves

def solarisTemplate : String := "SolarisCoin"

def solarisStackMax : Nat := 100000

def withdrawCap : Nat := 100000

def statsJson : String :=
  "\x7b\"FItemStackAndDurabilityStats\": [[], \x7b\"DecayedMaxDurability\": 0.0\x7d]\x7d"

/-- The building types of `owned_inv_sql`. -/
def baseContainerTypes : List String :=
  ["SpiceSilo_Placeable", "GenericContainer_Placeable", "StorageContainer_Placeable",
    "MediumStorageContainer_Placeable"]

/-- The vehicle classes of `owned_inv_sql`. -/
def vehicleClasses : List String :=
  ["ornithopter", "buggy", "sandbike", "crawler", "containervehicle"]

/-- `s ILIKE '%part%'`, for a `part` in lower case. -/
def ilike (s part : String) : Bool := decide (part.toList <:+: s.toList.map Char.toLower)

/-! ## Whose inventories -/

/-- `inventories JOIN encrypted_player_state ON player_pawn_id = actor_id`, of one type. -/
def Db.pawnInventories (db : Db) (characters : List PlayerState) (type : Nat) :
    List Inventory :=
  characters.flatMap (fun c => db.game.inventories.rows.filter (fun inv =>
    c.playerPawnId.isSome ∧ inv.actorId = c.playerPawnId ∧ inv.inventoryType = some type))

def Db.charactersOf (db : Db) (owner : Nat) : List PlayerState :=
  db.game.characters.filter (fun c => c.playerControllerId = some owner)

/-- The characters of `pawn_storage_inv_sql`. -/
def Db.liveCharacters (db : Db) (owner : Nat) : List PlayerState :=
  (db.charactersOf owner).filter (fun c => c.characterState ≠ some .deleted)

def Db.firstRanks (db : Db) (owner : Nat) : List Nat :=
  (db.land.ranks.filter (fun par => par.rank = 1 ∧ par.playerId = owner)).map
    (·.permissionActorId)

def Db.baseContainers (db : Db) (owner : Nat) : List Inventory :=
  (db.land.placeables.filter (fun p => p.isHologram = some false ∧
      ∃ type ∈ baseContainerTypes, p.buildingType = some type)).flatMap (fun p =>
    (db.land.entities.filter (fun afe => p.ownerEntityId = some afe.entityId ∧
        afe.actorId ∈ db.firstRanks owner)).flatMap (fun _ =>
      db.game.inventories.rows.filter (fun inv => inv.actorId = some p.id)))

def Db.vehicleCargo (db : Db) (owner : Nat) : List Inventory :=
  (db.land.actors.filter (fun a => a.id ∈ db.firstRanks owner ∧
      (∃ map ∈ a.map, map ≠ "DeepDesert") ∧
      ∃ c ∈ a.actorClass, ∃ part ∈ vehicleClasses, ilike c part = true)).flatMap (fun a =>
    db.game.inventories.rows.filter (fun inv => inv.actorId = some a.id ∧
      inv.inventoryType = some 0 ∧ ∃ mic ∈ inv.maxItemCount, 0 < mic))

/-- `owned_inv_sql`. -/
def Db.ownedInv (db : Db) (owner : Nat) : List Inventory :=
  (db.baseContainers owner ++ db.pawnInventories (db.charactersOf owner) 30 ++
    db.vehicleCargo owner).dedup

/-- The `kind` of a destination. -/
inductive DstKind
  | backpack | container | bank
  deriving DecidableEq, Repr

/-- A row of `delivery_dst_sql`, with the inventory it is joined to. -/
structure Candidate where
  inv : Inventory
  pri : Nat
  kind : DstKind
  deriving DecidableEq

/-- `delivery_dst_sql`. -/
def Db.deliveryDst (db : Db) (owner : Nat) (selected : Option Nat) : List Candidate :=
  (db.pawnInventories (db.charactersOf owner) 0).map (fun inv => ⟨inv, 0, .backpack⟩) ++
    (db.ownedInv owner).map (fun inv =>
      ⟨inv,
        if selected = some inv.id then 1 else if inv.inventoryType = some 30 then 3 else 2,
        if inv.inventoryType = some 30 then .bank else .container⟩)

/-- `deposit_src_sql`. -/
def Db.depositSrc (db : Db) (owner : Nat) (srcInv : Option Nat) : List Nat :=
  match srcInv with
  | none => (db.ownedInv owner).map (·.id)
  | some src => ((db.deliveryDst owner none).map (·.inv.id)).filter (fun id => id = src)

def Db.owned (db : Db) (owner : Nat) : List Nat := (db.deliveryDst owner none).map (·.inv.id)

def InSet (inventories : List Nat) (r : Item) : Prop := ∃ id ∈ inventories, r.inventoryId = some id

instance (inventories : List Nat) (r : Item) : Decidable (InSet inventories r) := by
  unfold InSet
  infer_instance

section Sets

variable {db : Db} {owner : Nat} {id : Nat}

theorem mem_owned : id ∈ db.owned owner ↔
    (∃ inv ∈ db.pawnInventories (db.charactersOf owner) 0, inv.id = id) ∨
      ∃ inv ∈ db.ownedInv owner, inv.id = id := by
  simp [Db.owned, Db.deliveryDst]

theorem owned_of_deliveryDst {selected : Option Nat} {c : Candidate}
    (hc : c ∈ db.deliveryDst owner selected) : c.inv.id ∈ db.owned owner := by
  rw [mem_owned]
  rcases List.mem_append.mp hc with hc | hc
  · obtain ⟨inv, hinv, rfl⟩ := List.mem_map.mp hc
    exact Or.inl ⟨inv, hinv, rfl⟩
  · obtain ⟨inv, hinv, rfl⟩ := List.mem_map.mp hc
    exact Or.inr ⟨inv, hinv, rfl⟩

theorem owned_of_depositSrc {srcInv : Option Nat} (h : id ∈ db.depositSrc owner srcInv) :
    id ∈ db.owned owner := by
  cases srcInv with
  | none =>
    obtain ⟨inv, hinv, rfl⟩ := List.mem_map.mp h
    exact mem_owned.mpr (Or.inr ⟨inv, hinv, rfl⟩)
  | some src => exact (List.mem_filter.mp h).1

theorem mem_pawnInventories {characters : List PlayerState} {type : Nat} {inv : Inventory} :
    inv ∈ db.pawnInventories characters type ↔
      inv ∈ db.game.inventories ∧ inv.inventoryType = some type ∧
        ∃ c ∈ characters, c.playerPawnId.isSome ∧ inv.actorId = c.playerPawnId := by
  simp only [Db.pawnInventories, List.mem_flatMap, List.mem_filter, decide_eq_true_eq]
  constructor
  · rintro ⟨c, hc, hinv, hpawn, hactor, htype⟩
    exact ⟨hinv, htype, c, hc, hpawn, hactor⟩
  · rintro ⟨hinv, htype, c, hc, hpawn, hactor⟩
    exact ⟨c, hc, hinv, hpawn, hactor, htype⟩

theorem owned_of_live {type : Nat} (htype : type = 0 ∨ type = 30) {inv : Inventory}
    (h : inv ∈ db.pawnInventories (db.liveCharacters owner) type) :
    inv.id ∈ db.owned owner := by
  have hall : inv ∈ db.pawnInventories (db.charactersOf owner) type := by
    obtain ⟨hinv, htype, c, hc, hpawn⟩ := mem_pawnInventories.mp h
    exact mem_pawnInventories.mpr ⟨hinv, htype, c, (List.mem_filter.mp hc).1, hpawn⟩
  rw [mem_owned]
  rcases htype with rfl | rfl
  · exact Or.inl ⟨inv, hall, rfl⟩
  · refine Or.inr ⟨inv, ?_, rfl⟩
    rw [Db.ownedInv, List.mem_dedup]
    exact List.mem_append_left _ (List.mem_append_right _ hall)

end Sets

structure Engine where
  solaris : SolarisProc
  deleteItems : Items → List Nat → Items
  deleteInventoryItem : Items → Nat → Int → Items
  mem_deleteItems : ∀ (items : Items) (ids : List Nat) (r : Item),
    r ∈ deleteItems items ids ↔ r ∈ items ∧ r.id ∉ ids
  removesExactly : RemovesExactly deleteInventoryItem

def coinsIn (inventories : List Nat) (r : Item) : Int :=
  if r.templateId = solarisTemplate ∧ InSet inventories r then r.stackSize else 0

def Db.coins (db : Db) (owner : Nat) : Int :=
  (db.game.items.rows.map (coinsIn (db.owned owner))).sum

def Db.wealth (db : Db) (owner : Nat) : Int := db.balances.of owner + db.coins owner

/-- `items_stack_size_check`. -/
def Checked (items : Items) : Prop := ∀ r ∈ items, 0 < r.stackSize

instance (items : Items) : Decidable (Checked items) :=
  inferInstanceAs (Decidable (∀ r ∈ items.rows, 0 < r.stackSize))

end LastSietch.Storage
