import LastSietch.Karum.Tables

/-!
# The repair writer

Whom `dune-repair-write.py` lets write and what the write is about: the offline gate, the target
inventories of an item repair, and the vehicle that a vehicle refurbish resolves the inventory to.
-/

namespace LastSietch.Repairs

open Karum (OnlineStatus)

inductive Action
  | box | gear | everything | vehicle
  deriving DecidableEq

/-- A row of `encrypted_player_state`. -/
structure Player where
  playerControllerId : Nat
  playerPawnId : Nat
  onlineStatus : Option OnlineStatus
  reconnectGracePeriodEnd : Option Nat
  deriving DecidableEq

structure Inventory where
  id : Nat
  actorId : Nat
  inventoryType : Nat
  deriving DecidableEq

/-- A row of `permission_actor_rank`. -/
structure Rank where
  permissionActorId : Nat
  playerId : Nat
  deriving DecidableEq

structure Placeable where
  id : Nat
  ownerEntityId : Nat
  isHologram : Bool
  deriving DecidableEq

/-- A row of `actor_fgl_entities`. -/
structure Entity where
  entityId : Nat
  actorId : Nat
  deriving DecidableEq

structure Game where
  players : List Player
  inventories : List Inventory
  vehicles : List Nat
  ranks : List Rank
  placeables : List Placeable
  entities : List Entity

inductive Token
  | playerOnline | notOwned | noInv
  deriving DecidableEq

namespace Game

variable (g : Game) (owner : Nat)

def player : Option Player := g.players.find? (fun p => p.playerControllerId = owner)

def ranked (actor : Nat) : Bool :=
  g.ranks.any (fun r => r.permissionActorId = actor ∧ r.playerId = owner)

def offline (now : Nat) : Bool :=
  match g.player owner with
  | none => false
  | some p => p.onlineStatus = some .offline ∧ ∀ grace ∈ p.reconnectGracePeriodEnd, ¬ now < grace

def carriedInvTypes : List Nat := [0, 1, 15]

def carriedInv : List Nat :=
  match g.player owner with
  | none => []
  | some p => (g.inventories.filter (fun v =>
      v.actorId = p.playerPawnId ∧ v.inventoryType ∈ carriedInvTypes)).map (·.id)

def bankInv : List Nat :=
  (g.inventories.filter (fun v => v.inventoryType = 30 ∧ g.players.any (fun p =>
    p.playerControllerId = owner ∧ p.playerPawnId = v.actorId))).map (·.id)

/-- `owned_inv_sql`: placeables and vehicles of any rank, and the bank. -/
def ownedInv : List Nat :=
  (g.inventories.filter (fun v => g.placeables.any (fun p => p.id = v.actorId ∧ p.isHologram = false ∧
    g.entities.any (fun e => e.entityId = p.ownerEntityId ∧ g.ranked owner e.actorId)))).map (·.id) ++
  g.bankInv owner ++
  (g.inventories.filter (fun v => v.actorId ∈ g.vehicles ∧ g.ranked owner v.actorId)).map (·.id)

/-- `_resolve_vehicle_sql`. -/
def resolveVehicle (invId : Nat) : Option Nat :=
  (g.inventories.find? (fun v => v.id = invId ∧ v.actorId ∈ g.vehicles ∧ g.ranked owner v.actorId)).map
    (·.actorId)

/-- `target_inv_cte`. -/
def targetInv (action : Action) (invId : Nat) : List Nat :=
  match action with
  | .box => if invId ∈ g.ownedInv owner then [invId] else []
  | .gear => g.carriedInv owner
  | .everything => g.carriedInv owner ++ g.bankInv owner
  | .vehicle => []

/-- `build_repair_sql`: what the transaction that commits has repaired, a vehicle or inventories. -/
def write (now : Nat) (action : Action) (invId : Nat) : Except Token (Nat ⊕ List Nat) :=
  if g.offline owner now = false then .error .playerOnline
  else
    match action with
    | .vehicle =>
      match g.resolveVehicle owner invId with
      | none => .error .notOwned
      | some vehicle => .ok (.inl vehicle)
    | action =>
      match g.targetInv owner action invId with
      | [] => .error (if action = .box then .notOwned else .noInv)
      | target => .ok (.inr target)

end Game

end LastSietch.Repairs
