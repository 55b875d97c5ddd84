import LastSietch.Lib.Joined
import LastSietch.Lib.Sql
import Mathlib.Data.Rat.Floor

/-!
# Closing a map

`move.sql.in` re-keys what players built, own or parked on the closing instance to the destination,
sends the vehicles that cannot land to their owners' recovery, and takes the characters along. It
writes down what it moves, and `revert.sql.in` undoes the move from that record. The two procedures
of the game are parameters.
-/

namespace LastSietch.MapClose

/-! ## The world -/

inductive ActorState
  | default
  | vehicleRecovery
  | other (label : String)
  deriving DecidableEq

structure Vector where
  x : Option ℚ
  y : Option ℚ
  z : Option ℚ
  deriving DecidableEq

structure Transform where
  location : Vector
  rotation : List ℚ
  deriving DecidableEq

@[ext]
structure Actor where
  id : Int
  className : String
  map : Option String
  partitionId : Option Int
  dimensionIndex : Option Int
  state : ActorState
  serial : Int
  transform : Option Transform
  deriving DecidableEq

def Actor.location (a : Actor) : Option Vector := a.transform.map (·.location)

structure Placeable where
  id : Int
  ownerEntityId : Option Int

/-- Of `transform`, the first three elements are the place. -/
structure BuildingInstance where
  buildingId : Int
  ownerEntityId : Option Int
  transform : List ℚ

/-- A row of `actor_fgl_entities`. -/
structure ActorEntity where
  actorId : Int
  entityId : Int
  slotName : String

/-- A row of `travel_actor_parent`. -/
structure TravelParent where
  id : Int
  parentId : Int

structure WorldPartition where
  partitionId : Int
  map : String
  dimensionIndex : Int
  serverId : Option String

structure Account where
  id : Int
  user : String

/-- `character_state`: only `'Active'` is told apart. -/
inductive CharacterState
  | active | other
  deriving DecidableEq

/-- `online_status`: only `'Offline'` is told apart. -/
inductive OnlineStatus
  | offline | other
  deriving DecidableEq

/-- A row of `encrypted_player_state`, of which `player_state` is a view. -/
structure PlayerState where
  id : Int
  accountId : Int
  characterState : Option CharacterState
  onlineStatus : Option OnlineStatus
  playerPawnId : Option Int
  playerControllerId : Option Int
  playerStateId : Option Int
  homeDimensionIndex : Option Int
  returnDimensionIndex : Option Int
  deriving DecidableEq

/-- A row of `player_travel_state`. -/
structure TravelState where
  flsId : String
  loginTargetDimensionIndex : Option Int
  deriving DecidableEq

/-- A row of `player_respawn_locations`. -/
structure Respawn where
  id : Int
  characterId : Int
  map : String
  dimension : Option Int
  locatorActorId : Option Int
  deriving DecidableEq

structure PermissionActor where
  actorId : Int
  actorName : String
  actorType : Int
  accessLevel : Int
  isChild : Bool
  editedByPlayerId : Option Int
  deriving DecidableEq

structure PermissionRank where
  permissionActorId : Int
  playerId : Int
  rank : Int
  deriving DecidableEq

structure RecoveredVehicle where
  vehicleId : Int
  reason : String
  deriving DecidableEq

/-! ## The record -/

inductive Kind
  | vehicle | building | placeable
  deriving DecidableEq

/-- A row of `@REC@_actors`. -/
structure MovedActor extends Actor where
  kind : Kind
  deriving DecidableEq

/-- A row of `@REC@_characters`. -/
structure Character where
  epsId : Int
  accountId : Int
  fls : String
  playerPawnId : Option Int
  pawnPartition : Option Int
  pawnDimension : Option Int
  pawnMap : Option String
  pawnTransform : Option Transform
  playerControllerId : Option Int
  ctrlPartition : Option Int
  ctrlDimension : Option Int
  playerStateId : Option Int
  statePartition : Option Int
  stateDimension : Option Int
  homeDimensionIndex : Option Int
  returnDimensionIndex : Option Int
  loginTargetDimensionIndex : Option Int
  deriving DecidableEq

/-- A row of `@REC@_respawns`. -/
structure MovedRespawn where
  id : Int
  characterId : Int
  dimension : Option Int
  deriving DecidableEq

/-- A row of `@REC@_vehicle_perms`; the rank is the player and the rank. -/
structure VehiclePerm where
  actor : PermissionActor
  rank : Option (Int × Int)
  deriving DecidableEq

structure Record where
  actors : List MovedActor
  characters : List Character
  respawns : List MovedRespawn
  vehiclePerms : List VehiclePerm
  revertedAt : Option Nat
  deriving DecidableEq

structure Db where
  actors : Table Actor (·.id)
  vehicles : List Int
  buildings : List Int
  totems : List Int
  placeables : Table Placeable (·.id)
  buildingInstances : List BuildingInstance
  actorEntities : List ActorEntity
  travelParents : List TravelParent
  worldPartitions : Table WorldPartition (·.partitionId)
  activeServerIds : List String
  accounts : Table Account (·.id)
  players : Table PlayerState (·.id)
  travel : Table TravelState (·.flsId)
  respawns : Table Respawn (fun r => (r.id, r.characterId))
  permissions : Table PermissionActor (·.actorId)
  ranks : Table PermissionRank (fun r => (r.permissionActorId, r.playerId))
  recovered : Table RecoveredVehicle (·.vehicleId)
  /-- The `@REC@_*` tables. -/
  record : Option Record

/-- The exceptions, by the word after `map_close_move_` or `map_close_revert_`, one for what a
procedure raises and one for a key that is there already. -/
inductive Raised
  | partitionLive | playerOnline | partitionIdentity | alreadyRan
  | countDrift (actors expected : Nat)
  | overlap | recoveryVehicleHasCargo
  | readbackActors | readbackLeftBehind | readbackPawns | readbackControllers
  | readbackPawnLocation | readbackHome | readbackRecovery
  | partitionMissing | noRecordOrAlreadyReverted | actorChangedSinceMove
  | procedure | duplicateKey
  deriving DecidableEq

/-- The closing instance and the destination: two partitions and two dimensions of one map. -/
structure Config where
  srcPart : Int
  srcDim : Int
  dstPart : Int
  dstDim : Int
  partMap : String
  worldMap : String
  parts : srcPart ≠ dstPart
  dims : srcDim ≠ dstDim

/-- What `map-close.sh` hands to the move; an override has the numbers of its array. -/
structure Input where
  expectActors : Nat
  holdTotems : List Int
  recoveryVehicles : List Int
  pawnOverrides : List (String × List (Option ℚ))

/-- The procedures of the game; `none` is a raised exception. -/
structure Procs where
  storeRecoveredVehicle : Int → Db → Option Db
  adminMoveOfflinePlayerToPartition : String → Int → Option Vector → Db → Option Db

variable (cfg : Config) (procs : Procs) (inp : Input)

def Db.actor? (db : Db) (id : Option Int) : Option Actor := id.bind db.actors.get?

def Db.partitionLive (db : Db) : Bool :=
  db.worldPartitions.rows.any fun w =>
    (w.partitionId = cfg.srcPart || w.partitionId = cfg.dstPart) &&
      w.serverId.any (· ∈ db.activeServerIds)

def Db.playerOnline (db : Db) : Bool := db.players.rows.any fun p => p.onlineStatus = some .other

def isSrc (w : WorldPartition) : Bool :=
  w.partitionId = cfg.srcPart && w.map = cfg.partMap && w.dimensionIndex = cfg.srcDim

def isDst (w : WorldPartition) : Bool :=
  w.partitionId = cfg.dstPart && w.map = cfg.partMap && w.dimensionIndex = cfg.dstDim

/-- The held bases: their totems, and what the `Actor` entity of one owns. -/
def Db.hold (db : Db) : List Int :=
  let ent := (db.actorEntities.filter fun e =>
    e.slotName = "Actor" ∧ e.actorId ∈ inp.holdTotems).map (·.entityId)
  inp.holdTotems ++
    (db.placeables.rows.filter fun p => p.ownerEntityId.any (· ∈ ent)).map (·.id) ++
    (db.buildingInstances.filter fun b => b.ownerEntityId.any (· ∈ ent)).map (·.buildingId)

def Db.kind? (db : Db) (id : Int) : Option Kind :=
  if id ∈ db.vehicles then some .vehicle
  else if id ∈ db.buildings then some .building
  else if (db.placeables.get? id).isSome then some .placeable
  else none

/-- `class LIKE '%ChoamExchangeTerminal%'`. -/
def Actor.isTerminal (a : Actor) : Bool := "ChoamExchangeTerminal".toList <:+: a.className.toList

/-- The rows of `@REC@_actors`. -/
def Db.moveSet (db : Db) : List MovedActor :=
  db.actors.rows.filterMap fun a =>
    if a.partitionId = some cfg.srcPart ∧ a.dimensionIndex = some cfg.srcDim ∧
        a.state = .default ∧ ¬a.isTerminal ∧ a.id ∉ db.hold inp ∧ a.id ∉ inp.recoveryVehicles then
      (db.kind? a.id).map fun kind => { a with kind }
    else none

structure Point where
  partition : Option Int
  x : ℚ
  y : ℚ
  z : ℚ

def Point.cell (p : Point) : Int × Int := (⌊p.x / 1000⌋, ⌊p.y / 1000⌋)

/-- A coordinate that is `NULL` puts a point in no cell, or leaves the heights of its cell alone. -/
def point? (partition : Option Int) (x y z : Option ℚ) : Option Point := do
  some ⟨partition, ← x, ← y, ← z⟩

def Db.points (db : Db) (moved : List MovedActor) : List Point :=
  let totems := db.actors.rows.filter fun a => a.state = .default ∧ a.id ∈ db.totems ∧
    (a.partitionId = some cfg.dstPart ∨ ∃ z ∈ moved, z.id = a.id)
  let ent := totems.flatMap fun a => (db.actorEntities.filter fun e =>
    e.actorId = a.id ∧ e.slotName = "Actor").map fun e => (e.entityId, a.partitionId)
  ent.flatMap fun e =>
    (db.buildingInstances.filter fun b => b.ownerEntityId = some e.1).filterMap (fun b =>
      point? e.2 b.transform[0]? b.transform[1]? b.transform[2]?) ++
    (db.placeables.rows.filter fun p => p.ownerEntityId = some e.1).filterMap fun p => do
      let place ← (db.actors.get? p.id).bind (·.location)
      point? e.2 place.x place.y place.z

/-- A cell of both with heights that meet: `min a <= max b + 500` says that for some two heights. -/
def overlaps (points : List Point) : Bool :=
  points.any fun k => k.partition = some cfg.srcPart &&
    let heights (part : Int) := (points.filter fun p =>
      p.partition = some part ∧ p.cell = k.cell).map (·.z)
    let zs := heights cfg.srcPart
    let ms := heights cfg.dstPart
    (zs.any fun z => ms.any fun m => z ≤ m + 500) && (ms.any fun m => zs.any fun z => m ≤ z + 500)

def Input.override? (pawn : Option Int) : Option (List (Option ℚ)) :=
  pawn.bind fun id => inp.pawnOverrides.lookup (toString id)

def Db.cargo (db : Db) : Bool :=
  db.travelParents.any fun t => t.parentId ∈ inp.recoveryVehicles &&
    (db.actors.get? t.id).any fun c => c.state = .default &&
      !((inp.override? (some c.id)).isSome && db.players.rows.any fun e =>
        e.playerPawnId = some c.id && e.characterState = some .active)

def Db.character (db : Db) (e : PlayerState) (acc : Account) : Character :=
  let pa := db.actor? e.playerPawnId
  let pc := db.actor? e.playerControllerId
  let ps := db.actor? e.playerStateId
  { epsId := e.id
    accountId := e.accountId
    fls := acc.user
    playerPawnId := e.playerPawnId
    pawnPartition := pa.bind (·.partitionId)
    pawnDimension := pa.bind (·.dimensionIndex)
    pawnMap := pa.bind (·.map)
    pawnTransform := pa.bind (·.transform)
    playerControllerId := e.playerControllerId
    ctrlPartition := pc.bind (·.partitionId)
    ctrlDimension := pc.bind (·.dimensionIndex)
    playerStateId := e.playerStateId
    statePartition := ps.bind (·.partitionId)
    stateDimension := ps.bind (·.dimensionIndex)
    homeDimensionIndex := e.homeDimensionIndex
    returnDimensionIndex := e.returnDimensionIndex
    loginTargetDimensionIndex := (db.travel.get? acc.user).bind (·.loginTargetDimensionIndex) }

/-- The rows of `@REC@_characters`. -/
def Db.movedCharacters (db : Db) : List Character :=
  db.players.rows.filterMap fun e => do
    let acc ← db.accounts.get? e.accountId
    let c := db.character e acc
    if e.characterState = some .active ∧ (c.pawnPartition = some cfg.srcPart ∨
        c.homeDimensionIndex = some cfg.srcDim ∨ c.returnDimensionIndex = some cfg.srcDim ∨
        c.loginTargetDimensionIndex = some cfg.srcDim) then some c
    else none

/-- The rows of `@REC@_respawns`. -/
def Db.movedRespawns (db : Db) (moved : List MovedActor) : List MovedRespawn :=
  (db.respawns.rows.filter fun r => r.map = cfg.worldMap ∧ r.dimension = some cfg.srcDim ∧
    ∃ z ∈ moved, r.locatorActorId = some z.id).map fun r => ⟨r.id, r.characterId, r.dimension⟩

/-- The rows of `@REC@_vehicle_perms`. -/
def Db.vehiclePerms (db : Db) : List VehiclePerm :=
  (db.permissions.rows.filter fun p => p.actorId ∈ inp.recoveryVehicles).flatMap fun p =>
    (Table.leftJoined (db.ranks.rows.filter fun r => r.permissionActorId = p.actorId)).map fun r =>
      ⟨p, r.map fun r => (r.playerId, r.rank)⟩

def Db.toRecord (db : Db) : Record :=
  let moved := db.moveSet cfg inp
  { actors := moved
    characters := db.movedCharacters cfg
    respawns := db.movedRespawns cfg moved
    vehiclePerms := db.vehiclePerms inp
    revertedAt := none }

def Actor.rekey (a : Actor) : Actor :=
  { a with partitionId := some cfg.dstPart, dimensionIndex := some cfg.dstDim }

def Db.rekeyed (db : Db) (r : Record) : Db :=
  { db with
    record := some r
    actors := db.actors.updateFrom r.actors (fun a z => a.id = z.id) (fun a _ => a.rekey cfg)
    respawns := db.respawns.updateFrom r.respawns
      (fun s z => s.id = z.id ∧ s.characterId = z.characterId)
      (fun s _ => { s with dimension := some cfg.dstDim }) }

def Db.stored (db : Db) : Except Raised Db :=
  (inp.recoveryVehicles.filter (0 < ·)).foldlM
    (fun db v => orRaise (procs.storeRecoveredVehicle v db) .procedure) db

/-- `DELETE FROM permission_actor`, which takes the ranks along. -/
def Db.unlisted (db : Db) (r : Record) : Db :=
  let gone := db.permissions.filter fun p => r.vehiclePerms.any (·.actor.actorId = p.actorId)
  { db with
    permissions := db.permissions.filter fun p =>
      !r.vehiclePerms.any (·.actor.actorId = p.actorId)
    ranks := db.ranks.filter fun s => (gone.get? s.permissionActorId).isNone }

def Character.target (c : Character) : Option Vector :=
  match inp.override? c.playerPawnId with
  | none => c.pawnTransform.map (·.location)
  | some v => some ⟨v[0]?.join, v[1]?.join, v[2]?.join⟩

def Db.moved (db : Db) (r : Record) : Except Raised Db :=
  (r.characters.filter (·.pawnPartition = some cfg.srcPart)).foldlM (fun db c => orRaise
    (procs.adminMoveOfflinePlayerToPartition c.fls cfg.dstPart (c.target inp) db) .procedure) db

def Db.followed (db : Db) (r : Record) : Db :=
  { db with
    actors := db.actors.updateFrom r.characters (fun a c => c.pawnPartition = some cfg.srcPart ∧
        a.partitionId = some cfg.srcPart ∧
        (c.playerControllerId = some a.id ∨ c.playerStateId = some a.id)) (fun a _ => a.rekey cfg)
    players := (db.players.updateFrom r.characters
        (fun e c => e.id = c.epsId ∧ c.homeDimensionIndex = some cfg.srcDim)
        (fun e _ => { e with homeDimensionIndex := some cfg.dstDim })).updateFrom r.characters
      (fun e c => e.id = c.epsId ∧ c.returnDimensionIndex = some cfg.srcDim)
      (fun e _ => { e with returnDimensionIndex := some cfg.dstDim })
    travel := db.travel.updateFrom r.characters
      (fun t c => t.flsId = c.fls ∧ c.loginTargetDimensionIndex = some cfg.srcDim)
      (fun t _ => { t with loginTargetDimensionIndex := some cfg.dstDim }) }

/-! ### The read-back -/

def Actor.Landed (a : Actor) : Prop :=
  a.partitionId = some cfg.dstPart ∧ a.dimensionIndex = some cfg.dstDim ∧ a.state = .default ∧
    a.map = some cfg.worldMap

instance (a : Actor) : Decidable (a.Landed cfg) :=
  inferInstanceAs (Decidable (_ ∧ _ ∧ _ ∧ _))

def Db.leftBehind (db : Db) (hold : List Int) : Bool :=
  db.actors.rows.any fun a => a.partitionId = some cfg.srcPart && a.state = .default &&
    (db.kind? a.id).isSome && !a.isTerminal && a.id ∉ hold

def Db.pawnsLeft (db : Db) : Bool :=
  db.players.rows.any fun e => e.characterState = some .active &&
    (db.actor? e.playerPawnId).any (·.partitionId = some cfg.srcPart)

def Db.controllersLeft (db : Db) (r : Record) : Bool :=
  r.characters.any fun c => c.pawnPartition = some cfg.srcPart &&
    [c.playerControllerId, c.playerStateId].any fun id => (db.actor? id).any fun a =>
      ¬(a.partitionId = some cfg.dstPart ∧ a.dimensionIndex = some cfg.dstDim)

def Vector.whole (v : Vector) : Bool := v.x.isSome && v.y.isSome && v.z.isSome

def Db.pawnAstray (db : Db) (r : Record) : Bool :=
  r.characters.any fun c => c.pawnPartition = some cfg.srcPart &&
    (db.actor? c.playerPawnId).any fun a => !a.location.any (·.whole) ||
      (inp.override? c.playerPawnId).isNone && a.location ≠ c.pawnTransform.map (·.location)

def Db.homeLeft (db : Db) : Bool :=
  db.players.rows.any fun e => e.characterState = some .active &&
    (e.homeDimensionIndex = some cfg.srcDim || e.returnDimensionIndex = some cfg.srcDim)

def Db.unrecovered (db : Db) : Bool :=
  inp.recoveryVehicles.any fun v =>
    0 < v && !((db.recovered.get? v).any (·.reason = "Migrated") &&
      (db.actors.get? v).any (·.state = .vehicleRecovery)) ||
    (db.permissions.get? v).isSome

def Db.readBack (db : Db) (r : Record) (hold : List Int) : Except Raised Unit := do
  require ((r.actors.filter fun z => (db.actors.get? z.id).any (·.Landed cfg)).length =
    r.actors.length) .readbackActors
  require (¬db.leftBehind cfg hold) .readbackLeftBehind
  require (¬db.pawnsLeft cfg) .readbackPawns
  require (¬db.controllersLeft cfg r) .readbackControllers
  require (¬db.pawnAstray cfg inp r) .readbackPawnLocation
  require (¬db.homeLeft cfg) .readbackHome
  require (¬db.unrecovered inp) .readbackRecovery

/-- `move.sql.in`, with `COMMIT` at its end. -/
def move (db : Db) : Except Raised Db := do
  require (¬db.partitionLive cfg) .partitionLive
  require (¬db.playerOnline) .playerOnline
  require ((db.worldPartitions.rows.filter fun w => isSrc cfg w || isDst cfg w).length = 2)
    .partitionIdentity
  require (db.record = none) .alreadyRan
  let r := db.toRecord cfg inp
  require (r.actors.length = inp.expectActors) (.countDrift r.actors.length inp.expectActors)
  require (¬overlaps cfg (db.points cfg r.actors)) .overlap
  require (¬db.cargo inp) .recoveryVehicleHasCargo
  let recovered ← (db.rekeyed cfg r).stored procs inp
  let landed ← (recovered.unlisted r).moved cfg procs inp r
  let done := landed.followed cfg r
  done.readBack cfg inp r (db.hold inp)
  return done

/-! ## The revert -/

def Db.changedSince (db : Db) (r : Record) : Bool :=
  r.actors.any fun z => (db.actors.get? z.id).all fun a =>
    a.partitionId.any (· ≠ cfg.dstPart) || a.dimensionIndex.any (· ≠ cfg.dstDim) ||
      a.state ≠ .default

def Db.placedBack (db : Db) (r : Record) : Db :=
  { db with
    actors := db.actors.updateFrom r.actors (fun a z => a.id = z.id) (fun a z => { a with
      partitionId := z.partitionId, dimensionIndex := z.dimensionIndex, map := z.map })
    respawns := db.respawns.updateFrom r.respawns
      (fun s z => s.id = z.id ∧ s.characterId = z.characterId)
      (fun s z => { s with dimension := z.dimension }) }

def Db.unstored (db : Db) (r : Record) : Except Raised Db := do
  let permissions ← orRaise (db.permissions.insertAll? (r.vehiclePerms.map (·.actor)).dedup)
    .duplicateKey
  let ranks ← orRaise (db.ranks.insertAll? (r.vehiclePerms.filterMap fun p =>
    p.rank.map fun s => ⟨p.actor.actorId, s.1, s.2⟩)) .duplicateKey
  return { db with
    recovered := db.recovered.filter fun v => !r.vehiclePerms.any (·.actor.actorId = v.vehicleId)
    actors := db.actors.updateFrom r.vehiclePerms (fun a p => a.id = p.actor.actorId)
      (fun a _ => { a with state := .default })
    permissions
    ranks }

def Db.broughtBack (db : Db) (r : Record) : Db :=
  { db with
    actors := ((db.actors.updateFrom r.characters
        (fun a c => c.playerPawnId = some a.id ∧ c.pawnPartition = some cfg.srcPart)
        (fun a c => { a with
          partitionId := c.pawnPartition, dimensionIndex := c.pawnDimension, map := c.pawnMap
          transform := c.pawnTransform })).updateFrom r.characters
      (fun a c => c.playerControllerId = some a.id ∧ c.pawnPartition = some cfg.srcPart ∧
        c.ctrlPartition = some cfg.srcPart)
      (fun a c => { a with partitionId := c.ctrlPartition, dimensionIndex := c.ctrlDimension
        })).updateFrom r.characters
      (fun a c => c.playerStateId = some a.id ∧ c.pawnPartition = some cfg.srcPart ∧
        c.statePartition = some cfg.srcPart)
      (fun a c => { a with partitionId := c.statePartition, dimensionIndex := c.stateDimension })
    players := db.players.updateFrom r.characters (fun e c => e.id = c.epsId) (fun e c => { e with
      homeDimensionIndex := c.homeDimensionIndex, returnDimensionIndex := c.returnDimensionIndex })
    travel := db.travel.updateFrom r.characters
      (fun t c => t.flsId = c.fls ∧ c.loginTargetDimensionIndex.isSome)
      (fun t c => { t with loginTargetDimensionIndex := c.loginTargetDimensionIndex }) }

/-- `revert.sql.in`, with `COMMIT` at its end. -/
def revert (now : Nat) (db : Db) : Except Raised Db := do
  require (¬db.partitionLive cfg) .partitionLive
  require (¬db.playerOnline) .playerOnline
  require (db.worldPartitions.rows.any (isSrc cfg)) .partitionMissing
  let r ← orRaise db.record .noRecordOrAlreadyReverted
  require (r.revertedAt = none) .noRecordOrAlreadyReverted
  require (¬db.changedSince cfg r) .actorChangedSinceMove
  let unstored ← (db.placedBack r).unstored r
  let back := { unstored.broughtBack cfg r with record := some { r with revertedAt := some now } }
  require (∀ z ∈ r.actors, ∀ a ∈ back.actors.get? z.id, a.partitionId = z.partitionId ∧
    a.dimensionIndex = z.dimensionIndex ∧ a.map = z.map) .readbackActors
  require (∀ c ∈ r.characters, c.pawnPartition = some cfg.srcPart →
    ∀ a ∈ back.actor? c.playerPawnId, ¬a.partitionId.any (· ≠ cfg.srcPart)) .readbackPawns
  return back

end LastSietch.MapClose
