import LastSietch.Augments.Stats
import LastSietch.Lib.Sql
import LastSietch.Lib.Table

/-!
# The augment request

From a player's request to the parameters of the write: `portal_character_augment`, which asks the
writer for a dry run and builds its body from what that reports, and `do_live`, which reads the item
again and works out the names, the grades and the rolls of the block, and what has to be consumed.
Both read outside any transaction.
-/

namespace LastSietch.Augments

/-! ## The database -/

inductive OnlineStatus
  | offline | other
  deriving DecidableEq

/-- A row of `encrypted_player_state` that is not deleted. -/
structure Player where
  playerControllerId : Nat
  playerPawnId : Option Nat
  onlineStatus : OnlineStatus
  reconnectGracePeriodEnd : Option Nat
  deriving DecidableEq

structure Inventory where
  id : Nat
  actorId : Nat
  deriving DecidableEq

structure Item where
  id : Nat
  inventoryId : Nat
  templateId : String
  qualityLevel : Int
  stats : Fields

inductive Op
  | swap | reroll | install
  deriving DecidableEq

/-- A row of `ls_augment_audit` that has a key. -/
structure AuditRow where
  id : Nat
  createdAt : Nat
  ownerCtrl : Nat
  itemId : Nat
  templateId : String
  op : Op
  transplant : Bool
  rerolled : List String
  consumedItemIds : List Nat
  idempotencyKey : Nat
  deriving DecidableEq

structure Db where
  players : Table Player (·.playerControllerId)
  inventories : Table Inventory (·.id)
  items : Table Item (·.id)
  audit : SerialTable AuditRow (·.id) (·.idempotencyKey)

def Db.carries (db : Db) (pawn : Nat) (it : Item) : Bool :=
  (db.inventories.get? it.inventoryId).any (·.actorId = pawn)

def Player.inGrace (p : Player) (now : Nat) : Bool := p.reconnectGracePeriodEnd.any (now < ·)

/-- `REROLL_CAP`. -/
def REROLL_CAP : Nat := 3

/-- `REROLL_WINDOW_HOURS`, in microseconds. -/
def REROLL_WINDOW : Nat := 4 * 3600 * 1000000

/-- The rerolls of an item with a key since the window before `now`. -/
def Db.recentRerolls (db : Db) (item now : Nat) : Nat :=
  (db.audit.rows.filter fun r =>
    r.itemId = item ∧ r.op = .reroll ∧ now < r.createdAt + REROLL_WINDOW).length

/-! ## What the writer's reads give -/

/-- `ERROR_TOKENS`, and what stops the writer before any of them. -/
inductive Token
  | playerOnline | itemNotFound | notOwner | templateMismatch | augmentDisabled | writeFailed
  | unknownItemKind | unknownItemTags | unknownAugment | incompatibleAugment | tooManyAugments
  | badRollMode | rerollCapped | augmentCountShrank | augmentNotOwned | noImprovement
  | augmentArraysDesynced | augmentRollDataMissing
  | badAugmentId | noAugments | badSwapSlot | badRerollOnly | crashed
  deriving DecidableEq

inductive Kind
  | weapon | clothing | unknown
  deriving DecidableEq

structure Catalogue where
  templateKind : String → Kind
  augmentKind : String → Kind
  /-- `augment_fits_item`. -/
  fits : String → String → Option Bool
  /-- `item_tags` gives some. -/
  hasTags : String → Bool
  /-- `augment_roll_count`. -/
  rollCount : String → Nat
  /-- `augment_weapon_subkind`: melee and ranged. -/
  weaponSubkind : List String → Bool × Bool

/-- The object of `read_item_plan`. -/
structure ItemPlan where
  pawn : Option Nat
  offline : Bool
  inGrace : Bool
  item : Option (String × Nat)
  stats : Fields
  owned : Bool

def Db.itemPlan (db : Db) (now owner item : Nat) : ItemPlan :=
  let me := db.players.get? owner
  let row := db.items.get? item
  { pawn := me.bind (·.playerPawnId)
    offline := me.any (·.onlineStatus = .offline)
    inGrace := me.any (·.inGrace now)
    item := row.map fun it => (it.templateId, it.inventoryId)
    stats := (row.map (·.stats)).getD []
    owned := match me.bind (·.playerPawnId), row with
      | some pawn, some it => db.carries pawn it
      | _, _ => false }

def slotCapFor : Kind → Nat
  | .clothing => 2
  | .weapon | .unknown => 3

/-- `preflight`: the errors, before the repeated ones are dropped. -/
def preflight (rt : Runtime) (cat : Catalogue) (plan : ItemPlan) (ids : List String) : List Token :=
  let tmpl := (plan.item.map (·.1)).getD ""
  let kind := cat.templateKind tmpl
  (if plan.pawn = none then [.notOwner] else []) ++
  (if plan.item = none then [.itemNotFound] else []) ++
  (if plan.offline = true ∧ plan.inGrace = false then [] else [.playerOnline]) ++
  (if plan.owned = true then [] else [.notOwner]) ++
  (if kind = .unknown then [.unknownItemKind]
    else
      (if ids.any fun a => cat.augmentKind a ≠ .unknown ∧ cat.augmentKind a ≠ kind
        then [.incompatibleAugment] else []) ++
      (if ids.any fun a => cat.augmentKind a = .unknown then [.unknownAugment] else []) ++
      (if slotCapFor kind < ids.length then [.tooManyAugments] else [])) ++
  (if ids.length < (installedAugmentIds rt plan.stats).length then [.augmentCountShrank] else []) ++
  ids.filterMap fun a =>
    match cat.fits tmpl a with
    | none => some (if cat.hasTags tmpl = true then .unknownAugment else .unknownItemTags)
    | some false => some .incompatibleAugment
    | some true => none

/-- `read_roll_shapes`: the newest standalone row of a template. One row whose rolls are no array
makes the query fail, and then there are no shapes at all. -/
def Db.rollShapes (db : Db) (ids : List String) (a : String) : Option RollShape :=
  let rows := db.items.rows.filter fun it =>
    it.templateId ∈ ids ∧ it.stats.has "FAugmentItemStats" = true
  let newest (b : String) : Option Item :=
    pick (fun it best => best.id < it.id) (rows.filter (·.templateId = b))
  let inner (it : Item) (key : String) : Json :=
    (((it.stats.lookup "FAugmentItemStats").bind (·.nth? 1)).bind (·.get? key)).getD (.arr [])
  let isArray (it : Item) : Bool := match inner it "StatRolls" with
    | .arr _ => true
    | _ => false
  if rows.all isArray then
    (newest a).map fun it => ⟨(inner it "StatRolls").elements.length, inner it "AppliedEffectIndices"⟩
  else none

/-! ## The portal -/

inductive Mode
  | reroll | swap
  deriving DecidableEq

/-- A request whose form is valid, with the caches the portal takes from them what the player holds. -/
structure Request where
  ownerCtrl : Nat
  itemId : Nat
  mode : Mode
  augments : List String
  rerollOnly : Option (List String)
  swapSlot : Option Nat
  swapGrade : Option Int
  idempotencyKey : Nat
  /-- `_load_owned_augments`: names and grades, from a cache. -/
  owned : List (String × Option Int)
  /-- `_v2_targeted_augment_upgrade_enabled`. -/
  targetedUpgrade : Bool
  deriving DecidableEq

structure Probe where
  preflightErrors : List Token
  alreadyInstalled : List String
  alreadyInstalledGrades : List (Option Int)
  deriving DecidableEq

inductive Refusal
  | unresolved | badRequest | itemNotFound | duplicateAugment | augmentNotOwned | preflight (t : Token)
  deriving DecidableEq

/-- `do_dry_run`, on the probe's body. -/
def dryRun (rt : Runtime) (cat : Catalogue) (db : Db) (now : Nat) (r : Request) : Option Probe :=
  match validateAugmentIds r.augments with
  | none | some [] => none
  | some ids =>
    let plan := db.itemPlan now r.ownerCtrl r.itemId
    some ⟨preflight rt cat plan ids, installedAugmentIds rt plan.stats,
      installedGradesBySlot rt plan.stats⟩

structure Body where
  augments : List String
  transplant : Bool
  consume : Bool
  rerollOnly : Option (List String)
  grade : Option Int
  swapSlot : Option Nat
  deriving DecidableEq

def hardErrors : List Token :=
  [.playerOnline, .notOwner, .itemNotFound, .unknownItemKind, .unknownItemTags]

def swapTarget (r : Request) (current : List String) : Except Refusal Nat :=
  if r.augments.length ≠ current.length then .error .badRequest
  else
    let differs (i : Nat) : Bool := r.augments[i]? ≠ current[i]?
    match r.swapSlot with
    | none =>
      match (List.range current.length).filter differs with
      | [i] => .ok i
      | _ => .error .badRequest
    | some k =>
      if (List.range current.length).any fun i => i ≠ k ∧ differs i then .error .badRequest else .ok k

def heldGrade (r : Request) (incoming : String) : Except Refusal Int :=
  let owned := (r.owned.filter (·.1 = incoming)).filter fun o =>
    match r.swapGrade with
    | some g => o.2 = some g
    | none => true
  match owned with
  | [] => .error .augmentNotOwned
  | (_, none) :: _ => .error .augmentNotOwned
  | (_, some g) :: _ => if 1 ≤ g ∧ g ≤ 5 then .ok g else .error .augmentNotOwned

def swapBody (r : Request) (probe : Probe) : Except Refusal Body := do
  let current := probe.alreadyInstalled
  let slot ← swapTarget r current
  let incoming ← orRaise r.augments[slot]? .badRequest
  if (List.range current.length).any fun i => i ≠ slot ∧ current[i]? = some incoming then
    .error .duplicateAugment
  else
    let grade ← heldGrade r incoming
    if current[slot]? = some incoming ∧ (probe.alreadyInstalledGrades[slot]?).join = some grade ∧
        r.targetedUpgrade = false then .error .badRequest
    else
      .ok { augments := current.set slot incoming, transplant := r.targetedUpgrade, consume := true,
            rerollOnly := some [incoming], grade := some grade, swapSlot := some slot }

def rerollBody (r : Request) (probe : Probe) : Except Refusal Body :=
  if (r.rerollOnly.getD []).any (· ∉ probe.alreadyInstalled) then .error .badRequest
  else .ok { augments := probe.alreadyInstalled, transplant := false, consume := false,
             rerollOnly := r.rerollOnly, grade := none, swapSlot := none }

/-- `portal_character_augment`, from the answer of the dry run to the body of the write. -/
def buildBody (r : Request) (answer : Option Probe) : Except Refusal Body :=
  match answer with
  | none => .error .unresolved
  | some probe =>
    match hardErrors.find? (· ∈ probe.preflightErrors) with
    | some t => .error (.preflight t)
    | none =>
      if probe.alreadyInstalled = [] then .error .itemNotFound
      else
        match r.mode with
        | .reroll => rerollBody r probe
        | .swap => swapBody r probe

/-! ## The writer, up to the transaction -/

structure ConsumeSpec where
  template : String
  grade : Int
  slot : Nat
  deriving DecidableEq

/-- What `build_augment_sql` is given. -/
structure Tx where
  owner : Nat
  itemId : Nat
  templateId : String
  isWeapon : Bool
  ids : List String
  grades : List Int
  payloads : List Payload
  consumeSpecs : List ConsumeSpec
  transplant : Bool
  rerollOnly : Option (List String)
  idempotencyKey : Nat

def Tx.op (t : Tx) : Op :=
  if t.consumeSpecs ≠ [] then .swap
  else if t.rerollOnly.isSome = true ∨ t.transplant = false then .reroll
  else .install

def validateSwapSlot (slot : Option Nat) (ids : List String) : Except Token (Option Nat) :=
  match slot with
  | none => .ok none
  | some i => if i < ids.length then .ok (some i) else .error .badSwapSlot

/-- `validate_augment_ids` of `reroll_only`. -/
def validateRerollOnly (only : Option (List String)) : Except Token (Option (List String)) :=
  match only with
  | none => .ok none
  | some raw => (orRaise (validateAugmentIds raw) .badRerollOnly).map some

/-- `do_live`, with what it has read. -/
def doLive (rt : Runtime) (cat : Catalogue) (r : Request) (b : Body) (plan : ItemPlan) (used : Nat)
    (shapes : List String → String → Option RollShape) (draw : Nat → Nat → ℚ) : Except Token Tx := do
  let rerollOnly ← validateRerollOnly b.rerollOnly
  let ids ← orRaise (validateAugmentIds b.augments) .badAugmentId
  require (ids ≠ []) .noAugments
  let swapSlot ← validateSwapSlot b.swapSlot ids
  require (b.consume = true ∨ used < REROLL_CAP) .rerollCapped
  match preflight rt cat plan ids with
  | t :: _ => .error t
  | [] => do
    let tmpl ← orRaise (plan.item.map (·.1)) .itemNotFound
    let payloads ← orRaise (buildRollPayloads cat.rollCount (shapes ids) draw
      (installedRolls rt plan.stats) rerollOnly ids) .crashed
    let grades := resolveGrades rt ids plan.stats (b.grade.getD 5) swapSlot
    let slots := if b.consume = true then newlyInstalledSlots rt ids plan.stats swapSlot else []
    require (b.transplant = false ∨ slots ≠ []) .badRollMode
    .ok { owner := r.ownerCtrl, itemId := r.itemId, templateId := tmpl,
          isWeapon := cat.templateKind tmpl = .weapon, ids, grades, payloads,
          consumeSpecs := slots.map fun i => ⟨ids.getD i "", grades.getD i 0, i⟩,
          transplant := b.transplant, rerollOnly, idempotencyKey := r.idempotencyKey }

end LastSietch.Augments
