import LastSietch.Lib.Holdings
import LastSietch.Lib.Sql
import LastSietch.Lib.Table

/-!
# The land-claim tool

`dune-claim-takeover.py`: `--take`, `--register` and `--revert` of a totem. A command reads the claim
and its account, then, where it asks for them, how many totems the account holds, then the rest of
what its transaction needs, and writes. Each reading is a step of its own.

The procs of the game that the transaction calls are a parameter. They act on `permission_actor` and
`permission_actor_rank`; the map markers they make and the notifications they send are not here.
-/

namespace LastSietch.ClaimTakeover

/-! ## The database -/

inductive ActorState
  | baseBackup | other
  deriving DecidableEq

/-- A row of `totems` joined to its `actors` row. -/
structure Totem where
  id : Nat
  actorClass : String
  map : String
  state : ActorState
  deriving DecidableEq

/-- A row of `permission_actor`. -/
structure PermissionActor where
  actorId : Nat
  actorName : String
  actorType : Nat
  accessLevel : Nat
  isChild : Bool
  deriving DecidableEq

/-- A row of `permission_actor_rank`. -/
structure ActorRank where
  permissionActorId : Nat
  playerId : Nat
  rank : Nat
  deriving DecidableEq

def ActorRank.key (r : ActorRank) : Nat × Nat := (r.permissionActorId, r.playerId)

structure Permissions where
  actors : Table PermissionActor (·.actorId)
  ranks : Table ActorRank ActorRank.key

/-- A row of `player_state`. -/
structure Player where
  accountId : Nat
  characterName : String
  playerControllerId : Option Nat
  deriving DecidableEq

inductive LogAction
  | takeover | register | revert | backupSave
  deriving DecidableEq

inductive Outcome
  | ok | noEffect
  deriving DecidableEq

/-- A row of `ls_claim_takeover_log`. -/
structure LogRow where
  id : Nat
  totemId : Nat
  action : LogAction
  accountId : Nat
  playerId : Nat
  characterName : String
  map : String
  priorOwnership : String
  operator : String
  priorOwnerPlayerId : Option Nat
  priorOwnerName : Option String
  outcome : Outcome
  detail : String
  deriving DecidableEq

structure Db where
  totems : Table Totem (·.id)
  perms : Permissions
  players : Table Player (·.accountId)
  mapNames : List (String × Nat)
  log : SerialTable LogRow (·.id) (·.id)

def Permissions.owners (p : Permissions) : List ActorRank := p.ranks.rows.filter (·.rank = 1)

/-- `SELECT player_id ... WHERE permission_actor_id = totem AND rank = 1`. -/
def Permissions.owner? (p : Permissions) (totem : Nat) : Option Nat :=
  (p.owners.find? (·.permissionActorId = totem)).map (·.playerId)

def Db.held (db : Db) (player : Nat) : Nat :=
  (db.perms.owners.filter fun r =>
    r.playerId = player ∧ (db.totems.get? r.permissionActorId).isSome).length

structure ActorPermissionEntry where
  actorId : Nat
  actorName : String
  actorClass : String
  actorType : Nat
  accessLevel : Nat
  isChild : Bool
  deriving DecidableEq

/-- The game's procs, `none` where one raises. -/
structure Procs where
  /-- `permission_actor_takeover` with a `dune.actorpermissionrankdata` of rank 1. -/
  takeover : ActorPermissionEntry → Nat → Permissions → Option Permissions
  /-- `permission_actor_register`, with rank 1. -/
  register : ActorPermissionEntry → Nat → Permissions → Option Permissions
  /-- `permission_remove_player_rank`. -/
  removePlayerRank : Nat → Nat → Permissions → Option Permissions
  /-- `permission_set_player_rank`: totem, player, rank, map. -/
  setPlayerRank : Nat → Nat → Nat → Nat → Permissions → Option Permissions

structure Procs.Documented (procs : Procs) : Prop where
  takeover_owned : ∀ {e player p p'}, procs.takeover e player p = some p' →
    (∃ r ∈ p.owners, r.permissionActorId = e.actorId) → p' = p
  takeover_unowned : ∀ {e player p p'}, procs.takeover e player p = some p' →
    (∀ r ∈ p.owners, r.permissionActorId ≠ e.actorId) →
    (∃ a ∈ p.actors, a.actorId = e.actorId) →
    ∀ r, r ∈ p'.ranks ↔ r = ⟨e.actorId, player, 1⟩ ∨ r ∈ p.ranks ∧ r.permissionActorId ≠ e.actorId
  /-- It falls through to `permission_actor_register`. -/
  takeover_unregistered : ∀ {e player p}, (∀ a ∈ p.actors, a.actorId ≠ e.actorId) →
    (∀ r ∈ p.owners, r.permissionActorId ≠ e.actorId) →
    procs.takeover e player p = procs.register e player p
  register_new : ∀ {e player p p'}, procs.register e player p = some p' →
    (∀ a ∈ p.actors, a.actorId ≠ e.actorId) →
    ∀ r, r ∈ p'.ranks ↔ r = ⟨e.actorId, player, 1⟩ ∨ r ∈ p.ranks ∧ r.key ≠ (e.actorId, player)
  remove : ∀ {totem player p p'}, procs.removePlayerRank totem player p = some p' →
    ∀ r, r ∈ p'.ranks ↔ r ∈ p.ranks ∧ r.key ≠ (totem, player)
  set : ∀ {totem player rank map p p'}, procs.setPlayerRank totem player rank map p = some p' →
    ∀ r, r ∈ p'.ranks ↔ r = ⟨totem, player, rank⟩ ∨ r ∈ p.ranks ∧ r.key ≠ (totem, player)

/-! ## What a command reads -/

/-- The object of `CHECK_SQL`. -/
structure Claim where
  totemId : Nat
  label : String
  actorClass : String
  actorType : Option Nat
  accessLevel : Option Nat
  isChild : Option Bool
  hasPermissionActor : Bool
  map : String
  actorState : ActorState
  ownerPlayerId : Option Nat
  deriving DecidableEq

def Db.check (db : Db) (totem : Nat) : Option Claim :=
  (db.totems.get? totem).map fun t =>
    let pa := db.perms.actors.get? totem
    ⟨t.id, (pa.map (·.actorName)).getD "", t.actorClass, pa.map (·.actorType),
      pa.map (·.accessLevel), pa.map (·.isChild), pa.isSome, t.map, t.state, db.perms.owner? totem⟩

inductive Mode
  | check | take | register | revert
  deriving DecidableEq

structure Command where
  mode : Mode
  totem : Nat
  account : Nat
  operator : String
  forceOwned : Bool
  keepAsCoholder : Bool
  /-- `LASTSIETCH_CLAIM_TAKEOVER_ENABLED` is `1`. -/
  armed : Bool
  /-- `LASTSIETCH_CLAIM_TAKEOVER_ALLOW_OWNED` is `1`. -/
  allowOwned : Bool
  deriving DecidableEq

inductive Answer
  | checked (refusal registerRefusal : Option String)
  | refused (error : String) (code : Nat)
  | written (outcome : Outcome)
  deriving DecidableEq

def CLAIM_CAP : Nat := 3

def registerEligibility (claim : Claim) : Option String :=
  if claim.actorState = .baseBackup then
    some "this is a STORED BACKUP, not a claim on the ground."
  else if claim.hasPermissionActor = true then
    some ("a permission_actor row already EXISTS. This claim is in the permission system; if it " ++
      "has no owner use --take, and if it has one it is healthy and needs nothing.")
  else
    match claim.ownerPlayerId with
    | some owner => some s!"this claim already has a rank-1 owner (player_id {owner})."
    | none => none

def eligibility (claim : Claim) : Option String :=
  if claim.actorState = .baseBackup then
    some ("this is a STORED BACKUP, not a claim on the ground. It sits in the reconstruction tool " ++
      "and nothing is built there.")
  else if claim.hasPermissionActor = false then
    some ("no permission_actor row: takeover would fall through to permission_actor_register, " ++
      "which is a different operation than this tool was reasoned about. Refusing.")
  else
    match claim.ownerPlayerId with
    | some owner => some (s!"this claim is OWNED (rank-1 player_id {owner}). " ++
        "Only orphans may be adopted. The proc would refuse too, but silently.")
    | none => none

/-- The account, once it has a `player_controller_id`. -/
structure Who where
  characterName : String
  pcid : Nat
  deriving DecidableEq

/-- A query, or the error that `psql` gave instead. -/
abbrev Fault := Option String

def queryJson {α : Type} (fault : Fault) (rows : Option α) : Except String α :=
  match fault, rows with
  | some error, _ => .error error
  | none, none => .error "no rows"
  | none, some a => .ok a

def look (db : Db) (c : Command) (claimFault whoFault : Fault) : Except Answer (Claim × Who) :=
  match queryJson claimFault (db.check c.totem) with
  | .error e => .error (.refused ("claim lookup failed: " ++ e) 1)
  | .ok claim =>
    if c.mode = .check then .error (.checked (eligibility claim) (registerEligibility claim))
    else if c.armed = false then
      .error (.refused ("LASTSIETCH_CLAIM_TAKEOVER_ENABLED is not set to 1; refusing to write. " ++
        "--check works without it.") 3)
    else
      match queryJson whoFault (db.players.get? c.account) with
      | .error e => .error (.refused ("account lookup failed: " ++ e) 1)
      | .ok p =>
        match p.playerControllerId.filter (· ≠ 0) with
        | none => .error (.refused s!"account {c.account} has no player_controller_id" 1)
        | some pcid => .ok (claim, ⟨p.characterName, pcid⟩)

/-- What the checks of the mode leave behind: the count, where it was asked for and answered, and the
name of the previous owner. -/
structure Counted where
  held : Option Nat
  priorName : Option String
  deriving DecidableEq

/-- `held, _ = query_json(...)`. -/
def queryHeld (db : Db) (fault : Fault) (pcid : Nat) : Option Nat :=
  (queryJson fault (some (db.held pcid))).toOption

def capCheck (held : Option Nat) (error : String) : Except Answer Unit :=
  if CLAIM_CAP ≤ held.getD 0 then .error (.refused error 1) else .ok ()

/-- The checks of `--register` and of a `--take` that is refused. An orphan is not counted for. -/
def count (db : Db) (c : Command) (claim : Claim) (who : Who) (heldFault nameFault : Fault) :
    Except Answer Counted :=
  match c.mode with
  | .register =>
    match registerEligibility claim with
    | some refusal => .error (.refused refusal 1)
    | none => do
      let held := queryHeld db heldFault who.pcid
      capCheck held
        s!"account {c.account} already holds {held.getD 0} of {CLAIM_CAP} land claims."
      .ok ⟨held, none⟩
  | .take =>
    match eligibility claim with
    | none => .ok ⟨none, none⟩
    | some refusal =>
      match claim.ownerPlayerId with
      | none => .error (.refused refusal 1)
      | some prior =>
        if claim.actorState = .baseBackup ∨ claim.hasPermissionActor = false ∨ c.forceOwned = false then
          .error (.refused refusal 1)
        else if c.allowOwned = false then
          .error (.refused ("--force-owned given but LASTSIETCH_CLAIM_TAKEOVER_ALLOW_OWNED is not 1. " ++
            "Taking a live player's claim needs both.") 3)
        else if prior = who.pcid then
          .error (.refused s!"account {c.account} already owns this claim" 1)
        else do
          let held := queryHeld db heldFault who.pcid
          capCheck held (s!"account {c.account} already holds {held.getD 0} of {CLAIM_CAP} " ++
            "land claims. Free a slot before adopting another; the engine has never seen an " ++
            "over-cap holder and this is not the place to find out what it does.")
          let owner := db.players.rows.find? (·.playerControllerId = some prior)
          .ok ⟨held, (queryJson nameFault owner).toOption.map (·.characterName)⟩
  | .check | .revert => .ok ⟨none, none⟩

/-- A shape of `SHAPE_SQL`. -/
structure Shape where
  actorName : String
  actorType : Nat
  accessLevel : Nat
  deriving DecidableEq

def PermissionActor.shape (a : PermissionActor) : Shape := ⟨a.actorName, a.actorType, a.accessLevel⟩

def Db.examples (db : Db) (actorClass : String) : List Shape :=
  db.perms.owners.filterMap fun r =>
    match db.totems.get? r.permissionActorId, db.perms.actors.get? r.permissionActorId with
    | some t, some a => if t.actorClass = actorClass then some a.shape else none
    | _, _ => none

/-- `ORDER BY count(*) DESC LIMIT 1` over the shapes. -/
def Db.shape? (db : Db) (actorClass : String) : Option Shape :=
  let examples := db.examples actorClass
  pick (fun s best => examples.count best < examples.count s) examples

structure Plan where
  command : Command
  claim : Claim
  who : Who
  counted : Counted
  restoreTo : Option Nat
  priorName : Option String
  entry : Option ActorPermissionEntry
  mapId : Nat
  deriving DecidableEq

/-- The row of a `--take` and of a restoring `--revert`, from the claim. Without an entry its
`None::smallint` is no SQL. -/
def Claim.entry (claim : Claim) : Option ActorPermissionEntry := do
  let actorType ← claim.actorType
  let accessLevel ← claim.accessLevel
  some ⟨claim.totemId, claim.label, claim.actorClass, actorType, accessLevel,
    claim.isChild.getD false⟩

def Db.previous? (db : Db) (totem : Nat) : Option (Nat × Option String) :=
  (db.log.rows.filter (fun r => r.totemId = totem ∧ r.action = .takeover)).findSome? fun r =>
    r.priorOwnerPlayerId.map fun pid => (pid, r.priorOwnerName)

/-- `MAP_NAME_IDS.get(claim.get("map"), 11)`. -/
def mapNameId (map : String) : Nat :=
  ([("HaggaBasin", 11), ("DeepDesert", 7), ("Arrakeen", 1), ("HarkoVillage", 9)].lookup map).getD 11

def resolve (db : Db) (c : Command) (claim : Claim) (who : Who) (counted : Counted)
    (firstFault secondFault : Fault) : Except Answer Plan :=
  match c.mode with
  | .revert =>
    let previous := (queryJson firstFault (db.previous? c.totem)).toOption.filter (·.1 ≠ 0)
    .ok ⟨c, claim, who, counted, previous.map (·.1), previous.bind (·.2), claim.entry, 11⟩
  | .register =>
    match queryJson firstFault (db.shape? claim.actorClass) with
    | .error _ => .error (.refused (s!"no registered totem of class '{claim.actorClass}' to copy a " ++
        "permission entry shape from; refusing to invent one.") 1)
    | .ok shape =>
      match queryJson secondFault (db.mapNames.lookup claim.map) with
      | .error _ => .error (.refused (s!"no map_name_id for map '{claim.map}'; " ++
          "permission_set_player_rank formats \"Map\" UNQUOTED, so a non-numeric value emits " ++
          "invalid JSON to the engine.") 1)
      | .ok mapId => .ok ⟨c, claim, who, counted, none, none,
          some ⟨c.totem, shape.actorName, claim.actorClass, shape.actorType, shape.accessLevel,
            false⟩, mapId⟩
  | .take | .check =>
    .ok ⟨c, claim, who, counted, none, counted.priorName, claim.entry, mapNameId claim.map⟩

/-! ## The transaction -/

variable (procs : Procs)

def Plan.prior (p : Plan) : Option Nat := p.claim.ownerPlayerId.filter (· ≠ 0)

def Plan.removed (p : Plan) : Option Nat :=
  if p.command.forceOwned = true then p.prior else none

def Plan.pre (p : Plan) (perms : Permissions) : Option Permissions :=
  match p.removed with
  | some old => procs.removePlayerRank p.command.totem old perms
  | none => some perms

/-- `--keep-as-coholder`. -/
def Plan.keepCoholder (p : Plan) (perms : Permissions) : Option Permissions :=
  match p.prior with
  | some old =>
    if p.command.keepAsCoholder = true then procs.setPlayerRank p.command.totem old 2 p.mapId perms
    else some perms
  | none => some perms

def Plan.takeCall (p : Plan) (perms : Permissions) : Option Permissions := do
  let entry ← p.entry
  let perms ← p.pre procs perms
  let perms ← procs.takeover entry p.who.pcid perms
  p.keepCoholder procs perms

def Plan.registerCall (p : Plan) (perms : Permissions) : Option Permissions := do
  let entry ← p.entry
  let perms ← procs.register entry p.who.pcid perms
  procs.setPlayerRank p.command.totem p.who.pcid 1 p.mapId perms

def Plan.revertCall (p : Plan) (perms : Permissions) : Option Permissions := do
  let perms ← procs.removePlayerRank p.command.totem p.who.pcid perms
  match p.restoreTo with
  | some old => do
    let entry ← p.entry
    procs.takeover entry old perms
  | none => some perms

def Plan.call (p : Plan) (perms : Permissions) : Option Permissions :=
  match p.command.mode with
  | .take => p.takeCall procs perms
  | .register => p.registerCall procs perms
  | .revert => p.revertCall procs perms
  | .check => none

def Mode.action : Mode → LogAction
  | .take => .takeover
  | .register => .register
  | .check | .revert => .revert

/-- `expect`. -/
def Plan.expected (p : Plan) : Option Nat :=
  match p.command.mode with
  | .take | .register => some p.who.pcid
  | .check | .revert => p.restoreTo

def Plan.logRow (p : Plan) (after : Option Nat) (id : Nat) : LogRow :=
  { id, totemId := p.command.totem, action := p.command.mode.action,
    accountId := p.command.account, playerId := p.who.pcid, characterName := p.who.characterName,
    map := p.claim.map,
    priorOwnership := if p.claim.ownerPlayerId = none then "orphaned" else "owned",
    operator := p.command.operator,
    priorOwnerPlayerId := if p.command.mode = .take then p.removed else none,
    priorOwnerName := p.priorName.filter (· ≠ ""),
    outcome := if after = p.expected then .ok else .noEffect,
    detail := "rank1_after=" ++ ((after.map toString).getD "none") }

/-- The `DO` block: the tables and the outcome, or nothing where it fails. -/
def Plan.run (p : Plan) (db : Db) : Option (Outcome × Db) := do
  let perms ← p.call procs db.perms
  let row := p.logRow (perms.owner? p.command.totem) db.log.next
  let log ← db.log.insert? (p.logRow (perms.owner? p.command.totem)) (fun _ => rfl)
  some (row.outcome, { db with perms, log })

/-! ## The rank-1 rows after a call -/

variable {procs} {p p' : Permissions} {r : ActorRank}

theorem Permissions.mem_owners : r ∈ p.owners ↔ r ∈ p.ranks ∧ r.rank = 1 := by
  simp [owners, Table.mem_def]

theorem Permissions.owner?_eq_none {totem : Nat} :
    p.owner? totem = none ↔ ∀ r ∈ p.owners, r.permissionActorId ≠ totem := by
  simp [owner?]

theorem Permissions.nodup_owners (p : Permissions) : p.owners.Nodup :=
  (p.ranks.unique.of_map ActorRank.key).filter _

/-- As `register_eligibility` wants a totem: without an entry and without an owner. -/
abbrev Permissions.Unregistered (p : Permissions) (totem : Nat) : Prop :=
  p.actors.get? totem = none ∧ p.owner? totem = none

abbrev Permissions.Grants (p : Permissions) (r : ActorRank) (p' : Permissions) : Prop :=
  Granted (·.permissionActorId) p.owners r p'.owners

namespace Procs.Documented

variable {e : ActorPermissionEntry} {totem player : Nat}

theorem register_grants (h : procs.Documented) (hcall : procs.register e player p = some p')
    (hentry : ∀ a ∈ p.actors, a.actorId ≠ e.actorId)
    (howner : ∀ r ∈ p.owners, r.permissionActorId ≠ e.actorId) :
    p.Grants ⟨e.actorId, player, 1⟩ p' := by
  intro x hx
  obtain ⟨hx, hrank⟩ := Permissions.mem_owners.mp hx
  rcases (h.register_new hcall hentry x).mp hx with rfl | ⟨hx, _⟩
  · exact Or.inl rfl
  · have hmem : x ∈ p.owners := Permissions.mem_owners.mpr ⟨hx, hrank⟩
    exact Or.inr ⟨hmem, howner x hmem⟩

theorem takeover_owners (h : procs.Documented) (hcall : procs.takeover e player p = some p') :
    p'.owners ⊆ p.owners ∨ p.Grants ⟨e.actorId, player, 1⟩ p' := by
  by_cases howner : ∃ r ∈ p.owners, r.permissionActorId = e.actorId
  · left
    rw [h.takeover_owned hcall howner]
    exact List.Subset.refl _
  push Not at howner
  right
  by_cases hentry : ∃ a ∈ p.actors, a.actorId = e.actorId
  · intro x hx
    obtain ⟨hx, hrank⟩ := Permissions.mem_owners.mp hx
    rcases (h.takeover_unowned hcall howner hentry x).mp hx with rfl | ⟨hx, hplace⟩
    · exact Or.inl rfl
    · exact Or.inr ⟨Permissions.mem_owners.mpr ⟨hx, hrank⟩, hplace⟩
  · push Not at hentry
    rw [h.takeover_unregistered hentry howner] at hcall
    exact h.register_grants hcall hentry howner

theorem remove_owners (h : procs.Documented) (hcall : procs.removePlayerRank totem player p = some p') :
    p'.owners ⊆ p.owners := by
  intro x hx
  obtain ⟨hx, hrank⟩ := Permissions.mem_owners.mp hx
  exact Permissions.mem_owners.mpr ⟨((h.remove hcall x).mp hx).1, hrank⟩

theorem set_owners {rank map : Nat} (h : procs.Documented)
    (hcall : procs.setPlayerRank totem player rank map p = some p') (hr : r ∈ p'.owners) : r = ⟨totem, player, rank⟩ ∨ r ∈ p.owners := by
  obtain ⟨hr, hrank⟩ := Permissions.mem_owners.mp hr
  exact ((h.set hcall r).mp hr).imp_right fun hr => Permissions.mem_owners.mpr ⟨hr.1, hrank⟩

theorem coholder_owners {map : Nat} (h : procs.Documented)
    (hcall : procs.setPlayerRank totem player 2 map p = some p') :
    p'.owners ⊆ p.owners := by
  intro x hx
  rcases h.set_owners hcall hx with rfl | hx
  · cases (Permissions.mem_owners.mp hx).2
  · exact hx

end Procs.Documented

namespace Plan

variable {plan : Plan}

theorem pre_owners (hdoc : procs.Documented) (hcall : plan.pre procs p = some p') :
    p'.owners ⊆ p.owners := by
  unfold pre at hcall
  split at hcall
  · exact hdoc.remove_owners hcall
  · cases hcall
    exact List.Subset.refl _

theorem keepCoholder_owners (hdoc : procs.Documented) (hcall : plan.keepCoholder procs p = some p') :
    p'.owners ⊆ p.owners := by
  unfold keepCoholder at hcall
  split at hcall
  · split at hcall
    · exact hdoc.coholder_owners hcall
    · cases hcall
      exact List.Subset.refl _
  · cases hcall
    exact List.Subset.refl _

theorem takeCall_owners (hdoc : procs.Documented) (hcall : plan.takeCall procs p = some p') :
    p'.owners ⊆ p.owners ∨ ∃ r, p.Grants r p' := by
  unfold takeCall at hcall
  simp only [Option.bind_eq_bind, Option.bind_eq_some_iff] at hcall
  obtain ⟨entry, _, cleared, hpre, taken, htake, hcoholder⟩ := hcall
  have hcleared := pre_owners hdoc hpre
  have hkept := keepCoholder_owners hdoc hcoholder
  rcases hdoc.takeover_owners htake with hsub | hgrant
  · exact Or.inl (List.Subset.trans hkept (List.Subset.trans hsub hcleared))
  · exact Or.inr ⟨_, (hgrant.subset hkept).of_subset hcleared⟩

theorem revertCall_owners (hdoc : procs.Documented) (hcall : plan.revertCall procs p = some p') :
    p'.owners ⊆ p.owners ∨ ∃ r, p.Grants r p' := by
  unfold revertCall at hcall
  simp only [Option.bind_eq_bind, Option.bind_eq_some_iff] at hcall
  obtain ⟨removed, hremove, hrestore⟩ := hcall
  have hremoved := hdoc.remove_owners hremove
  split at hrestore
  · obtain ⟨entry, _, htake⟩ := Option.bind_eq_some_iff.mp hrestore
    rcases hdoc.takeover_owners htake with hsub | hgrant
    · exact Or.inl (List.Subset.trans hsub hremoved)
    · exact Or.inr ⟨_, hgrant.of_subset hremoved⟩
  · cases hrestore
    exact Or.inl hremoved

theorem registerCall_owners (hdoc : procs.Documented)
    (hentry : ∀ e, plan.entry = some e → e.actorId = plan.command.totem)
    (hfree : p.Unregistered plan.command.totem) (hcall : plan.registerCall procs p = some p') :
    p.Grants ⟨plan.command.totem, plan.who.pcid, 1⟩ p' := by
  unfold registerCall at hcall
  simp only [Option.bind_eq_bind, Option.bind_eq_some_iff] at hcall
  obtain ⟨entry, he, registered, hregister, hset⟩ := hcall
  have hid := hentry entry he
  have hgrant : p.Grants ⟨plan.command.totem, plan.who.pcid, 1⟩ registered := by
    rw [← hid] at hfree ⊢
    exact hdoc.register_grants hregister (Table.get?_eq_none.mp hfree.1)
      (Permissions.owner?_eq_none.mp hfree.2)
  intro x hx
  rcases hdoc.set_owners hset hx with rfl | hx
  · exact Or.inl rfl
  · exact hgrant x hx

theorem call_owners (hdoc : procs.Documented)
    (hentry : ∀ e, plan.entry = some e → e.actorId = plan.command.totem)
    (hfree : plan.command.mode = .register → p.Unregistered plan.command.totem)
    (hcall : plan.call procs p = some p') : p'.owners ⊆ p.owners ∨ ∃ r, p.Grants r p' := by
  unfold call at hcall
  cases hmode : plan.command.mode with
  | check =>
    rw [hmode] at hcall
    cases hcall
  | take =>
    rw [hmode] at hcall
    exact takeCall_owners hdoc hcall
  | register =>
    rw [hmode] at hcall
    exact Or.inr ⟨_, registerCall_owners hdoc hentry (hfree hmode) hcall⟩
  | revert =>
    rw [hmode] at hcall
    exact revertCall_owners hdoc hcall

variable {outcome : Outcome}

theorem run_eq {db db' : Db} (h : plan.run procs db = some (outcome, db')) :
    ∃ perms, plan.call procs db.perms = some perms ∧ db'.perms = perms ∧ db'.totems = db.totems := by
  unfold run at h
  simp only [Option.bind_eq_bind, Option.bind_eq_some_iff] at h
  obtain ⟨perms, hcall, log, _, hdb⟩ := h
  cases hdb
  exact ⟨perms, hcall, rfl, rfl⟩

theorem held_run {db db' : Db} (hdoc : procs.Documented)
    (hentry : ∀ e, plan.entry = some e → e.actorId = plan.command.totem)
    (hfree : plan.command.mode = .register → db.perms.Unregistered plan.command.totem)
    (h : plan.run procs db = some (outcome, db')) (player : Nat) :
    db'.held player ≤ db.held player + 1 := by
  obtain ⟨perms, hcall, rfl, htotems⟩ := run_eq h
  unfold Db.held
  rw [htotems]
  rcases call_owners hdoc hentry hfree hcall with hsub | ⟨r, hgrant⟩
  · exact (length_filter_le_of_subset db'.perms.nodup_owners hsub).trans (Nat.le_succ _)
  · exact hgrant.length_filter_le db'.perms.nodup_owners

theorem sole_run {db db' : Db} (hdoc : procs.Documented)
    (hentry : ∀ e, plan.entry = some e → e.actorId = plan.command.totem)
    (hfree : plan.command.mode = .register → db.perms.Unregistered plan.command.totem)
    (h : plan.run procs db = some (outcome, db')) (hsole : Sole (·.permissionActorId) db.perms.owners) :
    Sole (·.permissionActorId) db'.perms.owners := by
  obtain ⟨perms, hcall, rfl, _⟩ := run_eq h
  rcases call_owners hdoc hentry hfree hcall with hsub | ⟨r, hgrant⟩
  · exact hsole.subset hsub
  · exact hsole.granted hgrant

end Plan

end LastSietch.ClaimTakeover
