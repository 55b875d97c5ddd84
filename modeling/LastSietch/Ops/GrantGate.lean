import LastSietch.Lib.Sql
import LastSietch.Lib.Table

/-!
# The grant gate

`do_grant` of `dune-grant.sh`: the target of a request, the offline preflight, the builder of its
type, and the one transaction that all types share, in which the row of the idempotency key decides
whether the builder's SQL does anything. The builders are a parameter: every statement of theirs that
writes carries `WHERE EXISTS (SELECT 1 FROM _grant_gate WHERE is_new)` or reads a table that such a
statement has filled.

The bans are not here: their builders end the script with a transaction of their own.
-/

namespace LastSietch.DuneGrant

/-- `is_valid_grant_type`, without `ban` and `unban`. -/
inductive GrantType
  | item | itemLive | solari | solariCurrency | houseScrip | intel | recipe | schematicItem
  | factionRep | specXp | keystone | specUnlockTrack | specUnlockAll | charXp | progressionPreset
  | teleport | resetSpecs | resetTutorials | wipeCodex | repairAll | importBlueprint | bbHandoff
  | bbClone | importSolidoToBasebackup | mainQuestUnlock | grantFullJobTree | grantSkillBlock
  | resetFullSkillArea | setStarterClass | alignFaction | journeyFullUnlock | journeyNodeCompletion
  | spiceAddictionEnable | bankItemsBatch | containerItemsBatch
  deriving DecidableEq

/-- The `detail` object, each value as `tostring` gives it. -/
abbrev Detail := List (String × String)

/-- `jq_get_nested detail`. -/
def Detail.nested (d : Detail) (key : String) : String := (d.lookup key).getD ""

structure Request where
  accountId : Nat
  grantType : GrantType
  idem : Nat
  operator : String
  dry : Bool
  deferIfOnline : Bool
  detail : Detail
  /-- `DETAIL_JSON`, where the script's environment has one. -/
  inherited : Option Detail
  deriving DecidableEq

structure Facts where
  accountId : Nat
  grantType : GrantType
  detail : Detail
  deriving DecidableEq

def Request.facts (q : Request) : Facts := ⟨q.accountId, q.grantType, q.detail⟩

def requiresOffline (t : GrantType) (detail : Detail) : Bool :=
  match t with
  | .item | .solari | .intel | .recipe | .schematicItem | .charXp | .keystone | .specUnlockTrack
  | .specUnlockAll | .factionRep | .progressionPreset | .teleport | .resetSpecs | .repairAll => true
  | .specXp => true
  | .mainQuestUnlock | .grantFullJobTree | .grantSkillBlock | .resetFullSkillArea | .setStarterClass
  | .journeyNodeCompletion => true
  | .spiceAddictionEnable => true
  | .importBlueprint => detail.nested "delivery" ≠ "bank"
  | .itemLive | .solariCurrency | .houseScrip | .resetTutorials | .wipeCodex | .bbHandoff | .bbClone
  | .importSolidoToBasebackup | .alignFaction | .journeyFullUnlock | .bankItemsBatch
  | .containerItemsBatch => false

/-- `online_status`: only `'Online'` is told apart. -/
inductive OnlineStatus
  | online | other
  deriving DecidableEq

/-- A row of `encrypted_player_state` joined to its `player_state`. -/
structure Slot where
  accountId : Nat
  playerPawnId : Option Nat
  playerControllerId : Option Nat
  onlineStatus : Option OnlineStatus
  reconnectGracePeriodEnd : Option Nat
  lastLoginTime : Option Nat
  playerStateId : Nat
  deriving DecidableEq

inductive Status
  | applied | deferred
  deriving DecidableEq

/-- A row of `ls_progression_grants`. -/
structure Grant where
  id : Nat
  idempotencyKey : Nat
  accountId : Nat
  grantType : GrantType
  detail : Detail
  operator : String
  status : Status
  deriving DecidableEq

abbrev Ledger := SerialTable Grant (·.id) (·.idempotencyKey)

/-- The gate's `INSERT ... ON CONFLICT (idempotency_key) DO NOTHING`. -/
def Ledger.put? (ledger : Ledger) (q : Request) (detail : Detail) (status : Status) : Option Ledger :=
  ledger.insert?
    (fun id => ⟨id, q.idem, q.accountId, q.grantType, detail, q.operator, status⟩) (fun _ => rfl)

/-- The order of `RESOLVE_TARGET_SQL`: the latest login, no login last, then the latest id. -/
def resolvesBefore (a b : Slot) : Bool :=
  match a.lastLoginTime, b.lastLoginTime with
  | some t, some u => u < t ∨ (t = u ∧ b.playerStateId < a.playerStateId)
  | some _, none => true
  | none, some _ => false
  | none, none => b.playerStateId < a.playerStateId

def resolveTarget (slots : List Slot) (account : Nat) : Option Slot :=
  pick (fun best a => resolvesBefore a best) (slots.filter (·.accountId = account))

def Slot.busy (t : Slot) (now : Nat) : Bool :=
  t.onlineStatus = some .online ∨ ∃ grace ∈ t.reconnectGracePeriodEnd, now < grace

/-! ## The script -/

/-- What a builder leaves: the detail of the row, the checks and the writes of a new grant. -/
structure Plan (γ : Type) where
  detail : Detail
  preflight : γ → Bool
  body : γ → γ

/-- The `build_*` functions, over the tables `γ` of the game: a plan, or an exit code. -/
abbrev Builders (γ : Type) := Request → Slot → γ → Except Nat (Plan γ)

inductive Answer
  | applied (grantId : Nat)
  | replay (grantId : Nat)
  | deferred (grantId : Option Nat)
  | dryRun
  | failed (code : Nat)
  /-- Nothing is printed: `set -u` ends the script. -/
  | unbound
  deriving DecidableEq

def Answer.isMade : Answer → Bool
  | .applied _ | .replay _ => true
  | .deferred _ | .dryRun | .failed _ | .unbound => false

structure Db (γ : Type) where
  slots : List Slot
  ledger : Ledger
  game : γ

inductive Early
  | answer (a : Answer)
  | defer

variable {γ : Type}

/-- `do_grant` up to the transaction. -/
def planGrant (builders : Builders γ) (now : Nat) (db : Db γ) (q : Request) : Except Early (Plan γ) :=
  match resolveTarget db.slots q.accountId with
  | none => .error (.answer (.failed 4))
  | some target =>
    if target.playerPawnId = none ∨ target.playerControllerId = none then
      .error (.answer (.failed 4))
    else if requiresOffline q.grantType q.detail = true ∧ target.busy now = true then
      if q.deferIfOnline = true ∧ q.dry = false then .error .defer
      else .error (.answer (.failed 5))
    else
      match builders q target db.game with
      | .error code => .error (.answer (.failed code))
      | .ok plan => if q.dry = true then .error (.answer .dryRun) else .ok plan

/-- `defer_grant_row`. Its first line reads `DETAIL_JSON`, which `do_grant` has not declared yet. -/
def deferGrantRow (db : Db γ) (q : Request) : Answer × Db γ :=
  match q.inherited with
  | none => (.unbound, db)
  | some detail =>
    match db.ledger.put? q detail .deferred with
    | none => (.deferred none, db)
    | some ledger => (.deferred (some db.ledger.next), { db with ledger })

def transact (db : Db γ) (q : Request) (plan : Plan γ) : Answer × Db γ :=
  match db.ledger.put? q plan.detail .applied with
  | none => (.replay (((db.ledger.get? q.idem).map (·.id)).getD 0), db)
  | some ledger =>
    if plan.preflight db.game = true then
      (.applied db.ledger.next, { db with ledger, game := plan.body db.game })
    else (.failed 6, db)

def doGrant (builders : Builders γ) (now : Nat) (db : Db γ) (q : Request) : Answer × Db γ :=
  match planGrant builders now db q with
  | .error (.answer a) => (a, db)
  | .error .defer => deferGrantRow db q
  | .ok plan => transact db q plan

/-! ## What a request does -/

section

variable {builders : Builders γ} {now : Nat} {db db' : Db γ} {q : Request} {a : Answer}

theorem planGrant_answer (h : planGrant builders now db q = .error (.answer a)) : a.isMade = false := by
  unfold planGrant at h
  split at h
  · cases h
    rfl
  · split at h
    · cases h
      rfl
    · split at h
      · split at h <;> cases h
        rfl
      · split at h
        · cases h
          rfl
        · split at h <;> cases h
          rfl

theorem put?_eq_none {ledger : Ledger} {detail : Detail} {status : Status} :
    ledger.put? q detail status = none ↔ ∃ row ∈ ledger, row.idempotencyKey = q.idem :=
  SerialTable.insert?_eq_none

theorem mem_put? {ledger ledger' : Ledger} {detail : Detail} {status : Status} {row : Grant}
    (h : ledger.put? q detail status = some ledger') :
    row ∈ ledger' ↔ row = ⟨ledger.next, q.idem, q.accountId, q.grantType, detail, q.operator, status⟩ ∨
      row ∈ ledger :=
  SerialTable.mem_insert? h

inductive Does (builders : Builders γ) (now : Nat) (db : Db γ) (q : Request) : Answer → Db γ → Prop
  | nothing (a : Answer) (hmade : a.isMade = false) : Does builders now db q a db
  | deferred (detail : Detail) (ledger : Ledger) (hput : db.ledger.put? q detail .deferred = some ledger) :
      Does builders now db q (.deferred (some db.ledger.next)) { db with ledger }
  | replayed (plan : Plan γ) (hplan : planGrant builders now db q = .ok plan) (row : Grant)
      (hrow : row ∈ db.ledger) (hkey : row.idempotencyKey = q.idem) (id : Nat) :
      Does builders now db q (.replay id) db
  | applied (plan : Plan γ) (hplan : planGrant builders now db q = .ok plan) (ledger : Ledger)
      (hput : db.ledger.put? q plan.detail .applied = some ledger)
      (hpreflight : plan.preflight db.game = true) :
      Does builders now db q (.applied db.ledger.next) { db with ledger, game := plan.body db.game }

theorem doGrant_does (h : doGrant builders now db q = (a, db')) : Does builders now db q a db' := by
  unfold doGrant at h
  split at h
  · rename_i answer hplan
    cases h
    exact .nothing a (planGrant_answer hplan)
  · unfold deferGrantRow at h
    split at h
    · cases h
      exact .nothing _ rfl
    · split at h
      · cases h
        exact .nothing _ rfl
      · rename_i ledger hput
        cases h
        exact .deferred _ ledger hput
  · rename_i plan hplan
    unfold transact at h
    split at h
    · rename_i hput
      obtain ⟨row, hrow, hkey⟩ := put?_eq_none.mp hput
      cases h
      exact .replayed plan hplan row hrow hkey _
    · rename_i ledger hput
      split at h
      · rename_i hpreflight
        cases h
        exact .applied plan hplan ledger hput hpreflight
      · cases h
        exact .nothing _ rfl

/-- Only an answer `applied` changes the game. -/
theorem game_eq_of_not_applied (h : doGrant builders now db q = (a, db'))
    (ha : ∀ id, a ≠ .applied id) : db'.game = db.game := by
  cases doGrant_does h with
  | nothing => rfl
  | deferred => rfl
  | replayed => rfl
  | applied => exact absurd rfl (ha _)

/-- A request that finds its key is answered `replay`, whatever it asks for. -/
theorem doGrant_of_row {plan : Plan γ} (hplan : planGrant builders now db q = .ok plan) {row : Grant}
    (hrow : row ∈ db.ledger) (hkey : row.idempotencyKey = q.idem) :
    ∃ id, doGrant builders now db q = (.replay id, db) := by
  have hput : db.ledger.put? q plan.detail .applied = none := put?_eq_none.mpr ⟨row, hrow, hkey⟩
  unfold doGrant transact
  rw [hplan]
  simp only [hput]
  exact ⟨_, rfl⟩

end

end LastSietch.DuneGrant
