import LastSietch.Portal.Service
import LastSietch.Refinery.Once

/-!
# The weekly dust cap

`portal_refinery_v2_exchange` in front of the writer: the checks of the route, the cap of
`portal_refinery_events` and what the route settles an answer with, as a `Service` whose writer is
`exchange`.

* `exchange_lawful`: what the writer applies is a new row of `ls_refinery_exchanges` with the dust
  that the route has reserved.
-/

namespace LastSietch.Refinery

open Allowance (Spend)
open Portal (Directory Cap Lane Service EventStatus)
open Runs (exec Along)

/-! ## The route -/

def weeklyDustCap : Nat := 250
def windowSeconds : Nat := 7 * 24 * 3600
def safetyMaxBatches : Nat := 500

/-- The keys of `_TEXT` that the route answers. -/
inductive Token
  | csrf | badRequest | unknownRecipe | rateChanged | refineryDisabled | recipeDisabled
  | playerOnline | rateLimited | noBank | noPawnStorage | insufficientInput | insufficientSpice
  | bankFull | bankVolume | idempotencyConflict | unresolved | unavailable | writeFailed | weeklyCap
  deriving DecidableEq, Repr

def tokenMap : Refusal → Option Token
  | .refineryDisabled => some .refineryDisabled
  | .recipeDisabled => some .recipeDisabled
  | .unknownRecipe => some .unknownRecipe
  | .rateChanged => some .rateChanged
  | .badRequest => some .badRequest
  | .playerOnline => some .playerOnline
  | .noBank => some .noBank
  | .noPawnStorage => some .noPawnStorage
  | .insufficient .input _ _ | .shortBy .input _ => some .insufficientInput
  | .insufficient .spice _ _ | .shortBy .spice _ => some .insufficientSpice
  | .noSpace _ => some .bankFull
  | .weeklyCap _ _ _ => some .weeklyCap
  | .idempotencyConflict => some .idempotencyConflict
  | .conservationFailed => some .writeFailed
  | .bankVolume => some .bankVolume
  | .writeFailed => none

/-- A recipe as the host publishes it: a number is `none` where `_pos` cannot read it. -/
structure CatalogRecipe where
  tier : Option Int
  outputTemplate : String
  inputTemplate : Option String
  spiceTemplate : Option String
  inputPerBatch : Option Int
  spicePerBatch : Option Int
  outputPerBatch : Option Int
  enabled : Bool

/-- A catalog that was read. `capsMaxBatches` is the ceiling under `caps`. -/
structure Catalog where
  enabled : Bool
  recipes : List CatalogRecipe
  maxBatchesPerRequest : Option Int
  capsMaxBatches : Option Int
  rateVersion : Option String

def pos (raw : Option Int) (default : Nat) : Nat :=
  match raw with
  | some value => if 0 < value then value.toNat else default
  | none => default

def Catalog.maxBatches (c : Catalog) : Nat :=
  min (pos (c.maxBatchesPerRequest.or c.capsMaxBatches) safetyMaxBatches) safetyMaxBatches

/-- The row of `_shape_recipes` that the route picks. -/
def Catalog.recipe (c : Catalog) (outputTemplate : String) : Option CatalogRecipe :=
  c.recipes.find? (fun r => templateRe r.outputTemplate && r.outputTemplate == outputTemplate)

def Catalog.version (c : Catalog) : Option String := c.rateVersion.filter (fun v => v ≠ "")

/-- What the browser sends, the session and what the route reads on the way. `discordId` is the
identity of the session and `accountId` the linked account it has selected; a field is `none` when
it is not of the type that the route asks for. -/
structure Form where
  discordId : String
  accountId : Nat
  csrfOk : Bool
  refineryEnabled : Bool
  outputTemplate : String
  batches : Option Int
  uuid : Option Nat
  expectedInputTemplate : String
  expectedSpiceTemplate : String
  expectedInputPerBatch : Option Int
  expectedSpicePerBatch : Option Int
  expectedOutputPerBatch : Option Int
  expectedRateVersion : Option String
  ownerCtrl : Option Nat
  catalog : Option (Except (Option Refusal) Catalog)
  online : Option Bool
  storageRateOk : Bool

/-- The columns of `portal_refinery_events` that the cap reads, and what they were reserved for. -/
structure Facts where
  actorIdentity : String
  accountId : Nat
  tier : Nat
  outputTemplate : String
  batches : Nat
  dustUnits : Nat
  deriving DecidableEq, Repr

/-- `exchange_body`. -/
structure Body where
  ownerCtrl : Nat
  accountId : Nat
  outputTemplate : String
  batches : Nat
  uuid : Nat
  expectedInputTemplate : String
  expectedSpiceTemplate : String
  expectedInputPerBatch : Nat
  expectedSpicePerBatch : Nat
  expectedOutputPerBatch : Nat
  expectedRateVersion : String

def positive (raw : Option Int) : Except Token Nat :=
  match raw with
  | some value => if 0 < value then .ok value.toNat else .error .badRequest
  | none => .error .badRequest

def batchesOf (raw : Option Int) : Except Token Nat :=
  match raw with
  | some value => if 1 ≤ value ∧ value ≤ safetyMaxBatches then .ok value.toNat else .error .badRequest
  | none => .error .badRequest

def Form.readCatalog (f : Form) : Except Token Catalog :=
  match f.catalog with
  | none => .error .unavailable
  | some (.error e) => .error ((e.bind tokenMap).getD .unavailable)
  | some (.ok c) => .ok c

def rateVersionOf (shown host : Option String) : Except Token String :=
  match shown, host with
  | none, some _ => .error .badRequest
  | none, none => .error .unavailable
  | some v, none => .ok v
  | some v, some live => if live = v then .ok v else .error .rateChanged

/-- `portal_refinery_v2_exchange`, up to `check_and_reserve`. -/
def Form.handle (f : Form) : Except Token (Nat × Facts × Body) := do
  require (f.csrfOk = true) .csrf
  require (f.refineryEnabled = true) .refineryDisabled
  require (templateRe f.outputTemplate = true) .unknownRecipe
  let batches ← batchesOf f.batches
  let uuid ← orRaise f.uuid .badRequest
  require (templateRe f.expectedInputTemplate = true) .badRequest
  require (templateRe f.expectedSpiceTemplate = true) .badRequest
  let inputPerBatch ← positive f.expectedInputPerBatch
  let spicePerBatch ← positive f.expectedSpicePerBatch
  let outputPerBatch ← positive f.expectedOutputPerBatch
  require (f.expectedRateVersion.all rateVersionRe = true) .badRequest
  let ownerCtrl ← orRaise f.ownerCtrl .unresolved
  let catalog ← f.readCatalog
  require (catalog.enabled = true) .refineryDisabled
  let recipe ← orRaise (catalog.recipe f.outputTemplate) .unknownRecipe
  require (recipe.enabled = true) .recipeDisabled
  require (batches ≤ catalog.maxBatches) .badRequest
  require (recipe.inputTemplate = some f.expectedInputTemplate ∧
    recipe.spiceTemplate = some f.expectedSpiceTemplate ∧
    pos recipe.inputPerBatch 0 = inputPerBatch ∧ pos recipe.spicePerBatch 0 = spicePerBatch ∧
    pos recipe.outputPerBatch 1 = outputPerBatch) .rateChanged
  let rateVersion ← rateVersionOf f.expectedRateVersion catalog.version
  require (f.online ≠ some true) .playerOnline
  require (f.storageRateOk = true) .rateLimited
  pure (uuid,
    ⟨f.discordId, f.accountId, pos recipe.tier 0, f.outputTemplate, batches,
      batches * pos recipe.outputPerBatch 1⟩,
    ⟨ownerCtrl, f.accountId, f.outputTemplate, batches, uuid, f.expectedInputTemplate,
      f.expectedSpiceTemplate, inputPerBatch, spicePerBatch, outputPerBatch, rateVersion⟩)

/-- `WEEKLY_DUST_CAP`, of each tier. -/
def weeklyCap : Cap Facts where
  reason := "weekly_cap"
  window := windowSeconds
  limit := weeklyDustCap
  weight := fun f => f.dustUnits
  group := fun f => [f.actorIdentity, f.outputTemplate]
  scope := fun d f e =>
    decide (e.actorIdentity ∈ d.quotaKeys f.actorIdentity) && e.outputTemplate == f.outputTemplate

def refineryLane : Lane Facts where
  settled := fun status => status == .applied || status == .replay
  caps := fun _ => [weeklyCap]

/-! ## The writer -/

/-- The game's database, and what the writer reads on its host. `outputReadable` is whether its
answer comes back as the JSON it wrote. -/
structure World where
  db : Db
  rates : Option Rates
  refineryEnabled : Bool
  unitVol : Option ℚ
  outputReadable : Bool

structure Change where
  game : Game
  rates : Option Rates
  refineryEnabled : Bool
  unitVol : Option ℚ
  outputReadable : Bool

structure Reply where
  answer : Except Refusal Result
  readable : Bool

def Body.gatherArgs (b : Body) : Option Request :=
  if h : 1 ≤ b.accountId ∧ 1 ≤ b.ownerCtrl ∧ 1 ≤ b.batches then
    some
      { accountId := b.accountId
        ownerCtrl := b.ownerCtrl
        outputTemplate := b.outputTemplate
        batches := b.batches
        idempotencyKey := b.uuid
        expectedInputTemplate := some b.expectedInputTemplate
        expectedSpiceTemplate := some b.expectedSpiceTemplate
        expectedInputPerBatch := some b.expectedInputPerBatch
        expectedSpicePerBatch := some b.expectedSpicePerBatch
        expectedOutputPerBatch := some b.expectedOutputPerBatch
        expectedRateVersion := some b.expectedRateVersion
        dryRun := false
        account_pos := h.1
        owner_pos := h.2.1
        batches_pos := h.2.2 }
  else none

def World.call (w : World) (req : Request) (now : Nat) : Call :=
  { req with rates := w.rates, refineryEnabled := w.refineryEnabled, unitVol := w.unitVol, now }

def World.write (delete : Items → Nat → Int → Items) (now : Nat) (b : Body) (w : World) :
    Reply × World :=
  match b.gatherArgs with
  | none => (⟨.error .badRequest, w.outputReadable⟩, w)
  | some req =>
    let (answer, db) := exchange delete (w.call req now) w.db
    (⟨answer, w.outputReadable⟩, { w with db })

def Reply.applied (r : Reply) : Bool :=
  match r.answer with
  | .ok result => !result.replay
  | .error _ => false

/-- `_NOTHING_TAKEN_TOKENS`. -/
def Refusal.nothingTaken : Refusal → Bool
  | .writeFailed | .refineryDisabled => false
  | _ => true

def Reply.settle (r : Reply) : Option EventStatus :=
  if r.readable then
    match r.answer with
    | .ok result => some (if result.replay then .replay else .applied)
    | .error .refineryDisabled => some .deferred
    | .error e => if e.nothingTaken then some .refused else none
  else none

structure Exchange.Records (e : Exchange) (x : Spend Nat Facts) : Prop where
  key : e.idempotencyKey = x.key
  time : e.createdAt = x.time
  outputTemplate : e.outputTemplate = x.facts.outputTemplate
  accountId : e.accountId = x.facts.accountId
  dustUnits : e.dustUnits = x.facts.dustUnits

@[reducible]
def refinery (delete : Items → Nat → Int → Items) : Service Facts where
  lane := refineryLane
  Form := Form
  Token := Token
  Body := Body
  Reply := Reply
  World := World
  Change := Change
  Row := Exchange
  handle := fun _ => Form.handle
  write := World.write delete
  applied := Reply.applied
  perturb := fun c w =>
    ⟨{ w.db with game := c.game }, c.rates, c.refineryEnabled, c.unitVol, c.outputReadable⟩
  settle := Reply.settle
  lost := none
  rows := fun w => w.db.ledger.rows
  records := Exchange.Records

/-! ## What the writer applies -/

section Lawful

variable {delete : Items → Nat → Int → Items}

theorem handle_spec {f : Form} {key : Nat} {facts : Facts} {body : Body}
    (h : f.handle = .ok (key, facts, body)) :
    body.uuid = key ∧ body.outputTemplate = facts.outputTemplate ∧
      body.accountId = facts.accountId ∧
      facts.dustUnits = body.batches * body.expectedOutputPerBatch := by
  unfold Form.handle at h
  obtain ⟨_, _, h⟩ := bind_eq_ok.mp h
  obtain ⟨_, _, h⟩ := bind_eq_ok.mp h
  obtain ⟨_, _, h⟩ := bind_eq_ok.mp h
  obtain ⟨batches, _, h⟩ := bind_eq_ok.mp h
  obtain ⟨uuid, _, h⟩ := bind_eq_ok.mp h
  obtain ⟨_, _, h⟩ := bind_eq_ok.mp h
  obtain ⟨_, _, h⟩ := bind_eq_ok.mp h
  obtain ⟨inputPerBatch, _, h⟩ := bind_eq_ok.mp h
  obtain ⟨spicePerBatch, _, h⟩ := bind_eq_ok.mp h
  obtain ⟨outputPerBatch, _, h⟩ := bind_eq_ok.mp h
  obtain ⟨_, _, h⟩ := bind_eq_ok.mp h
  obtain ⟨ownerCtrl, _, h⟩ := bind_eq_ok.mp h
  obtain ⟨catalog, _, h⟩ := bind_eq_ok.mp h
  obtain ⟨_, _, h⟩ := bind_eq_ok.mp h
  obtain ⟨recipe, _, h⟩ := bind_eq_ok.mp h
  obtain ⟨_, _, h⟩ := bind_eq_ok.mp h
  obtain ⟨_, _, h⟩ := bind_eq_ok.mp h
  obtain ⟨_, hrate, h⟩ := bind_eq_ok.mp h
  obtain ⟨rateVersion, _, h⟩ := bind_eq_ok.mp h
  obtain ⟨_, _, h⟩ := bind_eq_ok.mp h
  obtain ⟨_, _, h⟩ := bind_eq_ok.mp h
  cases pure_eq_ok.mp h
  refine ⟨rfl, rfl, rfl, ?_⟩
  show batches * pos recipe.outputPerBatch 1 = batches * outputPerBatch
  rw [(require_eq_ok.mp hrate).2.2.2.2]

theorem accept_echo {c : Call} {t : Terms} (h : accept c = .ok t) {n : Nat}
    (hn : c.expectedOutputPerBatch = some n) : t.recipe.outputPerBatch = n := by
  unfold accept at h
  obtain ⟨rates, _, h⟩ := bind_eq_ok.mp h
  obtain ⟨_, _, h⟩ := bind_eq_ok.mp h
  obtain ⟨recipe, _, h⟩ := bind_eq_ok.mp h
  obtain ⟨_, hecho, h⟩ := bind_eq_ok.mp h
  obtain ⟨_, _, h⟩ := bind_eq_ok.mp h
  obtain ⟨_, _, h⟩ := bind_eq_ok.mp h
  cases pure_eq_ok.mp h
  have hecho := require_eq_ok.mp hecho
  simp only [checkRateEcho, Bool.or_eq_false_iff] at hecho
  have hsame : n = recipe.outputPerBatch := by simpa [hn, differs] using hecho.2
  exact hsame.symm

theorem trade_row {t : Terms} {now : Nat} {db db' : Db} {r : Result}
    (h : trade delete t now db = .ok (r, db')) :
    r.replay = false ∧ ∃ row, db'.ledger.rows = row :: db.ledger.rows ∧
      row.idempotencyKey = t.idempotencyKey ∧ row.createdAt = now ∧ row.Agrees t := by
  rw [trade_eq] at h
  obtain ⟨_, _, h⟩ := bind_eq_ok.mp h
  obtain ⟨pawn, _, h⟩ := bind_eq_ok.mp h
  obtain ⟨_, _, h⟩ := bind_eq_ok.mp h
  exact work_row h

theorem exchangeTxn_applied {t : Terms} {now : Nat} {db db' : Db} {r : Result}
    (h : exchangeTxn delete t now db = .ok (r, db')) (hfirst : r.replay = false) :
    db.ledger.get? t.idempotencyKey = none ∧ trade delete t now db = .ok (r, db') := by
  cases hget : db.ledger.get? t.idempotencyKey with
  | none => exact ⟨rfl, (exchangeTxn_fresh hget).symm.trans h⟩
  | some e =>
    unfold exchangeTxn at h
    rw [hget] at h
    dsimp only at h
    split at h
    · cases h
      cases hfirst
    · cases h

theorem exchange_applied {c : Call} {db : Db} {r : Result} (hlive : c.dryRun = false)
    (h : (exchange delete c db).1 = .ok r) (hfirst : r.replay = false) :
    (∀ e ∈ db.ledger, e.idempotencyKey ≠ c.idempotencyKey) ∧
      ∃ t row, accept c = .ok t ∧ (exchange delete c db).2.ledger.rows = row :: db.ledger.rows ∧
        row.idempotencyKey = c.idempotencyKey ∧ row.createdAt = c.now ∧ row.Agrees t := by
  obtain ⟨t, db', haccept, htxn, hafter⟩ := exchange_ok h
  obtain ⟨hfresh, htrade⟩ := exchangeTxn_applied htxn hfirst
  obtain ⟨-, row, hrows, hkey, htime, hagrees⟩ := trade_row htrade
  rw [(accept_spec haccept).2.2.2.1] at hfresh hkey
  refine ⟨Table.get?_eq_none.mp hfresh, t, row, haccept, ?_, hkey, htime, hagrees⟩
  rw [hafter, hlive]
  exact hrows

theorem exchange_replayed {c : Call} {db : Db}
    (h : ∀ r, (exchange delete c db).1 = .ok r → r.replay = true) :
    (exchange delete c db).2 = db := by
  cases hreply : (exchange delete c db).1 with
  | error e => exact exchange_error hreply
  | ok r =>
    obtain ⟨t, db', haccept, htxn, hafter⟩ := exchange_ok hreply
    cases hget : db.ledger.get? t.idempotencyKey with
    | some e =>
      rw [hafter, (exchangeTxn_used hget htxn).1]
      exact ite_self db
    | none =>
      rw [exchangeTxn_fresh hget] at htxn
      have hfirst := h r hreply
      rw [(trade_row htxn).1] at hfirst
      cases hfirst

theorem gatherArgs_spec {b : Body} {req : Request} (h : b.gatherArgs = some req) :
    req.dryRun = false ∧ req.idempotencyKey = b.uuid ∧ req.batches = b.batches ∧
      (req.accountId = b.accountId ∧ req.outputTemplate = b.outputTemplate) ∧
      req.expectedOutputPerBatch = some b.expectedOutputPerBatch := by
  unfold Body.gatherArgs at h
  split at h
  · cases h
    exact ⟨rfl, rfl, rfl, ⟨rfl, rfl⟩, rfl⟩
  · cases h

theorem exchange_lawful : (refinery delete).Lawful where
  applied d f key facts body now w hform happlied := by
    obtain ⟨rfl, htemplate, hacct, hdust⟩ := handle_spec hform
    simp only [refinery, World.write] at happlied ⊢
    cases hreq : body.gatherArgs with
    | none =>
      rw [hreq] at happlied
      cases happlied
    | some req =>
      rw [hreq] at happlied
      obtain ⟨hlive, hkey, hbatches, hacct', hexpected⟩ := gatherArgs_spec hreq
      cases hreply : (exchange delete (w.call req now) w.db).1 with
      | error e =>
        simp only [Reply.applied, hreply] at happlied
        cases happlied
      | ok r =>
        simp only [Reply.applied, hreply, Bool.not_eq_true'] at happlied
        obtain ⟨hfresh, t, row, haccept, hrows, hkey', htime, hagrees⟩ :=
          exchange_applied hlive hreply happlied
        have hspec := accept_spec haccept
        have houtput := (Rates.findRecipe_spec hspec.2.2.2.2.2).2
        refine ⟨fun e he x hx => ?_, row, hrows, ⟨hkey'.trans hkey, htime, ?_, ?_, ?_⟩⟩
        · rw [← hx.key, ← hkey]
          exact hfresh e he
        · exact hagrees.outputTemplate.trans (houtput.trans (hacct'.2.trans htemplate))
        · exact hagrees.accountId.trans (hspec.1.trans (hacct'.1.trans hacct))
        · have hbatches' := hspec.2.2.1.trans hbatches
          rw [hagrees.dustUnits, Terms.dustUnits, accept_echo haccept hexpected, hbatches', hdust]
  replayed now body w happlied := by
    simp only [refinery, World.write] at happlied ⊢
    cases hreq : body.gatherArgs with
    | none => rfl
    | some req =>
      rw [hreq] at happlied
      have hsame : (exchange delete (w.call req now) w.db).2 = w.db := by
        refine exchange_replayed (fun r hr => ?_)
        simpa [Reply.applied, hr] using happlied
      simp only [hsame]
  perturb _ _ := rfl

end Lawful

/-! ## The bound -/

/-- The dust of the rows of `ls_refinery_exchanges` in the window from `T` that were written for
the identity. -/
def dustFor {delete : Items → Nat → Int → Items} (s : (refinery delete).Sys)
    (identity outputTemplate : String) (T : Nat) : Int :=
  s.tally (fun e f => f.actorIdentity = identity ∧ e.outputTemplate = outputTemplate ∧
    T ≤ e.createdAt ∧ e.createdAt ≤ T + windowSeconds) (·.dustUnits)

def copperCatalog : Catalog where
  enabled := true
  recipes := [⟨some 1, "T1UniqueComponent", some "CopperBar", some "MelangeSpice", some 1, some 1,
    some 10, true⟩]
  maxBatchesPerRequest := some 50
  capsMaxBatches := none
  rateVersion := some "2026-09-07a"

def copperForm (accountId ownerCtrl uuid : Nat) (batches : Int) : Form where
  discordId := "4815162342"
  accountId := accountId
  csrfOk := true
  refineryEnabled := true
  outputTemplate := "T1UniqueComponent"
  batches := some batches
  uuid := some uuid
  expectedInputTemplate := "CopperBar"
  expectedSpiceTemplate := "MelangeSpice"
  expectedInputPerBatch := some 1
  expectedSpicePerBatch := some 1
  expectedOutputPerBatch := some 10
  expectedRateVersion := some "2026-09-07a"
  ownerCtrl := some ownerCtrl
  catalog := some (.ok copperCatalog)
  online := some false
  storageRateOk := true

def twoPawns : World where
  db :=
    { game :=
        { characters := [⟨1, some 7, some 5, none, some .offline, none, none⟩,
            ⟨2, some 8, some 6, none, some .offline, none, none⟩]
          inventories := twoBanks
          items := weekStock }
      ledger := Table.empty }
  rates := some (copperRates 1 Nat.one_pos)
  refineryEnabled := true
  unitVol := none
  outputReadable := true

def copperRefinery : Service Facts := refinery deleteInventoryItem

def linkedStart : copperRefinery.Sys := copperRefinery.start 1000000 Directory.empty twoPawns

def linkedDust (s : copperRefinery.Sys) : Int :=
  @dustFor deleteInventoryItem s "4815162342" "T1UniqueComponent" 1000000

def soundRun : List copperRefinery.Act := [.submit (copperForm 1 7 1 1), .write 0, .answer 0]

/-- A batch is lost on its way; its key is sent again with 25 batches, which is answered; and the
alt, for whom the identity still has 240 left, takes 24 batches. -/
def resentRun : List copperRefinery.Act :=
  [.submit (copperForm 1 7 1 1), .drop 0, .lose 0, .tick 60,
    .submit (copperForm 1 7 1 25), .write 1, .answer 1, .tick 60,
    .submit (copperForm 2 8 2 24), .write 2, .answer 2]

theorem soundRun_goes : (exec Service.step linkedStart soundRun).isSome = true := by decide

end LastSietch.Refinery
