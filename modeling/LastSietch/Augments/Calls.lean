import LastSietch.Augments.Writer

/-!
# Calls of the writer

`do_live` from its arguments to its answer, any number of calls side by side: the reads, the begin
of the transaction, the replay guard with the cap, and the write are steps of their own, and the
game changes players, inventories, items and keystones in between. Every call has a key. `log` is
the history of the committed writes.
-/

namespace LastSietch.Augments

structure Report where
  augments : List String
  grades : List Int
  statRolls : List (List Json)
  deriving DecidableEq

/-- `fields.get(key) or []`. -/
def orEmpty (fields : Fields) (key : String) : Json :=
  ((fields.lookup key).filter (·.truthy)).getD (.arr [])

def sequence? : Json → Option (List Json)
  | .arr l => some l
  | .str s => some (s.toList.map fun c => .str (String.singleton c))
  | .null | .bool _ | .int _ | .dec _ | .obj _ => none

/-- `list((entry or {}).get("StatRolls") or [])`. -/
def entryRolls? (entry : Json) : Option (List Json) :=
  if entry.truthy = false then some []
  else
    match entry with
    | .obj fields => listOf? (orEmpty fields "StatRolls")
    | _ => none

/-- `block_slots`, `none` for its three `None`. -/
def blockSlots (rt : Runtime) (block : Option Json) : Option Report :=
  match block.bind (·.nth? 1) with
  | some (.obj fields) =>
    let ids := (orEmpty fields "AppliedAugments").elements.filterMap (nameOf rt)
    if ids = [] then none
    else do
      let quals ← sequence? (orEmpty fields "AppliedAugmentQualities")
      let grades ← (quals.take ids.length).mapM rt.int
      let rolldata ← sequence? (orEmpty fields "AppliedAugmentRollData")
      let rolls ← (rolldata.take ids.length).mapM entryRolls?
      some ⟨ids, grades, rolls⟩
  | _ => none

/-- The value of `FAugmentedItemStats`. -/
def block (stats : Fields) : Option Json := stats.lookup "FAugmentedItemStats"

/-- The end of `do_live`: what the block does not say is taken from what was meant to be written. -/
def Tx.report (rt : Runtime) (t : Tx) (stats : Fields) : Report :=
  match blockSlots rt (block stats) with
  | some after =>
    { augments := after.augments
      grades := if after.grades = [] then t.grades else after.grades
      statRolls := if after.statRolls = [] then t.payloads.map (·.statRolls) else after.statRolls }
  | none => ⟨t.ids, t.grades, t.payloads.map (·.statRolls)⟩

def KEYSTONES_CLOTHING : List Nat := [42, 43]
def KEYSTONES_MELEE : List Nat := [44, 45, 46]
def KEYSTONES_RANGED : List Nat := [47, 48, 49]

def keystonesFor (cat : Catalogue) (kind : Kind) (ids : List String) : List Nat :=
  match kind with
  | .clothing => KEYSTONES_CLOTHING
  | .weapon | .unknown =>
    match cat.weaponSubkind ids with
    | (true, false) => KEYSTONES_MELEE
    | (false, true) => KEYSTONES_RANGED
    | (true, true) | (false, false) => KEYSTONES_MELEE ++ KEYSTONES_RANGED

/-- Step 4: `INSERT ... WHERE NOT EXISTS`. -/
def ensureKeystones (player : Nat) (keystones : List Nat) (rows : List (Nat × Nat)) :
    List (Nat × Nat) :=
  rows ++ (keystones.filter fun k => (player, k) ∉ rows).map fun k => (player, k)

/-! ## The calls -/

structure Call where
  ownerCtrl : Nat
  itemId : Nat
  idempotencyKey : Nat
  body : Body
  deriving DecidableEq

/-- The call as a request, of which `do_live` reads no more than the call has. -/
def Call.request (c : Call) : Request where
  ownerCtrl := c.ownerCtrl
  itemId := c.itemId
  mode := .reroll
  augments := []
  rerollOnly := none
  swapSlot := none
  swapGrade := none
  idempotencyKey := c.idempotencyKey
  owned := []
  targetedUpgrade := false

inductive Answer
  | failed (t : Token)
  | replayed (r : Report)
  | written (r : Report)
  deriving DecidableEq

inductive CallStage
  | asked
  | planned (t : Tx)
  | begun (t : Tx) (began : Nat)
  | counted (t : Tx) (began : Nat)
  | answered (a : Answer)

structure Sent where
  call : Call
  /-- The call had been committed before when it was sent. No step reads it. -/
  again : Bool
  stage : CallStage

structure Commit where
  call : Call
  write : Write

/-- The rows of `purchased_specialization_keystones` are player and keystone. -/
structure World where
  db : Db
  keystones : List (Nat × Nat)
  now : Nat
  sent : List Sent
  /-- No query reads it. -/
  log : List Commit

/-- What the game writes: anything but the audit, and nothing where it has `none`. -/
structure Game where
  players : Option (Table Player (·.playerControllerId))
  inventories : Option (Table Inventory (·.id))
  items : Option (Table Item (·.id))
  keystones : Option (List (Nat × Nat))

inductive Event
  | tick (d : Nat)
  | game (g : Game)
  | call (c : Call)
  | read (i : Nat) (draw : Nat → Nat → ℚ)
  | begin_ (i : Nat)
  | check (i : Nat)
  | write (i : Nat)

def Event.of? : Event → Option Nat
  | .tick _ | .game _ | .call _ => none
  | .read i _ | .begin_ i | .check i | .write i => some i

namespace World

variable (rt : Runtime) (cat : Catalogue)

def committed (w : World) (c : Call) : Bool := w.log.any (·.call = c)

def setStage (w : World) (i : Nat) (s : Sent) (stage : CallStage) : World :=
  { w with sent := w.sent.set i { s with stage } }

/-- `do_live` up to its transaction. -/
def read (w : World) (c : Call) (draw : Nat → Nat → ℚ) : CallStage :=
  let plan := w.db.itemPlan w.now c.ownerCtrl c.itemId
  let used := w.db.recentRerolls c.itemId w.now
  match doLive rt cat c.request c.body plan used w.db.rollShapes draw with
  | .ok t => .planned t
  | .error e => .answered (.failed e)

/-- `replay_block`, whose result has no row where the item is gone, and `cap_block`. -/
def check (w : World) (t : Tx) (began : Nat) : CallStage :=
  if w.db.replays t = true then
    match w.db.items.get? t.itemId with
    | some it => .answered (.replayed (t.report rt it.stats))
    | none => .answered (.failed .writeFailed)
  else if w.db.capped began t = true then .answered (.failed .rerollCapped)
  else .counted t began

def commit (w : World) (i : Nat) (s : Sent) (t : Tx) (d : Write) : World :=
  { w.setStage i s (.answered (.written (t.report rt d.newStats))) with
    db := d.after
    keystones := ensureKeystones t.owner (keystonesFor cat (cat.templateKind t.templateId) t.ids)
      w.keystones
    log := w.log ++ [⟨s.call, d⟩] }

def write (w : World) (i : Nat) (s : Sent) (t : Tx) (began : Nat) : World :=
  match applyTx rt w.db began t with
  | .ok d => w.commit rt cat i s t d
  | .error e => w.setStage i s (.answered (.failed e))

def step (w : World) : Event → Option World
  | .tick d => some { w with now := w.now + d }
  | .game g =>
    some { w with
      db := { w.db with
        players := g.players.getD w.db.players
        inventories := g.inventories.getD w.db.inventories
        items := g.items.getD w.db.items }
      keystones := g.keystones.getD w.keystones }
  | .call c => some { w with sent := w.sent ++ [⟨c, w.committed c, .asked⟩] }
  | .read i draw =>
    match w.sent[i]? with
    | some ⟨c, again, .asked⟩ => some (w.setStage i ⟨c, again, .asked⟩ (w.read rt cat c draw))
    | _ => none
  | .begin_ i =>
    match w.sent[i]? with
    | some ⟨c, again, .planned t⟩ => some (w.setStage i ⟨c, again, .planned t⟩ (.begun t w.now))
    | _ => none
  | .check i =>
    match w.sent[i]? with
    | some ⟨c, again, .begun t began⟩ =>
      some (w.setStage i ⟨c, again, .begun t began⟩ (w.check rt t began))
    | _ => none
  | .write i =>
    match w.sent[i]? with
    | some ⟨c, again, .counted t began⟩ =>
      some (w.write rt cat i ⟨c, again, .counted t began⟩ t began)
    | _ => none

end World

end LastSietch.Augments
