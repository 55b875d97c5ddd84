import LastSietch.Augments.Plan

/-!
# The augment transaction

`build_augment_sql`: the replay check and the cap of a keyed write, which come before anything is
locked, and then, under the lock of the item, the consume loop, the new stats, the invariants, the
update and the audit row. From the item's lock on the transaction holds the rows it writes, so all
that follows the lock is one step here.

The keystones of step 4 are not here: they are rows of their own, and nothing of this reads them.
-/

namespace LastSietch.Augments

variable (rt : Runtime)

/-! ## The consume loop -/

/-- The copies that a `FOR` loop has spent, and what it has read from them. -/
structure Loop where
  items : Table Item (·.id)
  spliced : List (Nat × List Json × List Json)
  consumed : List (Nat × Item)

/-- `(... #>> ...)::int`. -/
def gradeInt : Option Json → Except Token (Option Int)
  | none | some .null => .ok none
  | some (.int z) =>
    if -2147483648 ≤ z ∧ z ≤ 2147483647 then .ok (some z) else .error .writeFailed
  | some (.str s) => (orRaise (rt.intOfText s) .writeFailed).map some
  | some _ => .error .writeFailed

/-- `ci.stats #> '{FAugmentItemStats,1,key}'`. -/
def Item.inner (it : Item) (key : String) : Option Json :=
  ((it.stats.lookup "FAugmentItemStats").bind (·.nth? 1)).bind (·.get? key)

/-- `val::numeric` of an element; a `null` has none. -/
def rollValue : Json → Except Token (Option Numeric)
  | .null => .ok none
  | .int z => .ok (some (.num z))
  | .dec q => .ok (some (.num q))
  | .str s => (orRaise (rt.numericOfText s) .writeFailed).map some
  | .bool _ | .arr _ | .obj _ => .error .writeFailed

/-- `EXISTS` over rolls side by side: what is behind the first hit is not read. -/
def existsPair (hit : Numeric → Numeric → Bool) : List (Json × Json) → Except Token Bool
  | [] => .ok false
  | (copy, fitted) :: rest => do
    let c ← rollValue rt copy
    let f ← rollValue rt fitted
    match c, f with
    | some c, some f => if hit c f = true then .ok true else existsPair hit rest
    | _, _ => existsPair hit rest

/-- The slack of the comparisons, `0.00001`. -/
def epsilon : ℚ := 1 / 100000

/-- `c > f + 0.00001`. -/
def higher (copy fitted : Numeric) : Bool := (fitted.shift epsilon).lt copy

/-- `c < f - 0.00001`. -/
def lower (copy fitted : Numeric) : Bool := copy.lt (fitted.shift (-epsilon))

structure Fitted where
  rolls : Option Json
  sameUpgrade : Bool

/-- `fitted_block`. -/
def fittedSlot (before : Fields) (s : ConsumeSpec) : Except Token Fitted := do
  let name := (slotName before s.slot).filter fun j => match j with
    | .null => false
    | _ => true
  let grade ← gradeInt rt (slotGrade before s.slot)
  let rolls := slotRolls before s.slot
  require (name.isNone = true ∨ isArray rolls = true) .augmentArraysDesynced
  .ok ⟨rolls, name.bind (·.str?) = some s.template ∧ grade = some s.grade⟩

/-- `guard_conjunct`: one position strictly better, or no predecessor to be better than. -/
def improves (fitted : Fitted) (it : Item) : Except Token Bool :=
  match it.inner "StatRolls" with
  | none => .ok (!fitted.sameUpgrade)
  | some (.arr []) => .ok false
  | some (.arr copy) =>
    if fitted.sameUpgrade = false then .ok true
    else
      let old := (fitted.rolls.map (·.elements)).getD []
      if copy.length ≠ old.length then .ok false
      else existsPair rt higher (copy.zip old)
  | some _ => .ok false

/-- The preference of the `ORDER BY`: nothing is worse. -/
def notWorse (fitted : Fitted) (it : Item) : Except Token Bool :=
  if fitted.sameUpgrade = false then .ok true
  else
    let copy := ((it.inner "StatRolls").map (·.elements)).getD []
    let old := (fitted.rolls.map (·.elements)).getD []
    (existsPair rt lower (copy.zip old)).map (!·)

def candidates (db : Db) (items : Table Item (·.id)) (pawn : Nat) (s : ConsumeSpec) : List Item :=
  items.rows.filter fun it => db.carries pawn it ∧ it.templateId = s.template ∧
    it.qualityLevel = s.grade ∧ it.stats.has "FAugmentItemStats" = true

/-- A copy with what the `WHERE` and the `ORDER BY` of a transplant make of it. -/
structure Ranked where
  copy : Item
  fits : Bool
  good : Bool

def rank (fitted : Fitted) (it : Item) : Except Token Ranked := do
  let fits ← improves rt fitted it
  if fits = true then (notWorse rt fitted it).map fun good => ⟨it, fits, good⟩ else .ok ⟨it, fits, false⟩

/-- `ORDER BY good DESC, ci.id`. -/
def Ranked.before (a b : Ranked) : Bool :=
  (a.good && !b.good) || (a.good == b.good && decide (a.copy.id < b.copy.id))

/-- The copy that the locking `SELECT` takes. -/
def selectCopy (transplant : Bool) (fitted : Fitted) (copies : List Item) :
    Except Token (Option Item) :=
  if transplant = false then .ok (pick (fun it best => it.id < best.id) copies)
  else do
    let ranked ← copies.mapM (rank rt fitted)
    .ok ((pick Ranked.before (ranked.filter (·.fits))).map (·.copy))

def missingCopy (transplant : Bool) (fitted : Fitted) (copies : List Item) : Token :=
  let usable := copies.filter fun it => match it.inner "StatRolls" with
    | some (.arr (_ :: _)) => true
    | _ => !transplant
  if copies = [] then .augmentNotOwned
  else if usable = [] then .augmentRollDataMissing
  else if fitted.sameUpgrade = true then .noImprovement
  else .writeFailed

def transplantOf (it : Item) : Except Token (List Json × List Json) :=
  match it.inner "StatRolls", (it.inner "AppliedEffectIndices").getD (.arr []) with
  | some (.arr (r :: rolls)), .arr indices => .ok (r :: rolls, indices)
  | _, _ => .error .augmentRollDataMissing

/-- `accumulate_block`. -/
def accumulate (transplant : Bool) (st : Loop) (s : ConsumeSpec) (it : Item) :
    Except Token (List (Nat × List Json × List Json)) :=
  if transplant = true then (transplantOf it).map fun p => st.spliced ++ [(s.slot, p.1, p.2)]
  else .ok st.spliced

def consumeOne (db : Db) (pawn : Nat) (before : Fields) (transplant : Bool) (st : Loop)
    (s : ConsumeSpec) : Except Token Loop := do
  let fitted ← fittedSlot rt before s
  let copies := candidates db st.items pawn s
  match ← selectCopy rt transplant fitted copies with
  | none => .error (missingCopy transplant fitted copies)
  | some it => do
    let spliced ← accumulate transplant st s it
    .ok { items := st.items.filter (·.id ≠ it.id), spliced, consumed := st.consumed ++ [(s.slot, it)] }

def Json.isNumber : Json → Bool
  | .int _ | .dec _ => true
  | _ => false

/-- `splice_block`, one slot. -/
def spliceOne (payloads : List Payload) (p : Nat × List Json × List Json) :
    Except Token (List Payload) :=
  match payloads[p.1]? with
  | none => .error .augmentArraysDesynced
  | some old => do
    require (p.2.1.length = old.statRolls.length) .augmentArraysDesynced
    require (p.2.1.all Json.isNumber = true) .augmentArraysDesynced
    .ok (payloads.set p.1 ⟨p.2.1, p.2.2⟩)

def baseBlocks (isWeapon : Bool) (stats : Fields) : Fields :=
  let stats := stats.ensure "FCustomizationStats" (.arr [.arr [], .obj []])
  let stats := stats.ensure "FItemStackAndDurabilityStats" (.arr [.arr [], .obj
    [("CurrentDurability", .int 100), ("MaxDurability", .int 100), ("DecayedMaxDurability", .int 100)]])
  if isWeapon = true then stats.ensure "FWeaponItemStats" (.arr [.arr [], .obj [("CurrentAmmo", .int 0)]])
  else stats

/-- `COALESCE(jsonb_array_length(...), 0)`. -/
def arrayLength : Option Json → Except Token Nat
  | none => .ok 0
  | some (.arr l) => .ok l.length
  | some _ => .error .writeFailed

def newStats (t : Tx) (before : Fields) (spliced : List (Nat × List Json × List Json)) :
    Except Token Fields := do
  let payloads ← spliced.foldlM spliceOne t.payloads
  let slots ← arrayLength (part? before "AppliedAugments")
  require (slots ≤ t.ids.length) .augmentCountShrank
  require (t.ids.length = t.grades.length ∧ t.ids.length = payloads.length) .augmentArraysDesynced
  .ok ((baseBlocks t.isWeapon before).put "FAugmentedItemStats" (faugValue t.ids t.grades payloads))

structure Write where
  tx : Tx
  pawn : Nat
  before : Db
  after : Db
  oldStats : Fields
  newStats : Fields
  consumed : List (Nat × Item)

/-- `rerolled_lit`. -/
def Tx.rerolled (t : Tx) : List String := if t.transplant = true then [] else t.rerollOnly.getD t.ids

def auditRow (t : Tx) (began : Nat) (consumed : List (Nat × Item)) (id : Nat) : AuditRow :=
  { id, createdAt := began, ownerCtrl := t.owner, itemId := t.itemId, templateId := t.templateId,
    op := t.op, transplant := t.transplant, rerolled := t.rerolled,
    consumedItemIds := consumed.map (·.2.id), idempotencyKey := t.idempotencyKey }

/-- Steps 1 to 6b, in a transaction that began at `began`. -/
def applyTx (db : Db) (began : Nat) (t : Tx) : Except Token Write := do
  let player ← orRaise (db.players.get? t.owner) .notOwner
  let pawn ← orRaise player.playerPawnId .notOwner
  require (player.onlineStatus = .offline ∧ player.inGrace began = false) .playerOnline
  let it ← orRaise (db.items.get? t.itemId) .notOwner
  require (db.carries pawn it = true) .notOwner
  require (it.templateId = t.templateId) .templateMismatch
  let st ← t.consumeSpecs.foldlM (consumeOne rt db pawn it.stats t.transplant) ⟨db.items, [], []⟩
  let stats ← newStats t it.stats st.spliced
  let items := st.items.update (fun r => r.id = t.itemId ∧ r.inventoryId = it.inventoryId)
    (fun r => { r with stats })
  let audit ← orRaise (db.audit.insert? (auditRow t began st.consumed) (fun _ => rfl)) .writeFailed
  .ok { tx := t, pawn, before := db, after := { db with items, audit }, oldStats := it.stats,
        newStats := stats, consumed := st.consumed }

def Db.replays (db : Db) (t : Tx) : Bool := (db.audit.get? t.idempotencyKey).isSome

def Db.capped (db : Db) (began : Nat) (t : Tx) : Bool :=
  t.consumeSpecs = [] ∧ REROLL_CAP ≤ db.recentRerolls t.itemId began

end LastSietch.Augments
