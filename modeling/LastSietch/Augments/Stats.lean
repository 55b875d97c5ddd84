import LastSietch.Lib.Json

/-!
# The augment block of an item

`dune-augment.py`: what it reads out of an item's `FAugmentedItemStats` (the names, the grades and
the rolls of the slots) and the block it builds in its place. The three arrays of the block are
parallel: slot `i` is what stands at `i` in each.
-/

namespace LastSietch.Augments

/-- PostgreSQL's `numeric`, in its order. -/
inductive Numeric
  | negInf | num (q : ℚ) | posInf | nan
  deriving DecidableEq

namespace Numeric

/-- `x + d`. -/
def shift (d : ℚ) : Numeric → Numeric
  | .num q => .num (q + d)
  | x => x

/-- `<`; a `NaN` is above everything else. -/
def lt : Numeric → Numeric → Bool
  | .nan, _ => false
  | _, .nan => true
  | .posInf, _ => false
  | _, .posInf => true
  | .num a, .num b => a < b
  | .num _, .negInf => false
  | .negInf, .num _ => true
  | .negInf, .negInf => false

end Numeric

structure Runtime where
  double : ℚ → ℚ
  /-- `float(s)`. -/
  floatOfText : String → Option ℚ
  /-- `str(x)` of what is not a string. -/
  repr : Json → String
  /-- `s::int`. -/
  intOfText : String → Option Int
  /-- `s::numeric`. -/
  numericOfText : String → Option Numeric
  /-- `int(x)`. -/
  int : Json → Option Int

variable (rt : Runtime)

/-- `str(x)`. -/
def Runtime.text : Json → String
  | .str s => s
  | j => rt.repr j

/-- `float(x)`, where it does not raise. -/
def Runtime.float? : Json → Option ℚ
  | .bool b => some (if b then 1 else 0)
  | .int z => some (rt.double z)
  | .dec q => some (rt.double q)
  | .str s => rt.floatOfText s
  | .null | .arr _ | .obj _ => none

/-- `list(x)`, where it does not raise. -/
def listOf? : Json → Option (List Json)
  | .arr l => some l
  | .obj fields => some (fields.map fun f => .str f.1)
  | .str s => some (s.toList.map fun c => .str (String.singleton c))
  | .null | .bool _ | .int _ | .dec _ => none

def strip (s : String) : String :=
  String.ofList ((s.toList.dropWhile Char.isWhitespace).reverse.dropWhile Char.isWhitespace).reverse

/-- `AUGMENT_ID_RE`. -/
def isAugmentId (s : String) : Bool :=
  2 ≤ s.toList.length && s.toList.length ≤ 240 &&
    s.toList.all fun c => c.isAlphanum || c = '_' || c = '.' || c = ':' || c = '-'

def HARD_CAP : Nat := 20

def firsts : List String → List String → List String
  | _, [] => []
  | seen, a :: rest => if a ∈ seen then firsts seen rest else a :: firsts (a :: seen) rest

/-- `validate_augment_ids`, `none` where it fails. -/
def validateAugmentIds (raw : List String) : Option (List String) :=
  let ids := (raw.map strip).filter (· ≠ "")
  if ids.all isAugmentId then some ((firsts [] ids).take HARD_CAP) else none

/-! ## The block as it is read -/

/-- `block[1][key]`. -/
def part? (stats : Fields) (key : String) : Option Json :=
  ((stats.lookup "FAugmentedItemStats").bind (·.nth? 1)).bind (·.get? key)

/-- `block[1].get(key) or []`, as far as it can be gone through by index. -/
def part (stats : Fields) (key : String) : List Json :=
  ((part? stats key).map (·.elements)).getD []

def isArray : Option Json → Bool
  | some (.arr _) => true
  | _ => false

/-- `str(a.get("Name"))` of an entry that has one. -/
def nameOf (entry : Json) : Option String :=
  ((entry.get? "Name").filter (·.truthy)).map rt.text

def installedAugmentIds (stats : Fields) : List String :=
  (part stats "AppliedAugments").filterMap (nameOf rt)

/-- A grade that `installed_grades` accepts. -/
def gradeOf : Json → Option Int
  | .int g => if 1 ≤ g ∧ g ≤ 5 then some g else none
  | _ => none

def dictGet {β : Type} (d : List (String × β)) (key : String) : Option β := d.reverse.lookup key

def installedGrades (stats : Fields) : List (String × Int) :=
  ((part stats "AppliedAugments").zip (part stats "AppliedAugmentQualities")).filterMap fun p => do
    let name ← nameOf rt p.1
    let grade ← gradeOf p.2
    some (name, grade)

def installedGradesBySlot (stats : Fields) : List (Option Int) :=
  (part stats "AppliedAugments").zipIdx.filterMap fun p =>
    (nameOf rt p.1).map fun _ => ((part stats "AppliedAugmentQualities")[p.2]?).bind gradeOf

/-- An entry of `AppliedAugmentRollData`. -/
structure Payload where
  statRolls : List Json
  appliedEffectIndices : List Json

def Payload.json (p : Payload) : Json :=
  .obj [("StatRolls", .arr p.statRolls), ("AppliedEffectIndices", .arr p.appliedEffectIndices)]

/-- What `installed_rolls` keeps of a slot. -/
structure Kept where
  statRolls : List Json
  appliedEffectIndices : Json

/-- One turn of `installed_rolls`: `none` where it raises, `some none` where it skips the slot. -/
def keptEntry (entry data : Json) : Option (Option (String × Kept)) :=
  match nameOf rt entry with
  | none => some none
  | some name =>
    if data.truthy = false then some none
    else
      match data with
      | .obj fields =>
        match fields.lookup "StatRolls" with
        | some (.arr (r :: rolls)) => do
          let floats ← (r :: rolls).mapM rt.float?
          let indices := ((fields.lookup "AppliedEffectIndices").filter (·.truthy)).getD (.arr [])
          some (some (name, ⟨floats.map .dec, indices⟩))
        | _ => some none
      | _ => none

/-- `installed_rolls`: nothing at all where one slot raises. -/
def installedRolls (stats : Fields) : List (String × Kept) :=
  let turns := ((part stats "AppliedAugments").zip (part stats "AppliedAugmentRollData")).mapM
    fun p => keptEntry rt p.1 p.2
  (turns.map (·.filterMap id)).getD []

/-- `resolve_grades`, with `preserve`. -/
def resolveGrades (ids : List String) (stats : Fields) (default : Int) (swapSlot : Option Nat) :
    List Int :=
  let have' := installedGrades rt stats
  let out := ids.map fun a => (dictGet have' a).getD default
  match swapSlot with
  | some i => out.set i default
  | none => out

def newlyInstalledSlots (ids : List String) (stats : Fields) (swapSlot : Option Nat) : List Nat :=
  (ids.zipIdx.filter fun p => some p.2 = swapSlot ∨ p.1 ∉ installedAugmentIds rt stats).map (·.2)

/-- A row of `read_roll_shapes`. -/
structure RollShape where
  rollCount : Nat
  appliedEffectIndices : Json

/-- A fresh draw: as many values as the shape or the catalogue has. The `draw` stands for the random
numbers. -/
def drawPayload (rollCount : String → Nat) (shape : Option RollShape) (draw : Nat → ℚ) (a : String) :
    Payload :=
  let n := match shape with
    | some s => if 0 < s.rollCount then s.rollCount else rollCount a
    | none => rollCount a
  let indices := match shape with
    | some s => s.appliedEffectIndices.elements
    | none => []
  ⟨(List.range (max 1 n)).map fun k => .dec (draw k), indices⟩

/-- The payload of one slot, `none` where `list(...)` raises. -/
def rollPayload (rollCount : String → Nat) (shape : Option RollShape) (draw : Nat → ℚ)
    (keep : List (String × Kept)) (rerollOnly : Option (List String)) (a : String) : Option Payload :=
  match rerollOnly, dictGet keep a with
  | some only, some kept =>
    if a ∉ only then (listOf? kept.appliedEffectIndices).map fun l => ⟨kept.statRolls, l⟩
    else some (drawPayload rollCount shape draw a)
  | _, _ => some (drawPayload rollCount shape draw a)

/-- `build_roll_payloads`, with `random` and with `transplant`. -/
def buildRollPayloads (rollCount : String → Nat) (shapes : String → Option RollShape)
    (draw : Nat → Nat → ℚ) (keep : List (String × Kept)) (rerollOnly : Option (List String))
    (ids : List String) : Option (List Payload) :=
  ids.zipIdx.mapM fun p => rollPayload rollCount (shapes p.1) (draw p.2) keep rerollOnly p.1

/-- `build_augmented_item_stats_value`. -/
def faugValue (ids : List String) (grades : List Int) (payloads : List Payload) : Json :=
  .arr [.arr [], .obj
    [("AppliedAugments", .arr (ids.map fun a => .obj [("Name", .str a)])),
     ("AppliedAugmentQualities", .arr (grades.map .int)),
     ("AppliedAugmentRollData", .arr (payloads.map Payload.json))]]

def slotName (stats : Fields) (i : Nat) : Option Json :=
  ((part? stats "AppliedAugments").bind (·.nth? i)).bind (·.get? "Name")

def slotGrade (stats : Fields) (i : Nat) : Option Json :=
  (part? stats "AppliedAugmentQualities").bind (·.nth? i)

def slotRolls (stats : Fields) (i : Nat) : Option Json :=
  ((part? stats "AppliedAugmentRollData").bind (·.nth? i)).bind (·.get? "StatRolls")

def slotIndices (stats : Fields) (i : Nat) : Option Json :=
  ((part? stats "AppliedAugmentRollData").bind (·.nth? i)).bind (·.get? "AppliedEffectIndices")

end LastSietch.Augments
