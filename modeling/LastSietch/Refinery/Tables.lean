import Mathlib.Algebra.Order.Ring.Rat
import LastSietch.Karum.Tables

/-!
# The tables of the refinery

The rows the refinery writer reads and writes, its rate table, and what it is asked and
answers. Stack sizes and positions are integers of any sign: no result needs the checks of
the game's own schema. Times are seconds, volumes exact rationals, and an idempotency key is
the uuid as a number.

`Rates` carries what `load_rates` and `_valid_recipe` accept, and `Request` what `gather_args`
lets through.
-/

namespace LastSietch.Refinery

open Karum (PlayerState)

/-! ## The game server's tables -/

/-- A row of `inventories`. -/
structure Inventory where
  id : Nat
  actorId : Option Nat
  inventoryType : Option Nat
  maxItemCount : Option Int
  maxItemVolume : Option ℚ
  deriving DecidableEq

/-- A row of `items`. -/
structure Item where
  id : Nat
  inventoryId : Option Nat
  stackSize : Int
  positionIndex : Int
  templateId : String
  stats : String
  qualityLevel : Int
  acquisitionTime : Int
  isNew : Bool
  volumeOverride : Option ℚ
  deriving DecidableEq

abbrev Inventories := Table Inventory (·.id)
abbrev Items := SerialTable Item (·.id) (·.id)

structure Game where
  characters : List PlayerState
  inventories : Inventories
  items : Items

def Items.rowsOf (items : Items) (inv : Nat) (template : String) : List Item :=
  items.rows.filter (fun r => r.inventoryId = some inv ∧ r.templateId = template)

def Items.held (items : Items) (inv : Nat) (template : String) : Int :=
  ((items.rowsOf inv template).map (·.stackSize)).sum

def Items.Share (items : Items) (inv i j : Nat) : Prop :=
  i ≠ j ∧ ∃ r ∈ items, ∃ s ∈ items, r.id = i ∧ s.id = j ∧ r.inventoryId = some inv ∧
    s.inventoryId = some inv ∧ r.positionIndex = s.positionIndex

theorem Items.mem_rowsOf {items : Items} {inv : Nat} {template : String} {r : Item} :
    r ∈ items.rowsOf inv template ↔
      r ∈ items ∧ r.inventoryId = some inv ∧ r.templateId = template := by
  simp only [Items.rowsOf, List.mem_filter, decide_eq_true_eq]
  exact Iff.rfl

def Item.unitsIn (inv : Nat) (template : String) (r : Item) : Int :=
  if r.inventoryId = some inv ∧ r.templateId = template then r.stackSize else 0

theorem Items.held_eq (items : Items) (inv : Nat) (template : String) :
    items.held inv template = (items.rows.map (Item.unitsIn inv template)).sum := by
  unfold Items.held Items.rowsOf
  rw [Table.sum_filter]
  simp only [decide_eq_true_eq]
  rfl

theorem Items.share_of {before after : Items} {inv i j : Nat}
    (hold : ∀ r ∈ after, ∃ r₀ ∈ before, r₀.id = r.id ∧ r₀.inventoryId = r.inventoryId ∧
      r₀.positionIndex = r.positionIndex) (h : after.Share inv i j) : before.Share inv i j := by
  obtain ⟨hne, r, hr, s, hs, hri, hsj, hrinv, hsinv, hpos⟩ := h
  obtain ⟨r₀, hr₀, hrid, hri₀, hrpos⟩ := hold r hr
  obtain ⟨s₀, hs₀, hsid, hsi₀, hspos⟩ := hold s hs
  exact ⟨hne, r₀, hr₀, s₀, hs₀, hrid.trans hri, hsid.trans hsj, hri₀.trans hrinv,
    hsi₀.trans hsinv, hrpos.trans (hpos.trans hspos.symm)⟩

def templateRe (s : String) : Bool :=
  2 ≤ s.length && s.length ≤ 64 && s.toList.all (fun c => c.isAlphanum || c == '_' || c == '-')

def rateVersionRe (s : String) : Bool :=
  1 ≤ s.length && s.length ≤ 32 &&
    s.toList.all (fun c => c.isAlphanum || c == '.' || c == '_' || c == '-')

structure Recipe where
  tier : Nat
  inputTemplate : String
  spiceTemplate : String
  outputTemplate : String
  inputPerBatch : Nat
  spicePerBatch : Nat
  outputPerBatch : Nat
  maxStack : Nat
  enabled : Bool
  deriving DecidableEq

/-- `_valid_recipe`. -/
structure Recipe.Valid (r : Recipe) : Prop where
  inputTemplate : templateRe r.inputTemplate = true
  spiceTemplate : templateRe r.spiceTemplate = true
  outputTemplate : templateRe r.outputTemplate = true
  tier : 1 ≤ r.tier
  inputPerBatch : 1 ≤ r.inputPerBatch
  spicePerBatch : 1 ≤ r.spicePerBatch
  outputPerBatch : 1 ≤ r.outputPerBatch
  maxStack : 1 ≤ r.maxStack

/-- A table that `load_rates` accepts. -/
structure Rates where
  rateVersion : String
  maxBatchesPerRequest : Nat
  weeklyDustCap : Nat
  windowDays : Nat
  recipes : List Recipe
  version_ok : rateVersionRe rateVersion = true
  recipes_ne : recipes ≠ []
  valid : ∀ r ∈ recipes, r.Valid
  outputs : (recipes.map (·.outputTemplate)).Nodup
  maxBatches_pos : 1 ≤ maxBatchesPerRequest
  cap_pos : 1 ≤ weeklyDustCap
  window_pos : 1 ≤ windowDays

def Rates.findRecipe (rates : Rates) (outputTemplate : String) : Option Recipe :=
  rates.recipes.find? (fun r => r.outputTemplate = outputTemplate)

theorem Rates.findRecipe_spec {rates : Rates} {outputTemplate : String} {r : Recipe}
    (h : rates.findRecipe outputTemplate = some r) :
    r.Valid ∧ r.outputTemplate = outputTemplate :=
  ⟨rates.valid r (List.mem_of_find?_eq_some h), by simpa using List.find?_some h⟩

/-- An `exchange` request as `gather_args` returns it. -/
structure Request where
  accountId : Nat
  ownerCtrl : Nat
  outputTemplate : String
  batches : Nat
  idempotencyKey : Nat
  expectedInputTemplate : Option String
  expectedSpiceTemplate : Option String
  expectedInputPerBatch : Option Nat
  expectedSpicePerBatch : Option Nat
  expectedOutputPerBatch : Option Nat
  expectedRateVersion : Option String
  dryRun : Bool
  account_pos : 1 ≤ accountId
  owner_pos : 1 ≤ ownerCtrl
  batches_pos : 1 ≤ batches

/-- `SOURCE_PRIORITY`: the drain order is bank, backpack, toolbar. -/
def invBank : Nat := 30
def invBackpack : Nat := 0
def invToolbar : Nat := 15

inductive Tag
  | input | spice
  deriving DecidableEq, Repr

inductive NoSpace
  | notConverged | zeroSlots | noFreeSlot
  deriving DecidableEq, Repr

/-- `ERROR_TOKENS`, with the numbers that `refusal_detail` lifts out. -/
inductive Refusal
  | playerOnline | idempotencyConflict | conservationFailed
  | insufficient (tag : Tag) (held need : Int)
  | shortBy (tag : Tag) (remaining : Int)
  | noPawnStorage | noBank
  | noSpace (why : NoSpace)
  | weeklyCap (used add cap : Int)
  | recipeDisabled | refineryDisabled | unknownRecipe | rateChanged | badRequest | writeFailed
  | bankVolume
  deriving DecidableEq, Repr

/-! ## The ledger -/

/-- The counters of one consume half: `v_used`, `v_bank`, `v_back` and `v_tool`. -/
structure Used where
  units : Int
  bank : Int
  backpack : Int
  toolbar : Int
  deriving DecidableEq, Repr

structure Consumed where
  inputTemplate : String
  input : Used
  spiceTemplate : String
  spice : Used
  deriving DecidableEq, Repr

/-- An entry of `v_stacks`. -/
structure Stack where
  itemId : Nat
  slot : Int
  stackSize : Int
  merged : Bool
  deriving DecidableEq, Repr

structure Granted where
  template : String
  units : Int
  stackRows : List Stack
  deriving DecidableEq, Repr

/-- A row of `ls_refinery_exchanges`. -/
structure Exchange where
  idempotencyKey : Nat
  accountId : Nat
  ownerCtrl : Nat
  tier : Nat
  outputTemplate : String
  batches : Nat
  dustUnits : Int
  inputTemplate : String
  inputUnits : Int
  spiceUnits : Int
  consumed : Consumed
  granted : Granted
  rateVersion : String
  volumeUnverified : Bool
  createdAt : Nat
  deriving DecidableEq, Repr

/-- The `CHECK` constraints of the ledger. -/
def Exchange.checked (e : Exchange) : Bool :=
  1 ≤ e.tier && e.tier ≤ 6 && 0 < e.batches && 0 < e.dustUnits && 0 < e.inputUnits &&
    0 < e.spiceUnits

abbrev Ledger := Table Exchange (·.idempotencyKey)

structure Db where
  game : Game
  ledger : Ledger

/-- `holdings_after`. -/
structure Holdings where
  input : Int
  spice : Int
  output : Int
  bankFreeSlots : Option Int
  deriving DecidableEq, Repr

/-- The row of `_rf_result`. -/
structure Result where
  outputTemplate : String
  tier : Nat
  batches : Nat
  dustUnits : Int
  inputUnits : Int
  spiceUnits : Int
  consumed : Consumed
  granted : Granted
  holdingsAfter : Holdings
  weeklyDustUsed : Int
  weeklyDustCap : Nat
  volumeUnverified : Bool
  replay : Bool
  deriving DecidableEq, Repr

end LastSietch.Refinery
