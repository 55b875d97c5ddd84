import Mathlib.Data.List.Sort
import LastSietch.Lib.Table
import LastSietch.Lib.Quota

/-!
# Evidence and credit of the Seven Nights

`portal_sn_earn` holds per-account evidence, `portal_sn_ledger` the tokens of a profile.
The ledger rows of kind `earn` are the table `credits`, unique on (profile, night, source,
ref) by `ux_sn_credit`; the rows of the other kinds are `entries`, which only a balance reads.

`Sys.creditProfile` turns pending evidence into credits: one group per (night, source, ref)
with the maximum over the profile's accounts, clipped to what is left of the night's cap.
`creditGroup_cases` and `creditStreak_cases` say all that one insertion can do.
-/

namespace LastSietch.Nights

open Quota

def nightKeys : List String :=
  ["2026-10-26", "2026-10-27", "2026-10-28", "2026-10-29", "2026-10-30", "2026-10-31",
    "2026-11-01"]

def offeringsNight : String := "2026-10-28"

/-- `NIGHT_KEYS[-1]`. -/
def lastNight : String := "2026-11-01"

def visitAward : Int := 4
def streakAward : Int := 20
def knockCap : Int := 6
def landsraadRefAward : Int := 2

inductive Source
  | visit | streak | knock | landsraad | activity
  deriving DecidableEq, Repr

/-- The sources that evidence is written for: nothing calls `add_earn` for the streak. -/
abbrev EarnSource : Type := { source : Source // source ≠ .streak }

def caps : Source → Option Int
  | .visit => some visitAward
  | .knock => some knockCap
  | .landsraad => some (2 * landsraadRefAward)
  | .streak => some streakAward
  | .activity => none

def capFor (night : String) (source : Source) : Option Int :=
  if source = .landsraad ∧ night = offeringsNight then some (4 * landsraadRefAward)
  else caps source

theorem streakAward_pos : 0 < streakAward := by decide

theorem capFor_streak (night : String) : capFor night .streak = some streakAward := by
  simp [capFor, caps]

/-! ## Tables -/

structure Key where
  night : String
  source : Source
  ref : String
  deriving DecidableEq, Repr

/-- A row of `portal_sn_earn`. -/
structure EarnRow where
  id : Nat
  accountId : Nat
  night : String
  source : EarnSource
  ref : String
  amount : Int
  positive : 0 < amount
  deriving DecidableEq, Repr

def EarnRow.key (e : EarnRow) : Key := ⟨e.night, e.source.1, e.ref⟩

/-- A row of `portal_sn_ledger` of kind `earn`. -/
structure CreditRow where
  profileId : Nat
  delta : Int
  key : Key
  earnId : Option Nat
  deriving DecidableEq, Repr

/-- The kinds of `portal_sn_ledger` besides `earn`. -/
inductive EntryKind
  | order | refund | adminAdjust
  deriving DecidableEq, Repr

/-- A row of `portal_sn_ledger` of another kind than `earn`. -/
structure Entry where
  profileId : Nat
  kind : EntryKind
  delta : Int
  deriving DecidableEq, Repr

structure Link where
  profileId : Nat
  accountId : Nat
  deriving DecidableEq, Repr

/-- A row of `portal_sn_accounts`. -/
structure AccountFacts where
  accountId : Nat
  earlyLogin : Bool
  maxLvl : Int
  deriving DecidableEq, Repr

abbrev EarnTable : Type := SerialTable EarnRow EarnRow.id (fun e => (e.accountId, e.key))

abbrev Credits : Type := Table CreditRow (fun c => (c.profileId, c.key))

/-- `links` stand oldest first. -/
structure Sys where
  earn : EarnTable
  credits : Credits
  entries : List Entry
  links : List Link
  facts : Table AccountFacts AccountFacts.accountId

def Sys.start : Sys := ⟨SerialTable.empty, Table.empty, [], [], Table.empty⟩

def eligibleLvl : Int := 20

def Sys.accountEligible (s : Sys) (accountId : Nat) : Bool :=
  match s.facts.get? accountId with
  | none => false
  | some row => row.earlyLogin || decide (eligibleLvl ≤ row.maxLvl)

def Sys.profileAccounts (s : Sys) (profileId : Nat) : List Nat :=
  (s.links.filter (fun l => l.profileId = profileId)).map Link.accountId

def Sys.profileEligible (s : Sys) (accounts : List Nat) : Bool :=
  accounts.any s.accountEligible

def Sys.addEarn (s : Sys) (accountId : Nat) (night : String) (source : EarnSource) (ref : String)
    (amount : Int) : Sys × Nat :=
  -- OR IGNORE also skips a row that fails CHECK (amount > 0)
  if h : 0 < amount then
    match s.earn.insert? (fun id => ⟨id, accountId, night, source, ref, amount, h⟩) with
    | none => (s, 0)
    | some earn => ({ s with earn }, 1)
  else (s, 0)

/-- `MAX(amount)` of the rows with key `k`, 0 when there is none. -/
def maxAmount (rows : List EarnRow) (k : Key) : Int :=
  ((rows.filter (fun e => e.key = k)).map EarnRow.amount).foldr max 0

/-- `MIN(id)` of the rows with key `k`. -/
def minId (rows : List EarnRow) (k : Key) : Nat :=
  ((rows.filter (fun e => e.key = k)).map EarnRow.id).min?.getD 0

/-- A row of the `GROUP BY night, source, ref` of a credit pass. -/
structure Group where
  key : Key
  amount : Int
  earnId : Nat
  deriving DecidableEq, Repr

def groups (rows : List EarnRow) : List Group :=
  ((rows.map EarnRow.key).dedup.map (fun k => ⟨k, maxAmount rows k, minId rows k⟩)).insertionSort
    (fun g g' => g.earnId ≤ g'.earnId)

def Sys.pending (s : Sys) (profileId : Nat) (accounts : List Nat) : List EarnRow :=
  s.earn.rows.filter (fun e => e.accountId ∈ accounts ∧ s.credits.get? (profileId, e.key) = none)

def credited (credits : Credits) (profileId : Nat) (night : String) (source : Source) : Int :=
  ((credits.rows.filter (fun c =>
    c.profileId = profileId ∧ c.key.night = night ∧ c.key.source = source)).map
      CreditRow.delta).sum

def creditGroup (profileId : Nat) (credits : Credits) (g : Group) : Credits × Int :=
  let amount := grant (capFor g.key.night g.key.source)
    (credited credits profileId g.key.night g.key.source) g.amount
  if amount ≤ 0 then (credits, 0)
  else
    match credits.insert? ⟨profileId, amount, g.key, some g.earnId⟩ with
    | none => (credits, 0)
    | some credits' => (credits', amount)

def creditGroups (profileId : Nat) : Credits → List Group → Credits × Int
  | credits, [] => (credits, 0)
  | credits, g :: gs =>
    let paid := creditGroup profileId credits g
    let rest := creditGroups profileId paid.1 gs
    (rest.1, paid.2 + rest.2)

/-- `COUNT(DISTINCT night)` of the profile's visit credits. -/
def visitNights (credits : Credits) (profileId : Nat) : Nat :=
  ((credits.rows.filter (fun c => c.profileId = profileId ∧ c.key.source = .visit)).map
    (fun c => c.key.night)).dedup.length

def streakKey : Key := ⟨lastNight, .streak, ""⟩

def creditStreak (profileId : Nat) (credits : Credits) : Credits × Int :=
  if visitNights credits profileId < nightKeys.length then (credits, 0)
  else
    match credits.insert? ⟨profileId, streakAward, streakKey, none⟩ with
    | none => (credits, 0)
    | some credits' => (credits', streakAward)

/-- `accounts` defaults to the profile's linked accounts. Returns the tokens credited. -/
def Sys.creditProfile (s : Sys) (profileId : Nat) (accounts : Option (List Nat)) : Sys × Int :=
  let accounts := accounts.getD (s.profileAccounts profileId)
  if accounts = [] ∨ s.profileEligible accounts = false then (s, 0)
  else
    let paid := creditGroups profileId s.credits (groups (s.pending profileId accounts))
    let streak := creditStreak profileId paid.1
    ({ s with credits := streak.1 }, paid.2 + streak.2)

def Sys.balance (s : Sys) (profileId : Nat) : Int :=
  ((s.credits.rows.filter (fun c => c.profileId = profileId)).map CreditRow.delta).sum +
    ((s.entries.filter (fun e => e.profileId = profileId)).map Entry.delta).sum

/-! ## What one step can do -/

theorem addEarn_cases (s : Sys) (accountId : Nat) (night : String) (source : EarnSource)
    (ref : String) (amount : Int) :
    (s.addEarn accountId night source ref amount).1 = s ∨
      ∃ earn : EarnTable, (s.addEarn accountId night source ref amount).1 = { s with earn } ∧
        ∀ e ∈ s.earn, e ∈ earn := by
  unfold Sys.addEarn
  split
  · split
    · exact Or.inl rfl
    · rename_i earn hins
      refine Or.inr ⟨earn, rfl, fun e he => ?_⟩
      exact (SerialTable.mem_insert? hins).mpr (Or.inr he)
  · exact Or.inl rfl

/-- A group either adds its one credit row or leaves the ledger alone, then because the
quota leaves nothing or because the key is already credited. -/
theorem creditGroup_cases (profileId : Nat) (credits : Credits) (g : Group) :
    (∃ row : CreditRow, (creditGroup profileId credits g).1.rows = row :: credits.rows ∧
        row.profileId = profileId ∧ row.key = g.key ∧
        row.delta = grant (capFor g.key.night g.key.source)
          (credited credits profileId g.key.night g.key.source) g.amount ∧
        0 < row.delta ∧ (creditGroup profileId credits g).2 = row.delta) ∨
      ((creditGroup profileId credits g) = (credits, 0) ∧
        (grant (capFor g.key.night g.key.source)
            (credited credits profileId g.key.night g.key.source) g.amount ≤ 0 ∨
          ∃ c ∈ credits, c.profileId = profileId ∧ c.key = g.key)) := by
  simp only [creditGroup]
  split
  · rename_i hle
    exact Or.inr ⟨rfl, Or.inl hle⟩
  · rename_i hpos
    split
    · rename_i hins
      obtain ⟨c, hc, hkey⟩ := Table.insert?_eq_none.mp hins
      rw [Prod.mk.injEq] at hkey
      exact Or.inr ⟨rfl, Or.inr ⟨c, hc, hkey⟩⟩
    · rename_i credits' hins
      exact Or.inl ⟨_, Table.rows_insert? hins, rfl, rfl, rfl, not_le.mp hpos, rfl⟩

theorem creditStreak_cases (profileId : Nat) (credits : Credits) :
    ((creditStreak profileId credits).1.rows =
          ⟨profileId, streakAward, streakKey, none⟩ :: credits.rows ∧
        nightKeys.length ≤ visitNights credits profileId ∧
        (creditStreak profileId credits).2 = streakAward) ∨
      (creditStreak profileId credits = (credits, 0) ∧
        (visitNights credits profileId < nightKeys.length ∨
          ∃ c ∈ credits, c.profileId = profileId ∧ c.key = streakKey)) := by
  unfold creditStreak
  split
  · rename_i hlt
    exact Or.inr ⟨rfl, Or.inl hlt⟩
  · rename_i hge
    split
    · rename_i hins
      obtain ⟨c, hc, hkey⟩ := Table.insert?_eq_none.mp hins
      rw [Prod.mk.injEq] at hkey
      exact Or.inr ⟨rfl, Or.inr ⟨c, hc, hkey⟩⟩
    · rename_i credits' hins
      exact Or.inl ⟨Table.rows_insert? hins, not_lt.mp hge, rfl⟩

theorem maxAmount_nonneg (rows : List EarnRow) (k : Key) : 0 ≤ maxAmount rows k := by
  unfold maxAmount
  induction (rows.filter (fun e => e.key = k)).map EarnRow.amount with
  | nil => exact le_refl _
  | cons a as ih => exact le_max_of_le_right ih

theorem le_foldr_max {l : List Int} {a : Int} (ha : a ∈ l) : a ≤ l.foldr max 0 := by
  induction l with
  | nil => cases ha
  | cons b bs ih =>
    rcases List.mem_cons.mp ha with h | h
    · exact le_max_of_le_left (le_of_eq h)
    · exact le_max_of_le_right (ih h)

variable {rows : List EarnRow}

theorem le_maxAmount {e : EarnRow} (he : e ∈ rows) :
    e.amount ≤ maxAmount rows e.key := by
  apply le_foldr_max
  exact List.mem_map.mpr ⟨e, List.mem_filter.mpr ⟨he, by simp⟩, rfl⟩

theorem maxAmount_pos {e : EarnRow} (he : e ∈ rows) :
    0 < maxAmount rows e.key :=
  lt_of_lt_of_le e.positive (le_maxAmount he)

theorem exists_of_maxAmount_ne_zero {k : Key} (h : maxAmount rows k ≠ 0) :
    ∃ e ∈ rows, e.key = k := by
  by_contra hno
  push Not at hno
  apply h
  have hnil : rows.filter (fun e => e.key = k) = [] :=
    List.filter_eq_nil_iff.mpr (fun e he => by simpa using hno e he)
  rw [maxAmount, hnil]
  rfl

theorem mem_groups {g : Group} :
    g ∈ groups rows ↔ ∃ e ∈ rows, g = ⟨e.key, maxAmount rows e.key, minId rows e.key⟩ := by
  simp only [groups, List.mem_insertionSort, List.mem_map, List.mem_dedup, exists_exists_and_eq_and]
  exact ⟨fun ⟨e, he, h⟩ => ⟨e, he, h.symm⟩, fun ⟨e, he, h⟩ => ⟨e, he, h.symm⟩⟩

end LastSietch.Nights
