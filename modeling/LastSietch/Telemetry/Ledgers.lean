import LastSietch.Lib.Copies
import LastSietch.Lib.Json
import LastSietch.Lib.Runs
import Mathlib.Data.List.Sort

/-!
# The harvest of the ledgers

`streams/grant_events.py` copies grants by their id and `streams/transfers.py` removals and imports
by their time, each from where its cursor stands. A row has its id or its time before it is visible,
and two events of one `dedup_key` are one event.

* `Inv.step`: a row that commits past the cursor is stored, or is past it still.
* `harvested_once`: so no row that a sweep can see is missed, or stored twice.
-/

namespace LastSietch.Ledgers

open Runs (exec Along)

/-- What is not of the program: `isoformat` of the session's times, in microseconds, the cast of its
text to `timestamptz`, and `json.dumps`. -/
structure Formats where
  iso : Int → String
  cast : String → Int
  dumps : Json → String

/-- A row of `ls_progression_grants`. -/
structure Grant where
  id : Nat
  grantedAt : Int
  accountId : Option Int
  grantType : String
  detail : Option Json
  operator : Option String
  status : Option String

/-- A row of `grant_events`. -/
structure GrantEvent where
  pgGrantId : Nat
  grantedAt : String
  grantedEpoch : Int
  accountId : Option String
  grantType : String
  detail : Option String
  operator : Option String
  status : Option String
  harvestedAt : Int
  deriving DecidableEq

/-- A row of `account_removal_log`. -/
structure Removal where
  eventTime : Int
  flsId : Option String
  accountId : Option Int
  reason : Option String
  deriving DecidableEq

/-- A row of `character_transfer_imports`. -/
structure Import where
  flsId : Option String
  lastUpdate : Int
  transferState : Option String
  deriving DecidableEq

/-- A row of `transfer_events`. -/
structure Event where
  ts : Int
  eventType : String
  accountId : Option String
  flsId : Option String
  transferState : Option String
  rawJson : String
  dedupKey : String
  deriving DecidableEq

section Rows

variable (F : Formats)

/-- `_to_epoch`. -/
def toEpoch (time : Int) : Int := time.tdiv 1000000

def Grant.event (harvestedAt : Int) (g : Grant) : GrantEvent where
  pgGrantId := g.id
  grantedAt := F.iso g.grantedAt
  grantedEpoch := toEpoch g.grantedAt
  accountId := g.accountId.map toString
  grantType := g.grantType
  detail := g.detail.map F.dumps
  operator := g.operator
  status := g.status
  harvestedAt

def textOrNull (s : Option String) : Json := s.elim .null .str

def Removal.event (r : Removal) : Event :=
  let et := F.iso r.eventTime
  let aid := r.accountId.map toString
  { ts := toEpoch r.eventTime
    eventType := "removal"
    accountId := aid
    flsId := r.flsId
    transferState := none
    rawJson := F.dumps (.obj [("account_id", textOrNull aid), ("event_time", .str et),
      ("fls_id", textOrNull r.flsId), ("reason", textOrNull r.reason)])
    dedupKey := "|".intercalate ["removal", et, r.flsId.getD "", aid.getD ""] }

def Import.event (i : Import) : Event :=
  let lu := F.iso i.lastUpdate
  { ts := toEpoch i.lastUpdate
    eventType := "transfer"
    accountId := none
    flsId := i.flsId
    transferState := i.transferState
    rawJson := F.dumps (.obj [("fls_id", textOrNull i.flsId), ("last_update", .str lu),
      ("transfer_state", textOrNull i.transferState)])
    dedupKey := "|".intercalate ["transfer", i.flsId.getD "", lu, i.transferState.getD ""] }

end Rows

structure State where
  grants : List Grant
  removals : List Removal
  imports : List Import
  grantEvents : Table GrantEvent (·.pgGrantId)
  events : Table Event (·.dedupKey)
  grantCursor : Option Nat
  removalCursor : Option String
  importCursor : Option String
  /-- The backfill floor of the first sweep, and the rows that sweeps have had to see. -/
  floor : Option Int
  dueGrants : List Grant
  dueRemovals : List Removal
  dueImports : List Import

/-- `max_id`, `max_seen`. -/
def maxSeen {κ : Type} [LT κ] [DecidableLT κ] (start : κ) (labels : List κ) : κ :=
  labels.foldl (fun m k => if m < k then k else m) start

/-- The cursor after a sweep from `start`. -/
def advance {κ : Type} [LT κ] [DecidableLT κ] (cursor : Option κ) (start : κ) (labels : List κ) :
    Option κ :=
  if start < maxSeen start labels then some (maxSeen start labels) else cursor

namespace State

variable (F : Formats)

def sweepGrants (now : Int) (s : State) : State :=
  let cursor := s.grantCursor.getD 0
  let rows := (s.grants.filter (cursor < ·.id)).insertionSort (·.id ≤ ·.id)
  { s with
    grantEvents := s.grantEvents.ignoreAll (rows.map (·.event F now))
    grantCursor := advance s.grantCursor cursor (rows.map (·.id))
    dueGrants := s.dueGrants ++ s.grants }

/-- `INITIAL_REMOVAL_BACKFILL_DAYS`, before `now`. -/
def initialFloor (now : Int) : Int := now - 7 * 86400 * 1000000

/-- An empty cursor is none. -/
def removalMark (s : State) : Option String := s.removalCursor.filter (· ≠ "")

/-- `_harvest_removals`. -/
def sweepRemovals (now : Int) (s : State) : State :=
  let cursor := s.removalMark.getD (F.iso (initialFloor now))
  let rows := (s.removals.filter (F.cast cursor < ·.eventTime)).insertionSort
    (·.eventTime ≤ ·.eventTime)
  { s with
    events := s.events.ignoreAll (rows.map (·.event F))
    removalCursor := advance s.removalCursor cursor (rows.map (F.iso ·.eventTime))
    floor := s.floor.or (some (initialFloor now))
    dueRemovals := s.dueRemovals ++ s.removals }

/-- `query_cursor`. -/
def importMark (s : State) : String :=
  if s.importCursor.getD "" = "" then "1970-01-01T00:00:00+00:00" else s.importCursor.getD ""

/-- `_harvest_imports`. -/
def sweepImports (s : State) : State :=
  let rows := (s.imports.filter (F.cast s.importMark < ·.lastUpdate)).insertionSort
    (·.lastUpdate ≤ ·.lastUpdate)
  { s with
    events := s.events.ignoreAll (rows.map (·.event F))
    importCursor := advance s.importCursor (s.importCursor.getD "") (rows.map (F.iso ·.lastUpdate))
    dueImports := s.dueImports ++ s.imports }

end State

inductive Act
  /-- A transaction becomes visible. It has taken its id or its time at any time before. -/
  | commitGrant (g : Grant)
  | commitRemoval (r : Removal)
  | commitImport (old : Option Import) (i : Import)
  /-- The two streams; of `transfers` both parts, or none. -/
  | sweepGrants (now : Int)
  | sweepTransfers (now : Int)
  | failed

variable (F : Formats)

/-- `nextval` gives no id twice. -/
def step (s : State) : Act → Option State
  | .commitGrant g =>
    if ∀ h ∈ s.grants, h.id ≠ g.id then some { s with grants := g :: s.grants } else none
  | .commitRemoval r => some { s with removals := r :: s.removals }
  | .commitImport old i => some { s with imports := i :: old.elim s.imports s.imports.erase }
  | .sweepGrants now => some (s.sweepGrants F now)
  | .sweepTransfers now => some ((s.sweepRemovals F now).sweepImports F)
  | .failed => some s

def start : State :=
  ⟨[], [], [], Table.empty, Table.empty, none, none, none, none, [], [], []⟩

/-- The events that are stored, or that the visible rows make. -/
def State.known (s : State) : List Event :=
  s.events.rows ++ (s.removals.map (·.event F) ++ s.imports.map (·.event F))

/-- No other event has the key of this one. -/
def State.Apart (s : State) (e : Event) : Prop :=
  ∀ e' ∈ s.known F, e'.dedupKey = e.dedupKey → e' = e

/-- A row commits past the cursor of its stream, and with a key of its own; while there is no cursor
for removals, a sweep's floor has passed none that the first one has not. -/
def Kept (s : State) : Act → Prop
  | .commitGrant g => s.grantCursor.getD 0 < g.id
  | .commitRemoval r => (∀ c ∈ s.removalMark, F.cast c < r.eventTime) ∧ s.Apart F (r.event F)
  | .commitImport _ i => F.cast s.importMark < i.lastUpdate ∧ s.Apart F (i.event F)
  | .sweepTransfers now => s.removalMark = none → ∀ r ∈ s.removals,
      s.floor.getD (State.initialFloor now) ≤ r.eventTime →
        F.cast (F.iso (State.initialFloor now)) < r.eventTime
  | _ => True

instance (s : State) (a : Act) : Decidable (Kept F s a) := by
  cases a <;> (unfold Kept State.Apart; infer_instance)

/-- What the sweeps have had to see is stored once. -/
structure State.Harvested (s : State) : Prop where
  grants : ∀ g ∈ s.dueGrants, ∃ t, s.grantEvents.rows.filter (·.pgGrantId = g.id) = [g.event F t]
  removals : ∀ r ∈ s.dueRemovals, (∀ f ∈ s.floor, f ≤ r.eventTime) →
    s.events.rows.filter (·.dedupKey = (r.event F).dedupKey) = [r.event F]
  imports : ∀ i ∈ s.dueImports,
    s.events.rows.filter (·.dedupKey = (i.event F).dedupKey) = [i.event F]

structure Inv (s : State) : Prop where
  ids : ∀ g ∈ s.grants, ∀ h ∈ s.grants, g.id = h.id → g = h
  held : ∀ q ∈ s.grantEvents, ∃ g ∈ s.grants, q = g.event F q.harvestedAt
  apart : ∀ e ∈ s.known F, s.Apart F e
  grants : ∀ g ∈ s.grants, (∃ t, s.grantEvents.get? g.id = some (g.event F t)) ∨
    s.grantCursor.getD 0 < g.id
  removals : ∀ r ∈ s.removals, (∀ f ∈ s.floor, f ≤ r.eventTime) →
    s.events.get? (r.event F).dedupKey = some (r.event F) ∨
      ∀ c ∈ s.removalMark, F.cast c < r.eventTime
  imports : ∀ i ∈ s.imports, s.events.get? (i.event F).dedupKey = some (i.event F) ∨
    F.cast s.importMark < i.lastUpdate
  harvested : s.Harvested F

variable {F} {s s' : State}

theorem mem_known_iff {e : Event} : e ∈ s.known F ↔
    e ∈ s.events ∨ e ∈ s.removals.map (·.event F) ∨ e ∈ s.imports.map (·.event F) := by
  unfold State.known
  rw [List.mem_append, List.mem_append, Table.mem_def]

theorem mem_known_of_stored {e : Event} (h : e ∈ s.events) : e ∈ s.known F :=
  mem_known_iff.mpr (Or.inl h)

theorem mem_known_of_removal {r : Removal} (h : r ∈ s.removals) : r.event F ∈ s.known F :=
  mem_known_iff.mpr (Or.inr (Or.inl (List.mem_map_of_mem h)))

theorem mem_known_of_import {i : Import} (h : i ∈ s.imports) : i.event F ∈ s.known F :=
  mem_known_iff.mpr (Or.inr (Or.inr (List.mem_map_of_mem h)))

/-! ## Grants -/

theorem Inv.sweepGrants (h : Inv F s) (now : Int) : Inv F (s.sweepGrants F now) := by
  have hrows : ∀ g, g ∈ (s.grants.filter (s.grantCursor.getD 0 < ·.id)).insertionSort
      (·.id ≤ ·.id) ↔ g ∈ s.grants ∧ s.grantCursor.getD 0 < g.id := by
    intro g
    rw [List.mem_insertionSort, List.mem_filter, decide_eq_true_eq]
  have hheld : ∀ q, q ∈ s.grantEvents ∨ q ∈ ((s.grants.filter (s.grantCursor.getD 0 <
      ·.id)).insertionSort (·.id ≤ ·.id)).map (·.event F now) →
      ∃ g ∈ s.grants, q = g.event F q.harvestedAt := by
    rintro q (hq | hq)
    · exact h.held q hq
    · obtain ⟨g, hg, rfl⟩ := List.mem_map.mp hq
      exact ⟨g, ((hrows g).mp hg).1, rfl⟩
  have hstored : ∀ g ∈ s.grants, ∃ t, (s.sweepGrants F now).grantEvents.get? g.id =
      some (g.event F t) := by
    intro g hg
    rcases h.grants g hg with ⟨t, ht⟩ | habove
    · exact ⟨t, Table.get?_ignoreAll_keeps ht⟩
    · obtain ⟨q, hq, hmem, hkey⟩ := Table.get?_ignoreAll_of_mem (t := s.grantEvents)
        (Or.inr (List.mem_map_of_mem (f := (·.event F now)) ((hrows g).mpr ⟨hg, habove⟩)))
      obtain ⟨g', hg', hq'⟩ := hheld q hmem
      have hid : g'.id = g.id := (congrArg GrantEvent.pgGrantId hq').symm.trans hkey
      obtain rfl := h.ids g' hg' g hg hid
      exact ⟨q.harvestedAt, hq.trans (congrArg some hq')⟩
  exact {
    ids := h.ids
    held := fun q hq => hheld q (Table.of_mem_ignoreAll hq)
    apart := h.apart
    grants := fun g hg => Or.inl (hstored g hg)
    removals := h.removals
    imports := h.imports
    harvested := {
      grants := by
        intro g hg
        rcases List.mem_append.mp hg with hold | hnew
        · obtain ⟨t, ht⟩ := h.harvested.grants g hold
          rw [Table.filter_key_eq_singleton] at ht
          exact ⟨t, Table.filter_key_eq_singleton.mpr (Table.get?_ignoreAll_keeps ht)⟩
        · exact (hstored g hnew).imp (fun t ht => Table.filter_key_eq_singleton.mpr ht)
      removals := h.harvested.removals
      imports := h.harvested.imports } }

/-! ## Events -/

theorem Inv.stored {rs : List Event} (h : Inv F s) (hrs : ∀ e ∈ rs, e ∈ s.known F) {e : Event}
    (he : e ∈ s.known F) (hnow : s.events.get? e.dedupKey = some e ∨ e ∈ rs) :
    (s.events.ignoreAll rs).get? e.dedupKey = some e := by
  rcases hnow with hold | hnew
  · exact Table.get?_ignoreAll_keeps hold
  · obtain ⟨q, hq, hmem, hkey⟩ := Table.get?_ignoreAll_of_mem (t := s.events) (Or.inr hnew)
    have hknown : q ∈ s.known F := hmem.elim mem_known_of_stored (hrs q)
    rw [hq, h.apart e he q hknown hkey]

theorem Inv.apart_ignoreAll {rs : List Event} (h : Inv F s) (hrs : ∀ e ∈ rs, e ∈ s.known F)
    (hs' : ∀ e, e ∈ s'.known F → e ∈ s.events.ignoreAll rs ∨ e ∈ s.known F) (e : Event)
    (he : e ∈ s'.known F) : s'.Apart F e := by
  have hback : ∀ e, e ∈ s'.known F → e ∈ s.known F := fun e he =>
    (hs' e he).elim (fun hmem => (Table.of_mem_ignoreAll hmem).elim mem_known_of_stored (hrs e)) id
  exact fun e' he' => h.apart e (hback e he) e' (hback e' he')

theorem Inv.sweepRemovals (h : Inv F s) {now : Int}
    (hfloor : s.removalMark = none → ∀ r ∈ s.removals,
      s.floor.getD (State.initialFloor now) ≤ r.eventTime →
        F.cast (F.iso (State.initialFloor now)) < r.eventTime) :
    Inv F (s.sweepRemovals F now) := by
  let cursor := s.removalMark.getD (F.iso (State.initialFloor now))
  let rows := (s.removals.filter (F.cast cursor < ·.eventTime)).insertionSort
    (·.eventTime ≤ ·.eventTime)
  have hrows : ∀ r, r ∈ rows ↔ r ∈ s.removals ∧ F.cast cursor < r.eventTime := by
    intro r
    rw [List.mem_insertionSort, List.mem_filter, decide_eq_true_eq]
  have hknown : ∀ e ∈ rows.map (·.event F), e ∈ s.known F := by
    intro e he
    obtain ⟨r, hr, rfl⟩ := List.mem_map.mp he
    exact mem_known_of_removal ((hrows r).mp hr).1
  have hstored : ∀ r ∈ s.removals, (∀ f ∈ s.floor.or (some (State.initialFloor now)),
      f ≤ r.eventTime) →
      (s.events.ignoreAll (rows.map (·.event F))).get? (r.event F).dedupKey = some (r.event F) := by
    intro r hr hold
    refine h.stored hknown (mem_known_of_removal hr) ?_
    have hsince : ∀ f ∈ s.floor, f ≤ r.eventTime := by
      intro f hf
      exact hold f (by rw [Option.mem_def.mp hf]; rfl)
    refine (h.removals r hr hsince).imp_right (fun habove => List.mem_map_of_mem ((hrows r).mpr
      ⟨hr, ?_⟩))
    show F.cast (s.removalMark.getD _) < r.eventTime
    cases hmark : s.removalMark with
    | some c => exact habove c hmark
    | none =>
      refine hfloor hmark r hr ?_
      cases hf : s.floor with
      | some f => exact hsince f hf
      | none => exact hold _ (by rw [hf]; rfl)
  exact {
    ids := h.ids
    held := h.held
    apart := h.apart_ignoreAll hknown (fun e he => (mem_known_iff.mp he).imp_right (fun h =>
      mem_known_iff.mpr (Or.inr h)))
    grants := h.grants
    removals := fun r hr hold => Or.inl (hstored r hr hold)
    imports := fun i hi => (h.imports i hi).imp_left Table.get?_ignoreAll_keeps
    harvested := {
      grants := h.harvested.grants
      removals := by
        intro r hr hold
        refine Table.filter_key_eq_singleton.mpr ?_
        rcases List.mem_append.mp hr with hdue | hnew
        · refine Table.get?_ignoreAll_keeps (Table.filter_key_eq_singleton.mp
            (h.harvested.removals r hdue (fun f hf => hold f ?_)))
          show f ∈ s.floor.or _
          rw [Option.mem_def.mp hf]
          rfl
        · exact hstored r hnew hold
      imports := fun i hi => Table.filter_key_eq_singleton.mpr (Table.get?_ignoreAll_keeps
        (Table.filter_key_eq_singleton.mp (h.harvested.imports i hi))) } }

theorem Inv.sweepImports (h : Inv F s) : Inv F (s.sweepImports F) := by
  let rows := (s.imports.filter (F.cast s.importMark < ·.lastUpdate)).insertionSort
    (·.lastUpdate ≤ ·.lastUpdate)
  have hrows : ∀ i, i ∈ rows ↔ i ∈ s.imports ∧ F.cast s.importMark < i.lastUpdate := by
    intro i
    rw [List.mem_insertionSort, List.mem_filter, decide_eq_true_eq]
  have hknown : ∀ e ∈ rows.map (·.event F), e ∈ s.known F := by
    intro e he
    obtain ⟨i, hi, rfl⟩ := List.mem_map.mp he
    exact mem_known_of_import ((hrows i).mp hi).1
  have hstored : ∀ i ∈ s.imports, (s.events.ignoreAll (rows.map (·.event F))).get?
      (i.event F).dedupKey = some (i.event F) := fun i hi =>
    h.stored hknown (mem_known_of_import hi)
      ((h.imports i hi).imp_right (fun habove => List.mem_map_of_mem ((hrows i).mpr ⟨hi, habove⟩)))
  exact {
    ids := h.ids
    held := h.held
    apart := h.apart_ignoreAll hknown (fun e he => (mem_known_iff.mp he).imp_right (fun h =>
      mem_known_iff.mpr (Or.inr h)))
    grants := h.grants
    removals := fun r hr hold => (h.removals r hr hold).imp_left Table.get?_ignoreAll_keeps
    imports := fun i hi => Or.inl (hstored i hi)
    harvested := {
      grants := h.harvested.grants
      removals := fun r hr hold => Table.filter_key_eq_singleton.mpr (Table.get?_ignoreAll_keeps
        (Table.filter_key_eq_singleton.mp (h.harvested.removals r hr hold)))
      imports := by
        intro i hi
        refine Table.filter_key_eq_singleton.mpr ?_
        rcases List.mem_append.mp hi with hdue | hnew
        · exact Table.get?_ignoreAll_keeps
            (Table.filter_key_eq_singleton.mp (h.harvested.imports i hdue))
        · exact hstored i hnew } }

theorem Inv.apart_commit {x : Event} (h : Inv F s) (hx : s.Apart F x)
    (hs' : ∀ e, e ∈ s'.known F → e ∈ s.known F ∨ e = x) (e : Event) (he : e ∈ s'.known F) :
    s'.Apart F e := by
  intro e' he' hkey
  rcases hs' e he with hold | rfl
  · rcases hs' e' he' with hold' | rfl
    · exact h.apart e hold e' hold' hkey
    · exact (hx e hold hkey.symm).symm
  · exact (hs' e' he').elim (fun hold' => hx e' hold' hkey) id

theorem Inv.step {a : Act} (h : Inv F s) (hkept : Kept F s a)
    (hstep : Ledgers.step F s a = some s') : Inv F s' := by
  cases a with
  | failed => exact Option.some.inj hstep ▸ h
  | sweepGrants now => exact Option.some.inj hstep ▸ h.sweepGrants now
  | sweepTransfers now => exact Option.some.inj hstep ▸ (h.sweepRemovals hkept).sweepImports
  | commitGrant g =>
    obtain ⟨hfresh, hstep⟩ := Option.ite_none_right_eq_some.mp hstep
    obtain rfl := Option.some.inj hstep
    refine { h with ids := ?_, held := ?_, grants := ?_, harvested := { h.harvested with } }
    · intro a ha b hb hid
      rcases List.mem_cons.mp ha with rfl | holda
      · rcases List.mem_cons.mp hb with rfl | holdb
        · rfl
        · exact absurd hid.symm (hfresh b holdb)
      · rcases List.mem_cons.mp hb with rfl | holdb
        · exact absurd hid (hfresh a holda)
        · exact h.ids a holda b holdb hid
    · intro q hq
      obtain ⟨g', hg', heq⟩ := h.held q hq
      exact ⟨g', List.mem_cons_of_mem g hg', heq⟩
    · intro g' hg'
      rcases List.mem_cons.mp hg' with rfl | hg'
      · exact Or.inr hkept
      · exact h.grants g' hg'
  | commitRemoval r =>
    obtain rfl := Option.some.inj hstep
    refine { h with apart := h.apart_commit hkept.2 ?_, removals := ?_,
                    harvested := { h.harvested with } }
    · intro e he
      rcases mem_known_iff.mp he with he | he | he
      · exact Or.inl (mem_known_of_stored he)
      · rcases List.mem_cons.mp he with rfl | he
        · exact Or.inr rfl
        · exact Or.inl (mem_known_iff.mpr (Or.inr (Or.inl he)))
      · exact Or.inl (mem_known_iff.mpr (Or.inr (Or.inr he)))
    · intro r' hr' hold
      rcases List.mem_cons.mp hr' with rfl | hr'
      · exact Or.inr hkept.1
      · exact h.removals r' hr' hold
  | commitImport old i =>
    obtain rfl := Option.some.inj hstep
    have hsub : ∀ j ∈ old.elim s.imports s.imports.erase, j ∈ s.imports := by
      intro j hj
      cases old with
      | none => exact hj
      | some o => exact List.mem_of_mem_erase hj
    refine { h with apart := h.apart_commit hkept.2 ?_, imports := ?_,
                    harvested := { h.harvested with } }
    · intro e he
      rcases mem_known_iff.mp he with he | he | he
      · exact Or.inl (mem_known_of_stored he)
      · exact Or.inl (mem_known_iff.mpr (Or.inr (Or.inl he)))
      · rcases List.mem_cons.mp he with rfl | he
        · exact Or.inr rfl
        · obtain ⟨j, hj, rfl⟩ := List.mem_map.mp he
          exact Or.inl (mem_known_of_import (hsub j hj))
    · intro j hj
      rcases List.mem_cons.mp hj with rfl | hj
      · exact Or.inr hkept.1
      · exact h.imports j (hsub j hj)

theorem inv_start : Inv F start := by
  refine ⟨?_, ?_, ?_, ?_, ?_, ?_, ⟨?_, ?_, ?_⟩⟩
  case refine_2 => exact fun q hq => absurd hq (Table.not_mem_empty q)
  case refine_3 =>
    intro e he
    cases he
  all_goals
    intro x hx
    cases hx

/-- Over every run in which rows commit past the cursors, what a sweep has had to see is stored
once. -/
theorem harvested_once (F : Formats) {as : List Act}
    (hkept : Along (Ledgers.step F) (Kept F) start as)
    (hrun : exec (Ledgers.step F) start as = some s) : s.Harvested F :=
  (Runs.exec_invariant (fun _ _ _ h hk hs => Inv.step h hk hs) inv_start hkept hrun).harvested

/-- Times in whole seconds of one day. -/
def seconds : Formats where
  iso t := "1970-01-01T00:00:0" ++ toString (t / 1000000) ++ "+00:00"
  cast s := (s.toList[18]?.elim 0 (fun c => ((c.toNat - 48 : Nat) : Int))) * 1000000
  dumps _ := ""

def grantOf (id : Nat) : Grant := ⟨id, 0, none, "item", none, none, none⟩

/-- A grant, a removal and an import, each before a sweep, and another grant. -/
def inOrder : List Act :=
  [.commitGrant (grantOf 1), .sweepGrants 0, .commitGrant (grantOf 2), .sweepGrants 0,
    .commitRemoval ⟨2000000, some "f", some 7, none⟩, .sweepTransfers 3000000,
    .commitImport none ⟨some "f", 4000000, none⟩, .sweepTransfers 5000000]

theorem harvested_once_in_order : ∃ s, exec (Ledgers.step seconds) start inOrder = some s ∧
    s.Harvested seconds ∧ s.grantEvents.rows.length = 2 ∧ s.events.rows.length = 2 := by
  obtain ⟨s, hs, hlengths⟩ : ∃ s, exec (Ledgers.step seconds) start inOrder = some s ∧
      s.grantEvents.rows.length = 2 ∧ s.events.rows.length = 2 := Runs.exec_shows (by decide)
  have hkept : Along (Ledgers.step seconds) (Kept seconds) start inOrder := by decide
  exact ⟨s, hs, harvested_once seconds hkept hs, hlengths⟩

/-- The second grant is harvested before the first is visible. -/
def outOfOrder : List Act :=
  [.commitGrant (grantOf 2), .sweepGrants 0, .commitGrant (grantOf 1), .sweepGrants 0]

theorem out_of_order_missed : ¬ ∀ (F : Formats) as s, exec (Ledgers.step F) start as = some s →
    s.Harvested F := by
  intro h
  obtain ⟨t, ht⟩ := (h seconds outOfOrder _ rfl).grants (grantOf 1) (by simp [State.sweepGrants])
  cases ht

end LastSietch.Ledgers
