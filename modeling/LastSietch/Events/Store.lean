import LastSietch.Lib.Table
import LastSietch.Lib.Sql
import Mathlib.Data.Rat.Defs

/-!
# The event store

`portal_events` and the writes of the Events Manager: `validate_event`, `insert_event`,
`update_event` and `cancel_event`, with the effect rules of `event_effects`. Times are seconds.

An edit is made in two parts: the row is read and the body is merged into it, and `update_event`
writes all columns of the result, guarded by the effect columns only.
-/

namespace LastSietch.Events

/-! ## Rows -/

inductive Kind
  | community | factionWar | maintenance | other
  deriving DecidableEq

inductive Status
  | draft | published | cancelled
  deriving DecidableEq

/-- `none_` is the text `none`; a row from before effects existed has `NULL`. -/
inductive Effect
  | none_ | xp | specXp | crafting | harvest
  deriving DecidableEq

inductive Scope
  | fleet | amtal
  deriving DecidableEq

inductive EffectState
  | armed | running | done | failed | missed
  deriving DecidableEq

inductive Phase
  | start | end_
  deriving DecidableEq

inductive DiscordStatus
  | scheduled | active | completed | canceled
  deriving DecidableEq

/-- `DISCORD_FINAL`. -/
def DiscordStatus.final : DiscordStatus → Bool
  | completed | canceled => true
  | scheduled | active => false

inductive DiscordState
  | pending | synced | failed
  deriving DecidableEq

structure Sheet where
  title : String
  kind : Kind
  banner : Option String
  startsUtc : Nat
  endsUtc : Option Nat
  mapName : Option String
  description : Option String
  host : Option String
  status : Status
  discordSync : Bool
  deriving DecidableEq

structure Event extends Sheet where
  id : Nat
  publishedAt : Option Nat
  updatedAt : Nat
  discordEventId : Option String
  discordStatus : Option DiscordStatus
  discordState : Option DiscordState
  effect : Option Effect
  effectScope : Option Scope
  effectState : Option EffectState
  effectError : Option String
  effectJob : Option Phase
  effectJobAt : Option Nat
  deriving DecidableEq

abbrev Rows := SerialTable Event (·.id) (·.id)

/-! ## What a write may set -/

/-- The keys that a request's body has, as text; `""` stands for `null`. -/
structure Body where
  title : Option String
  kind : Option String
  banner : Option String
  startsUtc : Option String
  endsUtc : Option String
  mapName : Option String
  host : Option String
  description : Option String
  status : Option String
  effect : Option String
  effectScope : Option String
  discordSync : Option Bool
  effectRearm : Bool

/-- What `validate_event` gives to the write. -/
structure Fields extends Sheet where
  effect : Effect
  effectScope : Option Scope
  effectRearm : Bool
  deriving DecidableEq

inductive Refusal
  | cancelled
  | invalidTitle | invalidKind | invalidBanner | invalidStartsUtc | invalidEndsUtc | invalidMap
  | invalidHost | invalidDescription | invalidStatus
  | invalidEffect | invalidEffectScope | effectRunning | invalidEffectWindow
  deriving DecidableEq

/-- Python's text functions, the times of `parse_utc` and `wall_hours`, and the shipped banners. -/
structure Python where
  strip : String → String
  rstrip : String → String
  lower : String → String
  foldDashes : String → String
  parseUtc : String → Option Nat
  wallHours : Nat → Nat → ℚ
  validBanner : String → Bool

def plainPython : Python where
  strip text := String.ofList
    ((text.toList.dropWhile Char.isWhitespace).reverse.dropWhile Char.isWhitespace).reverse
  rstrip text := String.ofList (text.toList.reverse.dropWhile Char.isWhitespace).reverse
  lower text := String.ofList (text.toList.map Char.toLower)
  foldDashes text := String.ofList
    (text.toList.map fun c => if c.toNat = 0x2013 ∨ c.toNat = 0x2014 then '-' else c)
  parseUtc _ := none
  wallHours starts stop := ((stop - starts : Nat) : ℚ) / 3600
  validBanner _ := false

def Kind.ofText : String → Option Kind
  | "community" => some .community
  | "faction_war" => some .factionWar
  | "maintenance" => some .maintenance
  | "other" => some .other
  | _ => none

/-- `WRITABLE_STATUSES`. -/
def Status.ofText : String → Option Status
  | "draft" => some .draft
  | "published" => some .published
  | _ => none

def Effect.ofText : String → Option Effect
  | "none" => some .none_
  | "xp" => some .xp
  | "spec_xp" => some .specXp
  | "crafting" => some .crafting
  | "harvest" => some .harvest
  | _ => none

def Scope.ofText : String → Option Scope
  | "fleet" => some .fleet
  | "amtal" => some .amtal
  | _ => none

/-- `RESTART_EFFECTS`. -/
def Effect.restart : Effect → Bool
  | xp | crafting => true
  | none_ | specXp | harvest => false

def TITLE_MAX : Nat := 200
def MAP_NAME_MAX : Nat := 64
def HOST_MAX : Nat := 64
def DESCRIPTION_MAX : Nat := 4000
def WINDOW_HOURS : List ℚ := [72, 96, 168]

variable (py : Python)

def Python.cleanText (text : String) : String := py.strip (py.foldDashes text)

/-- `str(raw or default).strip().lower()`. -/
def Python.word (default raw : String) : String :=
  py.lower (py.strip (if raw = "" then default else raw))

/-- `value or None`. -/
def orNone (text : String) : Option String := if text = "" then none else some text

def Event.inFlight (e : Event) : Bool := e.effectState = some .running || e.effectJob.isSome

/-- A column of `FROZEN_WHILE_RUNNING` changes. -/
def Event.reschedules (e : Event) (effect : Effect) (scope : Option Scope) (starts : Nat)
    (ends : Option Nat) : Bool :=
  e.effect ≠ some effect || e.effectScope ≠ scope || e.startsUtc ≠ starts || e.endsUtc ≠ ends

/-- `event_effects.validate`. -/
def validateEffect (body : Body) (existing : Option Event) (starts : Nat) (ends : Option Nat) :
    Except Refusal (Effect × Option Scope) := do
  let effect ← orRaise (match body.effect with
    | some raw => Effect.ofText (py.word "none" raw)
    | none => some ((existing.bind (·.effect)).getD .none_)) .invalidEffect
  let scope ←
    if effect = .none_ then .ok none
    else match body.effectScope with
      | some raw => (orRaise (Scope.ofText (py.word "fleet" raw)) .invalidEffectScope).map some
      | none => .ok (some ((existing.bind (·.effectScope)).getD .fleet))
  require (effect.restart = true → scope = some .fleet) .invalidEffectScope
  require (∀ e ∈ existing, e.inFlight = true → e.reschedules effect scope starts ends = false)
    .effectRunning
  require (effect = .none_ ∨
    (∃ e ∈ existing, e.effect = some effect ∧ e.startsUtc = starts ∧ e.endsUtc = ends) ∨
    ∃ stop ∈ ends, py.wallHours starts stop ∈ WINDOW_HOURS) .invalidEffectWindow
  .ok (effect, scope)

/-- `_field` and `clean_text`. -/
def text (given stored : Option String) : String :=
  py.cleanText ((given.orElse fun _ => stored).getD "")

def validateEvent (body : Body) (existing : Option Event) : Except Refusal Fields := do
  let title := text py body.title (existing.map (·.title))
  require (title ≠ "" ∧ title.length ≤ TITLE_MAX) .invalidTitle
  let kind ← orRaise (match body.kind with
    | some raw => Kind.ofText (py.word "community" raw)
    | none => some ((existing.map (·.kind)).getD .community)) .invalidKind
  let banner := py.strip ((body.banner.orElse fun _ => existing.bind (·.banner)).getD "")
  require (banner = "" ∨ py.validBanner banner = true) .invalidBanner
  let starts ← orRaise (match body.startsUtc with
    | some raw => py.parseUtc raw
    | none => existing.map (·.startsUtc)) .invalidStartsUtc
  let ends ← match body.endsUtc with
    | some raw =>
      if py.strip raw = "" then .ok none
      else (orRaise (py.parseUtc raw) .invalidEndsUtc).map some
    | none => .ok (existing.bind (·.endsUtc))
  require (∀ stop ∈ ends, starts ≤ stop) .invalidEndsUtc
  let mapName := text py body.mapName (existing.bind (·.mapName))
  require (mapName.length ≤ MAP_NAME_MAX) .invalidMap
  let host := text py body.host (existing.bind (·.host))
  require (host.length ≤ HOST_MAX) .invalidHost
  let description := text py body.description (existing.bind (·.description))
  require (description.length ≤ DESCRIPTION_MAX) .invalidDescription
  let status ← orRaise (match body.status with
    | some raw => Status.ofText (py.word "draft" raw)
    | none => (existing.map (·.status)).getD .draft |> some) .invalidStatus
  require (status ≠ .cancelled) .invalidStatus
  let (effect, scope) ← validateEffect py body existing starts ends
  -- Publishing an effect event syncs it to Discord unless the write says otherwise.
  let sync := match body.discordSync with
    | some sync => sync
    | none =>
      if effect ≠ .none_ ∧ status = .published then true
      else (existing.map (·.discordSync)).getD false
  .ok { title, kind, banner := orNone banner, startsUtc := starts, endsUtc := ends,
        mapName := orNone mapName, description := orNone description, host := orNone host, status,
        discordSync := sync, effect, effectScope := scope, effectRearm := body.effectRearm }

/-- `v2_events_update` up to its write. -/
def editFields (body : Body) (row : Event) : Except Refusal Fields := do
  require (row.status ≠ .cancelled) .cancelled
  validateEvent py body (some row)

/-! ## The writes -/

/-- `state_after_write`: effect state and effect error. -/
def stateAfterWrite (existing : Option Event) (fields : Fields) (rearm : Bool) :
    Option EffectState × Option String :=
  let state := existing.bind (·.effectState)
  let error := existing.bind (·.effectError)
  if existing.any (·.inFlight) then (state, error)
  else if fields.effect = .none_ then (none, none)
  else if state = none ∨ state = some .armed then
    (if fields.status = .published then some .armed else none, none)
  else if fields.status = .published ∧ ((existing.any fun e =>
      e.reschedules fields.effect fields.effectScope fields.startsUtc fields.endsUtc) = true ∨
      rearm = true) then (some .armed, none)
  else (state, error)

def insertEvent (now : Nat) (events : Rows) (fields : Fields) : Option Rows :=
  events.insert? fun id =>
    { fields with
      id
      publishedAt := if fields.status = .published then some now else none
      updatedAt := now
      discordEventId := none
      discordStatus := none
      discordState := if fields.discordSync then some .pending else none
      effect := some fields.effect
      effectScope := fields.effectScope
      effectState := (stateAfterWrite none fields false).1
      effectError := none
      effectJob := none
      effectJobAt := none }

def Event.republishes (fields : Fields) (row : Event) : Bool :=
  fields.status = .published && row.discordStatus.any (·.final)

/-- `discord_after_write`: event id, status and state. -/
def discordAfterWrite (row : Event) (fields : Fields) :
    Option String × Option DiscordStatus × Option DiscordState :=
  let eventId := if row.republishes fields then none else row.discordEventId
  let status := if row.republishes fields then none else row.discordStatus
  (eventId, status,
    if fields.discordSync = true ∨ eventId ≠ none then some .pending else row.discordState)

/-- The columns of the `UPDATE`, all from the edit and the row that it read. -/
def Event.edited (now : Nat) (fields : Fields) (row e : Event) : Event :=
  { e with
    toSheet := fields.toSheet
    publishedAt := row.publishedAt.orElse fun _ =>
      if fields.status = .published then some now else none
    updatedAt := now
    discordEventId := (discordAfterWrite row fields).1
    discordStatus := (discordAfterWrite row fields).2.1
    discordState := (discordAfterWrite row fields).2.2
    effect := some fields.effect
    effectScope := fields.effectScope
    effectState := (stateAfterWrite (some row) fields fields.effectRearm).1
    effectError := (stateAfterWrite (some row) fields fields.effectRearm).2 }

/-- The guard of `update_event` and of the runner's writes: the effect is where `row` has it. -/
def Event.sameEffect (row e : Event) : Bool :=
  e.effectState = row.effectState && e.effectJob = row.effectJob

/-- `none` is `EffectRaced`. -/
def updateEvent (now : Nat) (events : Rows) (fields : Fields) (row : Event) : Option Rows :=
  if (events.byId? row.id).any row.sameEffect then
    some (events.update (fun e => e.id = row.id) (Event.edited now fields row))
  else none

def Event.calledOff (now : Nat) (e : Event) : Event :=
  { e with
    status := .cancelled
    updatedAt := now
    discordState :=
      if e.discordSync = true ∨ e.discordEventId ≠ none then some .pending else e.discordState
    effectState :=
      if e.effectState = some .armed ∧ e.effectJob = none then none else e.effectState }

def cancelEvent (now : Nat) (events : Rows) (id : Nat) : Rows :=
  events.update (fun e => e.id = id) (Event.calledOff now)

structure Edit where
  row : Event
  fields : Fields

def Edit.Tended (edit : Edit) : Prop :=
  edit.fields.discordSync = true ∨
    edit.row.discordEventId ≠ none ∧ edit.row.republishes edit.fields = false ∨
    edit.row.discordState ≠ some .synced

instance (edit : Edit) : Decidable edit.Tended :=
  inferInstanceAs (Decidable (_ ∨ _))

theorem byId?_of_mem {events : Rows} {e : Event} (he : e ∈ events) : events.byId? e.id = some e :=
  SerialTable.byId?_eq_some.mpr ⟨he, rfl⟩

def Present (events : Rows) (id : Nat) : Prop := ∃ e ∈ events, e.id = id

theorem Present.lt {events : Rows} {id : Nat} (h : Present events id) : id < events.next := by
  obtain ⟨e, he, rfl⟩ := h
  exact SerialTable.id_lt_next he

theorem Present.replaced {events events' : Rows} {e e' : Event} {id : Nat} (h : Present events id)
    (hr : SerialTable.Replaced events events' e e') : Present events' id := by
  obtain ⟨q, hq, rfl⟩ := h
  by_cases hqe : q.id = e.id
  · exact ⟨e', hr.mem_new, hr.id_eq.trans hqe.symm⟩
  · exact ⟨q, hr.mem_iff.mpr (Or.inr ⟨hq, hqe⟩), rfl⟩

end LastSietch.Events
