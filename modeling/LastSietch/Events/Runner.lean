import LastSietch.Events.Store

/-!
# The effect runner and the game host

`event-effects` reads the armed and running rows and decides on each: `Event.decide` is pure, and what it
decides is done by a call to the game host and a compare-and-set on what was read (`transition`).
`event-effect-worker` on the host launches a job as a unit, at most one unit for each event and phase
at a time.

Notices, logs and alerts are not here, nor what a job does to the game.
-/

namespace LastSietch.Events

/-! ## The decision -/

def LATE_NOTE_S : Int := 300
def RESTART_LATE_LIMIT_S : Int := 3600
def RESTART_LEAD_S : Nat := 600
def JOB_TIMEOUT_LIVE_S : Nat := 900
def JOB_TIMEOUT_RESTART_S : Nat := 5400
def CHECK_EVERY_MIN : Nat := 5

inductive Decision
  | wait
  | fail (detail : String)
  | missed (detail : String)
  | timeout (detail : String)
  | start (note : String)
  | end_ (note : String)
  | poll (phase : Phase)
  | check
  deriving DecidableEq

def Decision.isMissed : Decision → Bool
  | missed _ => true
  | _ => false

def Phase.text : Phase → String
  | start => "start"
  | end_ => "end"

def Effect.text : Effect → String
  | none_ => "none"
  | xp => "xp"
  | specXp => "spec_xp"
  | crafting => "crafting"
  | harvest => "harvest"

def Scope.text : Scope → String
  | fleet => "fleet"
  | amtal => "amtal"

/-- `%r` of a column. -/
def reprOf (text : Option String) : String := (text.map fun t => "'" ++ t ++ "'").getD "None"

/-- `LIVE_EFFECTS + RESTART_EFFECTS`. -/
def Event.knownEffect (e : Event) : Option Effect := e.effect.filter (· ≠ .none_)

def Event.due (e : Event) : Bool :=
  (e.effectState = some .armed || e.effectState = some .running) && e.knownEffect.isSome

def lead (effect : Effect) : Nat := if effect.restart then RESTART_LEAD_S else 0

def jobTimeout (effect : Effect) : Nat :=
  if effect.restart then JOB_TIMEOUT_RESTART_S else JOB_TIMEOUT_LIVE_S

def decideArmed (row : Event) (effect : Effect) (stop now : Nat) : Decision :=
  let late : Int := (now : Int) - row.startsUtc
  if row.status ≠ .published ∨ now + lead effect < row.startsUtc then .wait
  else if stop ≤ now then .missed "the window closed before the start ran"
  else if effect.restart = true ∧ RESTART_LATE_LIMIT_S < late then
    .missed ("the start was " ++ toString (late / 60) ++
      " min late (limit 60): skipped, never restarted at an odd hour")
  else .start (if LATE_NOTE_S < late then "started " ++ toString (late / 60) ++ " min late" else "")

def decideRunning (row : Event) (effect : Effect) (stop now : Nat) : Decision :=
  let late : Int := (now : Int) - stop
  if row.status ≠ .published ∨ stop ≤ now + lead effect then
    if effect.restart = true ∧ row.status = .published ∧ RESTART_LATE_LIMIT_S < late then
      .fail ("the end was " ++ toString (late / 60) ++
        " min late (limit 60) and was not run; the settings still hold the effect: " ++
        "end it in a planned window")
    else .end_ (if row.status ≠ .published then "withdrawn" else "")
  else if now / 60 % 60 % CHECK_EVERY_MIN = 0 then .check
  else .wait

def decideBroken (row : Event) (detail : String) : Decision :=
  if row.effectState = some .armed ∧ row.effectJob = none then .fail detail else .wait

def Event.decide (row : Event) (now : Nat) : Decision :=
  match row.knownEffect, row.effectScope, row.endsUtc with
  | some effect, some _, some stop =>
    match row.effectJob with
    | some phase =>
      if row.effectJobAt.any fun launched => launched + jobTimeout effect < now then
        .timeout ("the " ++ phase.text ++ " job sent no result within " ++
          toString (jobTimeout effect / 60) ++ " min")
      else .poll phase
    | none =>
      match row.effectState with
      | some .armed => decideArmed row effect stop now
      | some .running => decideRunning row effect stop now
      | _ => .wait
  | some _, some _, none => decideBroken row "the event has no fixed window"
  | _, _, _ => decideBroken row ("effect " ++ reprOf (row.effect.map (·.text)) ++ " on " ++
      reprOf (row.effectScope.map (·.text)) ++ " is not one the runner knows")

def Decision.On (row : Event) : Decision → Prop
  | .wait | .fail _ | .timeout _ => True
  | .missed _ | .start _ => row.effectState = some .armed ∧ row.effectJob = none
  | .end_ _ | .check => row.effectState = some .running ∧ row.effectJob = none
  | .poll phase => row.effectJob = some phase

theorem decideBroken_on (row : Event) (detail : String) : (decideBroken row detail).On row := by
  unfold decideBroken
  split <;> exact trivial

theorem decideArmed_on {row : Event} (effect : Effect) (stop now : Nat)
    (h : row.effectState = some .armed ∧ row.effectJob = none) :
    (decideArmed row effect stop now).On row := by
  unfold decideArmed
  dsimp only
  split
  · exact trivial
  · split
    · exact h
    · split <;> exact h

theorem decideRunning_on {row : Event} (effect : Effect) (stop now : Nat)
    (h : row.effectState = some .running ∧ row.effectJob = none) :
    (decideRunning row effect stop now).On row := by
  unfold decideRunning
  dsimp only
  split
  · split
    · exact trivial
    · exact h
  · split
    · exact h
    · exact trivial

theorem Event.decide_on (row : Event) (now : Nat) : (row.decide now).On row := by
  unfold Event.decide
  split
  · split
    · rename_i phase hjob
      split
      · exact trivial
      · exact hjob
    · rename_i hjob
      split
      · rename_i hstate
        exact decideArmed_on _ _ _ ⟨hstate, hjob⟩
      · rename_i hstate
        exact decideRunning_on _ _ _ ⟨hstate, hjob⟩
      · exact trivial
  · exact decideBroken_on _ _
  · exact decideBroken_on _ _

structure Request where
  phase : Phase
  id : Nat
  effect : Effect
  scope : Scope
  endEpoch : Option Nat

structure Answer where
  rc : Nat
  out : String
  deriving DecidableEq

structure Host where
  enabled : Bool
  units : List (Nat × Phase)
  /-- The launches, newest first. No command reads it. -/
  launches : List (Nat × Phase)

/-- `valid`: ids of at most 9 digits, an end of 10. -/
def Request.valid (r : Request) : Bool :=
  r.id < 10 ^ 9 && r.effect ≠ .none_ && (!r.effect.restart || r.scope = .fleet) &&
    (r.phase = .end_ || r.endEpoch.any fun stop => 10 ^ 9 ≤ stop && stop < 10 ^ 10)

def Host.launches? (h : Host) (systemd : Bool) (r : Request) : Bool :=
  r.valid && h.enabled && !h.units.contains (r.id, r.phase) && systemd

/-- `cmd_launch`; `systemd` says whether `systemd-run` succeeds. -/
def cmdLaunch (h : Host) (systemd : Bool) (r : Request) : Host × Answer :=
  if h.launches? systemd r then
    ({ h with units := (r.id, r.phase) :: h.units, launches := (r.id, r.phase) :: h.launches },
      ⟨0, "launched"⟩)
  else if r.valid = false then (h, ⟨2, "refused: bad arguments"⟩)
  else if h.enabled = false then
    (h, ⟨3, "refused: event effects disabled (no /etc/lastsietch/event-effects-enabled)"⟩)
  else if h.units.contains (r.id, r.phase) then (h, ⟨0, "already running"⟩)
  else (h, ⟨1, "failed systemd-run"⟩)

/-! ## What the runner writes -/

structure Cols where
  effectState : Option EffectState := none
  effectError : Option (Option String) := none
  effectJob : Option (Option Phase) := none
  effectJobAt : Option Nat := none

def Event.set (cols : Cols) (e : Event) : Event :=
  { e with
    effectState := cols.effectState.elim e.effectState some
    effectError := cols.effectError.getD e.effectError
    effectJob := cols.effectJob.getD e.effectJob
    effectJobAt := cols.effectJobAt.elim e.effectJobAt some }

def transition (events : Rows) (row : Event) (cols : Cols) : Rows :=
  events.update (fun e => e.id = row.id ∧ row.sameEffect e = true) (Event.set cols)

def prefixOf (start text : String) : Bool := start.toList.isPrefixOf text.toList

def slice (text : String) (n : Nat) : String := String.ofList (text.toList.take n)

/-- The last piece of `split(" ", n)`. -/
def lastOfSplit : Nat → List Char → List Char
  | 0, l => l
  | n + 1, l =>
    match l.dropWhile (· ≠ ' ') with
    | [] => l
    | _ :: rest => lastOfSplit n rest

def detailOf (out : String) : String := String.ofList (lastOfSplit 2 out.toList)

def Answer.taken (answer : Answer) : Bool :=
  answer.rc = 0 && (answer.out = "launched" || answer.out = "already running")

def launched (now : Nat) (phase : Phase) (answer : Answer) (note : Option String) : Option Cols :=
  if answer.taken = true then
    some { effectJob := some (some phase), effectJobAt := some now,
           effectError := some (note.filter (· ≠ "")) }
  else if answer.rc = 124 ∨ answer.rc = 255 then none
  else
    let why := if slice answer.out 200 = "" then "rc " ++ toString answer.rc else slice answer.out 200
    some { effectState := some .failed,
           effectError := some (some (phase.text ++ " refused on <game-host>: " ++ why)) }

def poll (row : Event) (phase : Phase) (answer : Answer) : Option Cols :=
  if answer.rc ≠ 0 ∨ prefixOf "running" answer.out = true then none
  else if prefixOf "ok" answer.out = true then
    match phase with
    | .start => some { effectState := some .running, effectJob := some none }
    | .end_ =>
      some { effectState := some .done, effectJob := some none,
             effectError := some (row.effectError.filter fun error => !prefixOf "re-assert" error) }
  else
    let why :=
      if prefixOf "failed" answer.out then detailOf answer.out
      else "<game-host> has no record of the job (" ++
        (if answer.out = "" then "none" else answer.out) ++ ")"
    some { effectState := some .failed, effectJob := some none,
           effectError := some (some (slice (phase.text ++ ": " ++ why) 500)) }

def assertCheck (row : Event) (answer : Answer) : Option Cols :=
  if answer.rc ≠ 0 then none
  else if prefixOf "failed" answer.out = true then
    if row.effectError ≠ some ("re-assert: " ++ detailOf answer.out) then
      some { effectError := some (some ("re-assert: " ++ detailOf answer.out)) }
    else none
  else if prefixOf "ok" answer.out = true ∧ row.effectError.any (prefixOf "re-assert") = true then
    some { effectError := some none }
  else none

/-- The write of `missed`, `fail` and `timeout`. -/
def closing (state : EffectState) (detail : String) : Cols :=
  { effectState := some state, effectError := some (some detail), effectJob := some none }

def Host.Out (h : Host) (id : Nat) : Prop := (h.launches.find? fun l => l.1 = id) = some (id, .start)

instance (h : Host) (id : Nat) : Decidable (h.Out id) :=
  inferInstanceAs (Decidable (_ = _))

def Event.Owned (e : Event) : Prop :=
  e.effectState = some .armed ∧ e.effectJob ≠ none ∨ e.effectState = some .running ∨
    e.effectState = some .failed

instance (e : Event) : Decidable e.Owned := inferInstanceAs (Decidable (_ ∨ _))

def Event.Idle (e : Event) : Prop := e.effectState = some .armed ∧ e.effectJob = none

instance (e : Event) : Decidable e.Idle := inferInstanceAs (Decidable (_ ∧ _))

/-! ## What a write leaves -/

theorem Event.set_sameId (cols : Cols) (e : Event) : (e.set cols).id = e.id := rfl

theorem transition_cases {events : Rows} {row : Event} (hpresent : Present events row.id)
    (cols : Cols) :
    ∃ e, events.byId? row.id = some e ∧
      (row.sameEffect e = true ∧
          SerialTable.Replaced events (transition events row cols) e (e.set cols) ∨
        row.sameEffect e = false ∧ transition events row cols = events) := by
  obtain ⟨e, he, hid⟩ := hpresent
  refine ⟨e, hid ▸ byId?_of_mem he, ?_⟩
  have hsame : ∀ q ∈ events.rows, q.id = row.id → q = e := fun q hq hq' =>
    SerialTable.eq_of_id_eq (t := events) hq he (hq'.trans hid.symm)
  by_cases hmatch : row.sameEffect e = true
  · refine Or.inl ⟨hmatch, he, rfl, List.map_congr_left fun q hq => ?_, rfl⟩
    by_cases hq' : q.id = row.id
    · rw [hsame q hq hq', if_pos (decide_eq_true ⟨hid, hmatch⟩), if_pos rfl]
    · rw [if_neg (fun h => hq' (of_decide_eq_true h).1), if_neg (fun h => hq' (h.trans hid))]
  · refine Or.inr ⟨Bool.eq_false_iff.mpr hmatch, ?_⟩
    have hrows : (transition events row cols).rows = events.rows := by
      refine (List.map_congr_left fun q hq => ?_).trans (List.map_id _)
      refine if_neg fun h => ?_
      obtain ⟨hq', hsameEffect⟩ := of_decide_eq_true h
      exact hmatch (hsame q hq hq' ▸ hsameEffect)
    unfold transition at hrows ⊢
    cases events
    simp only [SerialTable.update] at hrows ⊢
    congr 1
    exact Table.eq_of_rows hrows

variable {row : Event} {fields : Fields} {rearm : Bool}

theorem stateAfterWrite_inFlight (h : row.inFlight = true) :
    (stateAfterWrite (some row) fields rearm).1 = row.effectState := by
  simp [stateAfterWrite, h]

theorem Event.inFlight_eq_false (hjob : row.effectJob = none)
    (hstate : row.effectState ≠ some .running) : row.inFlight = false := by
  simp [Event.inFlight, hjob, hstate]

theorem stateAfterWrite_idle (h : row.Idle) (heffect : fields.effect ≠ .none_)
    (hpublished : fields.status = .published) :
    (stateAfterWrite (some row) fields rearm).1 = some .armed := by
  have hflight := row.inFlight_eq_false h.2 (by rw [h.1]; exact nofun)
  simp [stateAfterWrite, hflight, heffect, hpublished, h.1]

theorem stateAfterWrite_failed (hstate : row.effectState = some .failed)
    (hjob : row.effectJob = none) (heffect : fields.effect ≠ .none_)
    (hkeep : ¬(fields.status = .published ∧
      (row.reschedules fields.effect fields.effectScope fields.startsUtc fields.endsUtc = true ∨
        rearm = true))) :
    (stateAfterWrite (some row) fields rearm).1 = some .failed := by
  have hflight := row.inFlight_eq_false hjob (by rw [hstate]; exact nofun)
  simp only [stateAfterWrite, Option.any_some, Option.bind_some, hflight, hstate, heffect]
  rw [if_neg Bool.false_ne_true, if_neg not_false, if_neg (by simp), if_neg hkeep]

end LastSietch.Events
