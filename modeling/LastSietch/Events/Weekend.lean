import LastSietch.Events.Runner
import LastSietch.Lib.Runs

/-!
# Weekend effects in runs

The admin's writes, the ticks of any number of runners and the game host, in any order. A tick has a
row in hand; its call to the host is on its way until the host serves it, which it may do after the
runner has given up, and the answer may be lost.
-/

namespace LastSietch.Events.Weekend

open Runs (exec Along)

variable (py : Python)

/-! ## The system -/

inductive Stage
  | looked
  | waiting (phase : Phase)
  | answered (phase : Phase) (answer : Answer)
  | closed
  deriving DecidableEq

structure Tick where
  row : Event
  at_ : Nat
  stage : Stage

structure Call where
  tick : Nat
  request : Request

structure Sys where
  now : Nat
  events : Rows
  edits : List Edit
  ticks : List Tick
  net : List Call
  host : Host

inductive Act
  | clock (now : Nat)
  | create (fields : Fields)
  | read (id : Nat) (body : Body)
  | update (i : Nat)
  | cancel (id : Nat)
  | look (id : Nat) (at_ : Nat)
  | act (i : Nat)
  | status (i : Nat) (answer : Answer)
  /-- The host serves a call; `lost` is an answer that does not arrive. -/
  | serve (k : Nat) (systemd lost : Bool)
  | giveUp (i : Nat)
  | record (i : Nat)
  | unitEnds (id : Nat) (phase : Phase)
  | enable (on : Bool)

def Sys.setTick (s : Sys) (i : Nat) (t : Tick) (stage : Stage) : Sys :=
  { s with ticks := s.ticks.set i { t with stage } }

def requestOf (row : Event) (phase : Phase) : Option Request := do
  let effect ← row.effect
  let scope ← row.effectScope
  some ⟨phase, row.id, effect, scope, if phase = .start then row.endsUtc else none⟩

def Sys.call (s : Sys) (i : Nat) (t : Tick) (phase : Phase) : Option Sys :=
  (requestOf t.row phase).map fun request =>
    { s.setTick i t (.waiting phase) with net := s.net ++ [⟨i, request⟩] }

def Sys.write (s : Sys) (row : Event) (cols : Option Cols) : Sys :=
  match cols with
  | none => s
  | some cols => { s with events := transition s.events row cols }

def Sys.act (s : Sys) (i : Nat) (t : Tick) : Option Sys :=
  match t.row.decide t.at_ with
  | .wait => some (s.setTick i t .closed)
  | .missed detail => some ((s.setTick i t .closed).write t.row (some (closing .missed detail)))
  | .fail detail | .timeout detail =>
    some ((s.setTick i t .closed).write t.row (some (closing .failed detail)))
  | .start _ => s.call i t .start
  | .end_ _ => s.call i t .end_
  | .poll _ | .check => none

def Sys.status (s : Sys) (i : Nat) (t : Tick) (answer : Answer) : Option Sys :=
  match t.row.decide t.at_ with
  | .poll phase => some ((s.setTick i t .closed).write t.row (poll t.row phase answer))
  | .check => some ((s.setTick i t .closed).write t.row (assertCheck t.row answer))
  | _ => none

def Tick.note (t : Tick) : Option String :=
  match t.row.decide t.at_ with
  | .start note => some note
  | _ => t.row.effectError

def Sys.answer (s : Sys) (call : Call) (lost : Bool) (answer : Answer) : Sys :=
  match s.ticks[call.tick]? with
  | some t =>
    if lost = false ∧ t.stage = .waiting call.request.phase then
      s.setTick call.tick t (.answered call.request.phase answer)
    else s
  | none => s

def Sys.serve (s : Sys) (k : Nat) (call : Call) (systemd lost : Bool) : Sys :=
  let served := cmdLaunch s.host systemd call.request
  { s.answer call lost served.2 with net := s.net.eraseIdx k, host := served.1 }

def step (s : Sys) : Act → Option Sys
  | .clock now => some { s with now }
  | .create fields => (insertEvent s.now s.events fields).map fun events => { s with events }
  | .read id body => do
    let row ← s.events.byId? id
    let fields ← (editFields py body row).toOption
    some { s with edits := s.edits ++ [⟨row, fields⟩] }
  | .update i => do
    let edit ← s.edits[i]?
    let rest := { s with edits := s.edits.eraseIdx i }
    match updateEvent s.now s.events edit.fields edit.row with
    | none => some rest
    | some events => some { rest with events }
  | .cancel id => do
    let _ ← s.events.byId? id
    some { s with events := cancelEvent s.now s.events id }
  | .look id at_ => do
    let row ← s.events.byId? id
    if row.due then some { s with ticks := s.ticks ++ [⟨row, at_, .looked⟩] } else none
  | .act i => do
    let t ← s.ticks[i]?
    if t.stage = .looked then s.act i t else none
  | .status i answer => do
    let t ← s.ticks[i]?
    if t.stage = .looked then s.status i t answer else none
  | .serve k systemd lost => do
    let call ← s.net[k]?
    some (s.serve k call systemd lost)
  | .giveUp i => do
    let t ← s.ticks[i]?
    match t.stage with
    | .waiting _ => some (s.setTick i t .closed)
    | _ => none
  | .record i => do
    let t ← s.ticks[i]?
    match t.stage with
    | .answered phase answer =>
      some ((s.setTick i t .closed).write t.row (launched t.at_ phase answer t.note))
    | _ => none
  | .unitEnds id phase =>
    some { s with host := { s.host with units := s.host.units.filter (· ≠ (id, phase)) } }
  | .enable on => some { s with host := { s.host with enabled := on } }

def Tick.Holds (t : Tick) (id : Nat) : Prop :=
  t.row.id = id ∧ t.row.Idle ∧ t.stage = .answered .start ⟨0, "launched"⟩

def Sys.Owned (s : Sys) : Prop :=
  ∀ id, s.host.Out id → ∃ e ∈ s.events, e.id = id ∧ e.Owned

/-- As `Owned`, with the launches that a tick has in hand: the row is still the one that its
compare-and-set is for. -/
def Sys.OwnedOrHeld (s : Sys) : Prop :=
  ∀ id, s.host.Out id → ∃ e ∈ s.events, e.id = id ∧
    (e.Owned ∨ e.Idle ∧ ∃ t ∈ s.ticks, t.Holds id)

def Edit.Leaves (edit : Edit) : Prop :=
  (edit.row.Idle → edit.fields.effect ≠ .none_ ∧ edit.fields.status = .published) ∧
    (edit.row.effectState = some .failed → edit.row.effectJob = none →
      edit.fields.effect ≠ .none_ ∧ ¬(edit.fields.status = .published ∧
        (edit.row.reschedules edit.fields.effect edit.fields.effectScope edit.fields.startsUtc
            edit.fields.endsUtc = true ∨ edit.fields.effectRearm = true)))

/-- The start that the host is about to launch is answered and will be recorded, or the row has
been moved on by another start already. -/
def Sys.Answered (s : Sys) (call : Call) (lost : Bool) (e : Event) : Prop :=
  e.Idle ∧ lost = false ∧ (∃ t ∈ s.ticks[call.tick]?, t.stage = .waiting .start) ∨
    e.effectState = some .armed ∧ e.effectJob = some .start ∨
    e.effectJob = none ∧ (e.effectState = some .running ∨ e.effectState = some .failed)

def Tick.endTaken (t : Tick) : Bool :=
  match t.stage with
  | .answered .end_ answer => answer.taken
  | _ => false

/-- While the effect is out, no write takes the row away from the tick that has to record it, and
no start is launched whose answer is lost. -/
def Sys.Careful (s : Sys) : Act → Prop
  | .update i => ∀ edit, s.edits[i]? = some edit → ∀ e, s.events.byId? edit.row.id = some e →
      edit.row.sameEffect e = true → s.host.Out e.id → Edit.Leaves edit
  | .cancel id => ∀ e, s.events.byId? id = some e → e.Idle → ¬s.host.Out id
  | .act i => ∀ t, s.ticks[i]? = some t → (t.row.decide t.at_).isMissed = true →
      ∀ e, s.events.byId? t.row.id = some e → t.row.sameEffect e = true → ¬s.host.Out e.id
  | .serve k systemd lost => ∀ call, s.net[k]? = some call → call.request.phase = .start →
      s.host.launches? systemd call.request = true →
        ∀ e, s.events.byId? call.request.id = some e → s.Answered call lost e
  | .record i => ∀ t, s.ticks[i]? = some t → t.endTaken = true →
      ∀ e, s.events.byId? t.row.id = some e → t.row.sameEffect e = true → ¬s.host.Out e.id
  | _ => True

/-! ## The invariant -/

def Stage.Of (row : Event) : Stage → Prop
  | .waiting .start | .answered .start _ => row.Idle
  | _ => True

structure Inv (s : Sys) : Prop where
  held : s.OwnedOrHeld
  ended : ∀ e ∈ s.events, e.effectJob = some .end_ → ¬s.host.Out e.id
  present : ∀ t ∈ s.ticks, Present s.events t.row.id
  stages : ∀ t ∈ s.ticks, t.stage.Of t.row
  net : ∀ c ∈ s.net, ∃ t, s.ticks[c.tick]? = some t ∧ t.row.id = c.request.id ∧
    (c.request.phase = .start → t.row.Idle)
  launches : ∀ l ∈ s.host.launches, Present s.events l.1

variable {py} {s s' : Sys}

variable {i : Nat} {t : Tick}

theorem mem_of_set {l : List Tick} {q : Tick} {stage : Stage} (ht : l[i]? = some t)
    (hq : q ∈ l.set i { t with stage }) : ∃ r ∈ l, q.row = r.row ∧ (q = { t with stage } ∨ q = r) := by
  rcases List.mem_or_eq_of_mem_set hq with hq | rfl
  · exact ⟨q, hq, rfl, Or.inr rfl⟩
  · exact ⟨t, List.mem_of_getElem? ht, rfl, Or.inl rfl⟩

theorem getElem?_set {l : List Tick} {j : Nat} {r : Tick} {stage : Stage} (ht : l[i]? = some t)
    (hr : l[j]? = some r) : ∃ q, (l.set i { t with stage })[j]? = some q ∧ q.row = r.row := by
  by_cases hij : i = j
  · subst hij
    cases ht.symm.trans hr
    exact ⟨_, List.getElem?_set_self (List.getElem?_eq_some_iff.mp ht).1, rfl⟩
  · exact ⟨r, (List.getElem?_set_ne hij).trans hr, rfl⟩

theorem Inv.setTick (h : Inv s) {stage : Stage} (ht : s.ticks[i]? = some t)
    (hstage : stage.Of t.row)
    (hheld : ∀ e ∈ s.events, e.id = t.row.id → t.Holds e.id → ¬e.Idle ∨
      ({ t with stage } : Tick).Holds e.id) :
    Inv (s.setTick i t stage) := by
  refine ⟨fun id hout => ?_, h.ended, fun q hq => ?_, fun q hq => ?_, fun c hc => ?_, h.launches⟩
  · obtain ⟨e, he, rfl, howned⟩ := h.held id hout
    refine ⟨e, he, rfl, ?_⟩
    rcases howned with howned | ⟨hidle, q, hq, hholds⟩
    · exact Or.inl howned
    · refine Or.inr ⟨hidle, ?_⟩
      obtain ⟨j, hj⟩ := List.mem_iff_getElem?.mp hq
      by_cases hij : i = j
      · subst hij
        cases ht.symm.trans hj
        rcases hheld e he hholds.1.symm hholds with hbusy | hholds
        · exact absurd hidle hbusy
        · exact ⟨_, List.mem_of_getElem? (List.getElem?_set_self
            (List.getElem?_eq_some_iff.mp ht).1), hholds⟩
      · exact ⟨q, List.mem_of_getElem? ((List.getElem?_set_ne hij).trans hj), hholds⟩
  · obtain ⟨r, hr, hrow, -⟩ := mem_of_set ht hq
    rw [hrow]
    exact h.present r hr
  · obtain ⟨r, hr, -, rfl | rfl⟩ := mem_of_set ht hq
    · exact hstage
    · exact h.stages q hr
  · obtain ⟨r, hr, hid, hstart⟩ := h.net c hc
    obtain ⟨q, hq, hrow⟩ := getElem?_set ht hr
    exact ⟨q, hq, by rw [hrow]; exact hid, by rw [hrow]; exact hstart⟩

variable {e row : Event}

theorem Inv.replaced (h : Inv s) {events : Rows} {e' : Event}
    (hr : SerialTable.Replaced s.events events e e')
    (howned : s.host.Out e.id → e.Owned ∨ e.Idle ∧ (∃ t ∈ s.ticks, t.Holds e.id) →
      e'.Owned ∨ e'.Idle ∧ ∃ t ∈ s.ticks, t.Holds e.id)
    (hended : e'.effectJob = some .end_ → ¬s.host.Out e.id) : Inv { s with events } := by
  refine ⟨fun id hout => ?_, fun d hd hjob => ?_, fun t ht => (h.present t ht).replaced hr, h.stages,
    h.net, fun l hl => (h.launches l hl).replaced hr⟩
  · obtain ⟨d, hd, rfl, hd'⟩ := h.held id hout
    by_cases hid : d.id = e.id
    · have hde := SerialTable.eq_of_id_eq hd hr.mem hid
      subst hde
      refine ⟨e', hr.mem_new, hr.id_eq, ?_⟩
      exact howned hout hd'
    · exact ⟨d, hr.mem_iff.mpr (Or.inr ⟨hd, hid⟩), rfl, hd'⟩
  · rcases hr.mem_iff.mp hd with rfl | ⟨hd, -⟩
    · rw [hr.id_eq]
      exact hended hjob
    · exact h.ended d hd hjob

/-! ### The store -/

theorem Inv.create (h : Inv s) {events : Rows} {fields : Fields}
    (hevents : insertEvent s.now s.events fields = some events) : Inv { s with events } := by
  have hmem := fun e => SerialTable.mem_insert? (s := e) hevents
  have hkeep : ∀ {id}, Present s.events id → Present events id := by
    rintro id ⟨e, he, hid⟩
    exact ⟨e, (hmem e).mpr (Or.inr he), hid⟩
  refine ⟨fun id hout => ?_, fun e he hjob => ?_, fun t ht => hkeep (h.present t ht), h.stages, h.net,
    fun l hl => hkeep (h.launches l hl)⟩
  · obtain ⟨e, he, hid, howned⟩ := h.held id hout
    exact ⟨e, (hmem e).mpr (Or.inr he), hid, howned⟩
  · rcases (hmem e).mp he with rfl | he
    · cases hjob
    · exact h.ended e he hjob

theorem Inv.cancel (h : Inv s) {id : Nat} (he : s.events.byId? id = some e)
    (hidle : e.Idle → ¬s.host.Out id) : Inv { s with events := cancelEvent s.now s.events id } := by
  obtain ⟨hmem, rfl⟩ := SerialTable.byId?_eq_some.mp he
  refine h.replaced (SerialTable.Replaced.of_update hmem) (fun hout howned => ?_) (h.ended e hmem)
  have hbusy : ¬e.Idle := fun hidle' => hidle hidle' hout
  have hstate : (e.calledOff s.now).effectState = e.effectState := if_neg hbusy
  rcases howned with howned | ⟨hidle', -⟩
  · left
    unfold Event.Owned
    rw [hstate]
    exact howned
  · exact absurd hidle' hbusy

theorem Inv.update (h : Inv s) {edit : Edit} (he : s.events.byId? edit.row.id = some e)
    (hsame : edit.row.sameEffect e = true) (hleaves : s.host.Out e.id → Edit.Leaves edit) :
    Inv { s with
      events := s.events.update (fun q => q.id = edit.row.id)
        (Event.edited s.now edit.fields edit.row) } := by
  obtain ⟨hmem, hid⟩ := SerialTable.byId?_eq_some.mp he
  simp only [Event.sameEffect, Bool.and_eq_true, decide_eq_true_eq] at hsame
  obtain ⟨hstate, hjob⟩ := hsame
  rw [← hid]
  refine h.replaced (SerialTable.Replaced.of_update hmem) (fun hout howned => ?_) (h.ended e hmem)
  obtain ⟨hidleKept, hfailedKept⟩ := hleaves hout
  rcases howned with howned | ⟨hidle, hholds⟩
  · left
    by_cases hflight : edit.row.inFlight = true
    · have hkept : (Event.edited s.now edit.fields edit.row e).effectState = e.effectState :=
        (stateAfterWrite_inFlight hflight).trans hstate.symm
      unfold Event.Owned
      rw [hkept]
      exact howned
    · simp only [Event.inFlight, Bool.or_eq_true, decide_eq_true_eq, not_or] at hflight
      obtain ⟨hrunning, hnone⟩ := hflight
      have hnone := Option.not_isSome_iff_eq_none.mp hnone
      rcases howned with ⟨-, hsome⟩ | hrun | hfailed
      · exact absurd (hjob.trans hnone) hsome
      · exact absurd (hstate.symm.trans hrun) hrunning
      · obtain ⟨heffect, hkeep⟩ := hfailedKept (hstate.symm.trans hfailed) hnone
        exact Or.inr (Or.inr
          (stateAfterWrite_failed (hstate.symm.trans hfailed) hnone heffect hkeep))
  · have hidleRow : edit.row.Idle := ⟨hstate.symm.trans hidle.1, hjob.symm.trans hidle.2⟩
    obtain ⟨heffect, hpublished⟩ := hidleKept hidleRow
    exact Or.inr ⟨⟨stateAfterWrite_idle hidleRow heffect hpublished, hidle.2⟩, hholds⟩

/-! ### The runner -/

theorem setTick_write (s : Sys) (i : Nat) (t : Tick) (stage : Stage) (row : Event)
    (cols : Option Cols) :
    (s.setTick i t stage).write row cols = (s.write row cols).setTick i t stage := by
  cases cols <;> rfl

theorem Inv.write (h : Inv s) (hpresent : Present s.events row.id) {cols : Option Cols}
    (hwrite : ∀ c ∈ cols, ∀ e ∈ s.events, s.events.byId? row.id = some e →
      row.sameEffect e = true →
        (s.host.Out e.id → (e.set c).Owned) ∧
          ((e.set c).effectJob = some .end_ → ¬s.host.Out e.id)) : Inv (s.write row cols) := by
  cases cols with
  | none => exact h
  | some c =>
    obtain ⟨e, he, ⟨hsame, hr⟩ | ⟨-, hevents⟩⟩ := transition_cases hpresent c
    · obtain ⟨howned, hended⟩ := hwrite c rfl e hr.mem he hsame
      exact h.replaced hr (fun hout _ => Or.inl (howned hout)) hended
    · change Inv { s with events := transition s.events row c }
      rw [hevents]
      exact h

theorem Inv.closed (h : Inv s) (ht : s.ticks[i]? = some t)
    {cols : Option Cols} (hlooked : t.stage = .looked)
    (hwrite : ∀ c ∈ cols, ∀ e ∈ s.events, s.events.byId? t.row.id = some e →
      t.row.sameEffect e = true →
        (s.host.Out e.id → (e.set c).Owned) ∧
          ((e.set c).effectJob = some .end_ → ¬s.host.Out e.id)) :
    Inv ((s.setTick i t .closed).write t.row cols) := by
  have hclosed : Inv (s.setTick i t .closed) := by
    refine h.setTick ht trivial fun e _ _ hholds => ?_
    cases hlooked.symm.trans hholds.2.2
  exact hclosed.write (h.present t (List.mem_of_getElem? ht)) hwrite

theorem Inv.act (h : Inv s) (ht : s.ticks[i]? = some t) (hlooked : t.stage = .looked)
    (hcareful : (t.row.decide t.at_).isMissed = true →
      ∀ e, s.events.byId? t.row.id = some e → t.row.sameEffect e = true → ¬s.host.Out e.id)
    (hact : s.act i t = some s') : Inv s' := by
  have hon := t.row.decide_on t.at_
  have hcall : ∀ phase, (phase = .start → t.row.Idle) → s.call i t phase = some s' → Inv s' := by
    intro phase hidle hcall
    obtain ⟨request, hrequest, rfl⟩ := Option.map_eq_some_iff.mp hcall
    have hof : (Stage.waiting phase).Of t.row := by
      cases phase with
      | start => exact hidle rfl
      | end_ => exact trivial
    have hset : Inv (s.setTick i t (.waiting phase)) := by
      refine h.setTick ht hof fun e _ _ hholds => ?_
      cases hlooked.symm.trans hholds.2.2
    refine ⟨hset.held, hset.ended, hset.present, hset.stages, fun c hc => ?_, hset.launches⟩
    rcases List.mem_append.mp hc with hc | hc
    · exact hset.net c hc
    · rw [List.mem_singleton.mp hc]
      simp only [requestOf, Option.bind_eq_bind, Option.bind_eq_some_iff, Option.some.injEq]
        at hrequest
      obtain ⟨effect, -, scope, -, rfl⟩ := hrequest
      exact ⟨_, List.getElem?_set_self (List.getElem?_eq_some_iff.mp ht).1, rfl, hidle⟩
  unfold Sys.act at hact
  split at hact
  · cases hact
    refine h.setTick ht trivial fun e _ _ hholds => ?_
    cases hlooked.symm.trans hholds.2.2
  · rename_i detail hmissed
    cases hact
    refine h.closed ht hlooked fun c hc e _ he hsame => ?_
    cases hc
    exact ⟨fun hout => absurd hout (hcareful (by rw [hmissed]; rfl) e he hsame), nofun⟩
  · cases hact
    refine h.closed ht hlooked fun c hc e _ he hsame => ?_
    cases hc
    exact ⟨fun _ => Or.inr (Or.inr rfl), nofun⟩
  · cases hact
    refine h.closed ht hlooked fun c hc e _ he hsame => ?_
    cases hc
    exact ⟨fun _ => Or.inr (Or.inr rfl), nofun⟩
  · rename_i note hdecide
    rw [hdecide] at hon
    exact hcall .start (fun _ => hon) hact
  · exact hcall .end_ nofun hact
  · cases hact
  · cases hact

variable {phase : Phase}

theorem poll_end_done {answer : Answer} {c : Cols} (h : poll row phase answer = some c) :
    (phase = .start → (e.set c).Owned) ∧ ((e.set c).Owned ∨ phase = .end_) ∧
      (e.set c).effectJob = none := by
  unfold poll at h
  split at h
  · cases h
  · split at h
    · cases phase with
      | start =>
        cases h
        exact ⟨fun _ => Or.inr (Or.inl rfl), Or.inl (Or.inr (Or.inl rfl)), rfl⟩
      | end_ =>
        cases h
        exact ⟨nofun, Or.inr rfl, rfl⟩
    · cases h
      exact ⟨fun _ => Or.inr (Or.inr rfl), Or.inl (Or.inr (Or.inr rfl)), rfl⟩

theorem assertCheck_keeps {answer : Answer} {c : Cols} (h : assertCheck row answer = some c) :
    (e.set c).effectState = e.effectState ∧ (e.set c).effectJob = e.effectJob := by
  unfold assertCheck at h
  split at h
  · cases h
  · split at h
    · split at h
      · cases h
        exact ⟨rfl, rfl⟩
      · cases h
    · split at h
      · cases h
        exact ⟨rfl, rfl⟩
      · cases h

theorem Inv.status (h : Inv s) {answer : Answer} (ht : s.ticks[i]? = some t)
    (hlooked : t.stage = .looked) (hstatus : s.status i t answer = some s') : Inv s' := by
  have hon := t.row.decide_on t.at_
  unfold Sys.status at hstatus
  split at hstatus
  · rename_i phase hdecide
    cases hstatus
    rw [hdecide] at hon
    refine h.closed ht hlooked fun c hc e hmem _ hsame => ?_
    simp only [Event.sameEffect, Bool.and_eq_true, decide_eq_true_eq] at hsame
    obtain ⟨-, howned, hjob⟩ := poll_end_done (e := e) hc
    refine ⟨fun hout => ?_, fun hend => by cases hjob.symm.trans hend⟩
    rcases howned with howned | rfl
    · exact howned
    · exact absurd hout (h.ended e hmem (hsame.2.trans hon))
  · rename_i hdecide
    cases hstatus
    rw [hdecide] at hon
    refine h.closed ht hlooked fun c hc e hmem _ hsame => ?_
    simp only [Event.sameEffect, Bool.and_eq_true, decide_eq_true_eq] at hsame
    obtain ⟨hstate, hjob⟩ := assertCheck_keeps (e := e) hc
    refine ⟨fun _ => Or.inr (Or.inl (hstate.trans (hsame.1.trans hon.1))), fun hend => ?_⟩
    exact h.ended e hmem (hjob.symm.trans hend)
  · cases hstatus

/-! ### Launches -/

theorem Inv.hosted (h : Inv s) {host : Host} {net : List Call} (hnet : ∀ c ∈ net, c ∈ s.net)
    (hout : ∀ id, host.Out id → s.host.Out id ∨ ∃ e ∈ s.events, e.id = id ∧
      e.effectJob ≠ some .end_ ∧ (e.Owned ∨ e.Idle ∧ ∃ t ∈ s.ticks, t.Holds id))
    (hlaunches : ∀ l ∈ host.launches, Present s.events l.1) : Inv { s with net, host } := by
  refine ⟨fun id hid => ?_, fun e he hjob hid => ?_, h.present, h.stages, fun c hc => h.net c (hnet c hc),
    hlaunches⟩
  · rcases hout id hid with hold | ⟨e, he, heid, -, howned⟩
    · exact h.held id hold
    · exact ⟨e, he, heid, howned⟩
  · rcases hout e.id hid with hold | ⟨d, hd, hdid, hdjob, -⟩
    · exact h.ended e he hjob hold
    · rw [SerialTable.eq_of_id_eq hd he hdid] at hdjob
      exact hdjob hjob

theorem launched_cases (host : Host) (systemd : Bool) (r : Request) :
    host.launches? systemd r = true ∧ (cmdLaunch host systemd r).2 = ⟨0, "launched"⟩ ∧
        (cmdLaunch host systemd r).1.launches = (r.id, r.phase) :: host.launches ∨
      host.launches? systemd r = false ∧
        (cmdLaunch host systemd r).1.launches = host.launches := by
  unfold cmdLaunch
  by_cases h : host.launches? systemd r = true
  · rw [if_pos h]
    exact Or.inl ⟨h, rfl, rfl⟩
  · rw [if_neg h]
    refine Or.inr ⟨Bool.eq_false_iff.mpr h, ?_⟩
    repeat' split
    all_goals rfl

theorem out_cons {host host' : Host} {l : Nat × Phase} (hlaunches : host'.launches = l :: host.launches)
    {id : Nat} (h : host'.Out id) : l = (id, .start) ∨ l.1 ≠ id ∧ host.Out id := by
  unfold Host.Out at h
  rw [hlaunches, List.find?_cons] at h
  by_cases hid : l.1 = id
  · left
    simpa [hid] using h
  · right
    refine ⟨hid, ?_⟩
    change (host.launches.find? fun l => l.1 = id) = some (id, .start)
    simpa [hid] using h

theorem Inv.answer (h : Inv s) {call : Call} (hcall : call ∈ s.net) (lost : Bool)
    (answer : Answer) :
    Inv (s.answer call lost answer) ∧ (s.answer call lost answer).events = s.events ∧
      (s.answer call lost answer).host = s.host ∧ (s.answer call lost answer).net = s.net := by
  obtain ⟨t, ht, -, hstart⟩ := h.net call hcall
  unfold Sys.answer
  simp only [ht]
  split
  · rename_i hwaits
    refine ⟨h.setTick ht ?_ fun e _ _ hholds => ?_, rfl, rfl, rfl⟩
    · cases hphase : call.request.phase with
      | start => exact hstart hphase
      | end_ => exact trivial
    · cases hwaits.2.symm.trans hholds.2.2
  · exact ⟨h, rfl, rfl, rfl⟩

theorem Inv.answer_holds (h : Inv s) {call : Call} (hcall : call ∈ s.net)
    (hphase : call.request.phase = .start)
    (hwaits : ∃ t, s.ticks[call.tick]? = some t ∧ t.stage = .waiting .start) :
    ∃ t ∈ (s.answer call false ⟨0, "launched"⟩).ticks, t.Holds call.request.id := by
  obtain ⟨t, ht, hid, hstart⟩ := h.net call hcall
  obtain ⟨t', ht', hstage⟩ := hwaits
  cases ht.symm.trans ht'
  have hset : s.answer call false ⟨0, "launched"⟩ =
      s.setTick call.tick t (.answered .start ⟨0, "launched"⟩) := by
    unfold Sys.answer
    simp [ht, hphase, hstage]
  rw [hset]
  exact ⟨_, List.mem_of_getElem? (List.getElem?_set_self (List.getElem?_eq_some_iff.mp ht).1), hid,
    hstart hphase, rfl⟩

theorem Inv.serve (h : Inv s) {k : Nat} {call : Call} {systemd lost : Bool}
    (hk : s.net[k]? = some call)
    (hcareful : call.request.phase = .start → s.host.launches? systemd call.request = true →
      ∀ e, s.events.byId? call.request.id = some e → s.Answered call lost e) :
    Inv (s.serve k call systemd lost) := by
  have hcall := List.mem_of_getElem? hk
  obtain ⟨t, ht, hid, -⟩ := h.net call hcall
  obtain ⟨e, he, heid⟩ : Present s.events call.request.id := hid ▸ h.present t (List.mem_of_getElem? ht)
  obtain ⟨hinv, hevents, hhost, hnet⟩ :=
    h.answer hcall lost (cmdLaunch s.host systemd call.request).2
  refine hinv.hosted (fun c hc => hnet ▸ List.mem_of_mem_eraseIdx hc) (fun id hout => ?_)
    fun l hl => ?_
  · rw [hhost, hevents]
    rcases launched_cases s.host systemd call.request with ⟨hlaunch, hanswer, hlaunches⟩ | ⟨-, hlaunches⟩
    · rcases out_cons hlaunches hout with hl | ⟨-, hold⟩
      · simp only [Prod.mk.injEq] at hl
        obtain ⟨rfl, hphase⟩ := hl
        refine Or.inr ⟨e, he, heid, ?_⟩
        rcases hcareful hphase hlaunch e (heid ▸ byId?_of_mem he) with
          ⟨hidle, hlost, hwaits⟩ | ⟨hstate, hjob⟩ | ⟨hjob, hstate⟩
        · subst hlost
          rw [hanswer]
          exact ⟨by rw [hidle.2]; exact nofun,
            Or.inr ⟨hidle, h.answer_holds hcall hphase hwaits⟩⟩
        · exact ⟨by rw [hjob]; exact nofun, Or.inl (Or.inl ⟨hstate, by rw [hjob]; exact nofun⟩)⟩
        · exact ⟨by rw [hjob]; exact nofun, Or.inl (Or.inr hstate)⟩
      · exact Or.inl hold
    · left
      unfold Host.Out at hout ⊢
      rw [← hlaunches]
      exact hout
  · rw [hevents]
    rcases launched_cases s.host systemd call.request with ⟨-, -, hlaunches⟩ | ⟨-, hlaunches⟩
    · rw [hlaunches] at hl
      rcases List.mem_cons.mp hl with rfl | hl
      · exact ⟨e, he, heid⟩
      · exact h.launches l hl
    · rw [hlaunches] at hl
      exact h.launches l hl

theorem launched_taken {now : Nat} {answer : Answer} {note : Option String}
    (h : answer.taken = true) : launched now phase answer note =
      some { effectJob := some (some phase), effectJobAt := some now,
             effectError := some (note.filter (· ≠ "")) } :=
  if_pos h

theorem launched_refused {now : Nat} {answer : Answer} {note : Option String}
    {c : Cols} (h : launched now phase answer note = some c) (htaken : ¬answer.taken = true)
    (e : Event) : (e.set c).effectState = some .failed ∧ (e.set c).effectJob = e.effectJob := by
  unfold launched at h
  rw [if_neg htaken] at h
  split at h
  · cases h
  · cases h
    exact ⟨rfl, rfl⟩

theorem not_idle_of_recorded {events : Rows} {cols : Cols}
    (hpresent : Present events row.id) (hrow : row.Idle) (hjob : cols.effectJob = some (some .start))
    (he : e ∈ transition events row cols) (hid : e.id = row.id) : ¬e.Idle := by
  intro hidle
  obtain ⟨d, hd, ⟨-, hr⟩ | ⟨hmoved, hevents⟩⟩ := transition_cases hpresent cols
  · obtain ⟨-, hdid⟩ := SerialTable.byId?_eq_some.mp hd
    rcases hr.mem_iff.mp he with rfl | ⟨-, hne⟩
    · have hset : (d.set cols).effectJob = some .start := by
        change cols.effectJob.getD _ = _
        rw [hjob]
        rfl
      cases hset.symm.trans hidle.2
    · exact hne (hid.trans hdid.symm)
  · rw [hevents] at he
    obtain ⟨hdmem, hdid⟩ := SerialTable.byId?_eq_some.mp hd
    have hde := SerialTable.eq_of_id_eq hdmem he (hdid.trans hid.symm)
    subst hde
    have hsame : row.sameEffect d = true := by
      simp [Event.sameEffect, hidle.1, hidle.2, hrow.1, hrow.2]
    exact absurd (hmoved.symm.trans hsame) nofun

theorem Inv.record (h : Inv s) {answer : Answer}
    (ht : s.ticks[i]? = some t) (hstage : t.stage = .answered phase answer)
    (hcareful : phase = .end_ → answer.taken = true → ∀ e, s.events.byId? t.row.id = some e →
      t.row.sameEffect e = true → ¬s.host.Out e.id) :
    Inv ((s.setTick i t .closed).write t.row (launched t.at_ phase answer t.note)) := by
  have hmem := List.mem_of_getElem? ht
  have hpresent := h.present t hmem
  have hof := h.stages t hmem
  rw [hstage] at hof
  have hwritten : Inv (s.write t.row (launched t.at_ phase answer t.note)) := by
    refine h.write hpresent fun c hc e hmem he hsame => ?_
    by_cases htaken : answer.taken = true
    · rw [launched_taken htaken] at hc
      cases hc
      cases phase with
      | start =>
        have hsame' := hsame
        simp only [Event.sameEffect, Bool.and_eq_true, decide_eq_true_eq] at hsame'
        exact ⟨fun _ => Or.inl ⟨hsame'.1.trans hof.1, nofun⟩, nofun⟩
      | end_ =>
        have hin := hcareful rfl htaken e he hsame
        exact ⟨fun hout => absurd hout hin, fun _ => hin⟩
    · obtain ⟨hfailed, hjob⟩ := launched_refused hc htaken e
      exact ⟨fun _ => Or.inr (Or.inr hfailed), fun hend => h.ended e hmem (hjob.symm.trans hend)⟩
  rw [setTick_write]
  have hticks : (s.write t.row (launched t.at_ phase answer t.note)).ticks[i]? = some t := by
    cases launched t.at_ phase answer t.note <;> exact ht
  refine hwritten.setTick hticks trivial fun e he hid hholds => Or.inl ?_
  obtain ⟨-, hrow, hheld⟩ := hholds
  cases hstage.symm.trans hheld
  rw [launched_taken rfl] at he
  exact not_idle_of_recorded hpresent hrow rfl he hid

/-! ### Every step -/

theorem Inv.step {a : Act} (h : Inv s) (hcareful : s.Careful a) (hstep : step py s a = some s') :
    Inv s' := by
  cases a with
  | clock now =>
    cases hstep
    exact ⟨h.held, h.ended, h.present, h.stages, h.net, h.launches⟩
  | create fields =>
    obtain ⟨events, hevents, rfl⟩ := Option.map_eq_some_iff.mp hstep
    exact h.create hevents
  | read id body =>
    simp only [Weekend.step, Option.bind_eq_bind, Option.bind_eq_some_iff] at hstep
    obtain ⟨row, -, fields, -, hstep⟩ := hstep
    cases hstep
    exact ⟨h.held, h.ended, h.present, h.stages, h.net, h.launches⟩
  | update i =>
    simp only [Weekend.step, Option.bind_eq_bind, Option.bind_eq_some_iff] at hstep
    obtain ⟨edit, hedit, hstep⟩ := hstep
    have hrest : Inv { s with edits := s.edits.eraseIdx i } :=
      ⟨h.held, h.ended, h.present, h.stages, h.net, h.launches⟩
    unfold updateEvent at hstep
    split at hstep
    · cases hstep
      exact hrest
    · rename_i events hevents
      split at hevents
      · rename_i hguard
        cases hevents
        cases hstep
        obtain ⟨e, he, hsame⟩ := (Option.any_eq_true _ _).mp hguard
        exact hrest.update he hsame (hcareful edit hedit e he hsame)
      · cases hevents
  | cancel id =>
    simp only [Weekend.step, Option.bind_eq_bind, Option.bind_eq_some_iff] at hstep
    obtain ⟨e, he, hstep⟩ := hstep
    cases hstep
    exact h.cancel he (hcareful e he)
  | look id at_ =>
    simp only [Weekend.step, Option.bind_eq_bind, Option.bind_eq_some_iff] at hstep
    obtain ⟨row, hrow, hstep⟩ := hstep
    split at hstep
    · cases hstep
      refine ⟨fun id hout => ?_, h.ended, fun t ht => ?_, fun t ht => ?_, fun c hc => ?_, h.launches⟩
      · obtain ⟨e, he, hid, howned⟩ := h.held id hout
        refine ⟨e, he, hid, howned.imp_right fun hidle => ⟨hidle.1, ?_⟩⟩
        obtain ⟨t, ht, hholds⟩ := hidle.2
        exact ⟨t, List.mem_append_left _ ht, hholds⟩
      · rcases List.mem_append.mp ht with ht | ht
        · exact h.present t ht
        · rw [List.mem_singleton.mp ht]
          exact ⟨row, (SerialTable.byId?_eq_some.mp hrow).1, rfl⟩
      · rcases List.mem_append.mp ht with ht | ht
        · exact h.stages t ht
        · rw [List.mem_singleton.mp ht]
          exact trivial
      · obtain ⟨t, ht, hc'⟩ := h.net c hc
        exact ⟨t, (List.getElem?_append_left (List.getElem?_eq_some_iff.mp ht).1).trans ht, hc'⟩
    · cases hstep
  | act i =>
    simp only [Weekend.step, Option.bind_eq_bind, Option.bind_eq_some_iff] at hstep
    obtain ⟨t, ht, hstep⟩ := hstep
    split at hstep
    · rename_i hlooked
      exact h.act ht hlooked (hcareful t ht) hstep
    · cases hstep
  | status i answer =>
    simp only [Weekend.step, Option.bind_eq_bind, Option.bind_eq_some_iff] at hstep
    obtain ⟨t, ht, hstep⟩ := hstep
    split at hstep
    · rename_i hlooked
      exact h.status ht hlooked hstep
    · cases hstep
  | serve k systemd lost =>
    simp only [Weekend.step, Option.bind_eq_bind, Option.bind_eq_some_iff] at hstep
    obtain ⟨call, hk, hstep⟩ := hstep
    cases hstep
    exact h.serve hk (hcareful call hk)
  | giveUp i =>
    simp only [Weekend.step, Option.bind_eq_bind, Option.bind_eq_some_iff] at hstep
    obtain ⟨t, ht, hstep⟩ := hstep
    split at hstep
    · rename_i phase hwaiting
      cases hstep
      refine h.setTick ht trivial fun e _ _ hholds => ?_
      cases hwaiting.symm.trans hholds.2.2
    · cases hstep
  | record i =>
    simp only [Weekend.step, Option.bind_eq_bind, Option.bind_eq_some_iff] at hstep
    obtain ⟨t, ht, hstep⟩ := hstep
    split at hstep
    · rename_i phase answer hstage
      cases hstep
      refine h.record ht hstage fun hphase htaken => ?_
      subst hphase
      exact hcareful t ht (by simpa only [Tick.endTaken, hstage] using htaken)
    · cases hstep
  | unitEnds id phase =>
    cases hstep
    exact ⟨h.held, h.ended, h.present, h.stages, h.net, h.launches⟩
  | enable on =>
    cases hstep
    exact ⟨h.held, h.ended, h.present, h.stages, h.net, h.launches⟩

structure Sys.Start (s : Sys) : Prop where
  ticks : s.ticks = []
  net : s.net = []
  launches : s.host.launches = []

theorem Sys.Start.inv (h : s.Start) : Inv s := by
  have hin : ∀ id, ¬s.host.Out id := by
    intro id hout
    unfold Host.Out at hout
    rw [h.launches] at hout
    cases hout
  refine ⟨fun id hout => absurd hout (hin id), fun e _ _ => hin e.id, fun t ht => ?_, fun t ht => ?_,
    fun c hc => ?_, fun l hl => ?_⟩
  · rw [h.ticks] at ht
    cases ht
  · rw [h.ticks] at ht
    cases ht
  · rw [h.net] at hc
    cases hc
  · rw [h.launches] at hl
    cases hl

/-- In every careful run the event of an effect that is out is armed with its job, running or failed,
or a tick has the launch in hand and finds the row as it was when it records it. -/
theorem effects_owned (hstart : s.Start) {acts : List Act}
    (hcareful : Along (step py) Sys.Careful s acts) (hrun : exec (step py) s acts = some s') :
    s'.OwnedOrHeld :=
  (Runs.exec_invariant (I := Inv) (fun _ _ _ h hcareful hstep => h.step hcareful hstep) hstart.inv
    hcareful hrun).held

/-! ## Some runs -/

instance (edit : Edit) : Decidable (Edit.Leaves edit) := inferInstanceAs (Decidable (_ ∧ _))

instance (s : Sys) (call : Call) (lost : Bool) (e : Event) : Decidable (s.Answered call lost e) :=
  inferInstanceAs (Decidable (e.Idle ∧ lost = false ∧
      (∃ t ∈ s.ticks[call.tick]?, t.stage = .waiting .start) ∨
    e.effectState = some .armed ∧ e.effectJob = some .start ∨
    e.effectJob = none ∧ (e.effectState = some .running ∨ e.effectState = some .failed)))

instance (s : Sys) : (a : Act) → Decidable (s.Careful a)
  | .clock _ | .create _ | .read _ _ | .look _ _ | .status _ _ | .giveUp _ | .unitEnds _ _
  | .enable _ => .isTrue trivial
  | .update i =>
    inferInstanceAs (Decidable (∀ edit ∈ s.edits[i]?, ∀ e ∈ s.events.byId? edit.row.id,
      edit.row.sameEffect e = true → s.host.Out e.id → Edit.Leaves edit))
  | .cancel id =>
    inferInstanceAs (Decidable (∀ e ∈ s.events.byId? id, e.Idle → ¬s.host.Out id))
  | .act i =>
    inferInstanceAs (Decidable (∀ t ∈ s.ticks[i]?, (t.row.decide t.at_).isMissed = true →
      ∀ e ∈ s.events.byId? t.row.id, t.row.sameEffect e = true → ¬s.host.Out e.id))
  | .serve k systemd lost =>
    inferInstanceAs (Decidable (∀ call ∈ s.net[k]?, call.request.phase = .start →
      s.host.launches? systemd call.request = true →
        ∀ e ∈ s.events.byId? call.request.id, s.Answered call lost e))
  | .record i =>
    inferInstanceAs (Decidable (∀ t ∈ s.ticks[i]?, t.endTaken = true →
      ∀ e ∈ s.events.byId? t.row.id, t.row.sameEffect e = true → ¬s.host.Out e.id))

def weekday : Sys where
  now := 1800000000
  events := SerialTable.empty
  edits := []
  ticks := []
  net := []
  host := ⟨true, [], []⟩

theorem weekday_start : weekday.Start := ⟨rfl, rfl, rfl⟩

def landsraadWeekend : Fields where
  title := "Double Landsraad weekend"
  kind := .community
  banner := none
  startsUtc := 1800594000
  endsUtc := some 1800853200
  mapName := none
  description := none
  host := none
  status := .published
  discordSync := true
  effect := .specXp
  effectScope := some .fleet
  effectRearm := false

def cancelledAtLaunch : List Act :=
  [.create landsraadWeekend, .look 1 1800594000, .act 0, .serve 0 true false, .cancel 1, .record 0]

/-- The effect runs, the event is disarmed, and no tick has it in hand. -/
theorem unowned : weekday.Start ∧
    ∃ s', exec (step plainPython) weekday cancelledAtLaunch = some s' ∧
      (∀ t ∈ s'.ticks, t.stage = .closed) ∧ ¬s'.Owned ∧ ¬s'.OwnedOrHeld := by
  obtain ⟨s', hrun, hclosed, hout, hdisarmed⟩ : ∃ s',
      exec (step plainPython) weekday cancelledAtLaunch = some s' ∧
        (∀ t ∈ s'.ticks, t.stage = .closed) ∧ s'.host.Out 1 ∧
        ∀ e ∈ s'.events, e.effectState = none :=
    Runs.exec_shows (by decide)
  refine ⟨weekday_start, s', hrun, hclosed, fun h => ?_, fun h => ?_⟩
  · obtain ⟨e, he, -, ⟨hstate, -⟩ | hstate | hstate⟩ := h 1 hout
    · cases (hdisarmed e he).symm.trans hstate
    · cases (hdisarmed e he).symm.trans hstate
    · cases (hdisarmed e he).symm.trans hstate
  · obtain ⟨e, he, -, howned | ⟨hidle, -⟩⟩ := h 1 hout
    · rcases howned with ⟨hstate, -⟩ | hstate | hstate
      · cases (hdisarmed e he).symm.trans hstate
      · cases (hdisarmed e he).symm.trans hstate
      · cases (hdisarmed e he).symm.trans hstate
    · cases (hdisarmed e he).symm.trans hidle.1

def twoRunners : List Act :=
  [.create landsraadWeekend, .look 1 1800594000, .look 1 1800594001, .act 0, .act 1,
   .serve 0 true false, .record 0, .serve 0 true false, .record 1, .unitEnds 1 .start,
   .look 1 1800594060, .status 2 ⟨0, "ok 2027-01-22T05:01:00Z 32/32"⟩, .cancel 1]

def ending : List Act :=
  [.look 1 1800594120, .act 3, .serve 0 true false, .record 3, .look 1 1800594180,
   .status 4 ⟨0, "ok 2027-01-22T05:03:00Z 32/32"⟩]

theorem effects_owned_twoRunners :
    (∃ s', exec (step plainPython) weekday twoRunners = some s' ∧ s'.host.Out 1 ∧ s'.OwnedOrHeld) ∧
      ∃ s', exec (step plainPython) weekday (twoRunners ++ ending) = some s' ∧ ¬s'.host.Out 1 ∧
        (∀ e ∈ s'.events, e.effectState = some .done) ∧ s'.OwnedOrHeld := by
  have hcareful : Along (step plainPython) Sys.Careful weekday twoRunners := by decide
  have hcareful' : Along (step plainPython) Sys.Careful weekday (twoRunners ++ ending) := by
    decide
  obtain ⟨s, hrun, hout⟩ : ∃ s, exec (step plainPython) weekday twoRunners = some s ∧
      s.host.Out 1 :=
    Runs.exec_shows (by decide)
  obtain ⟨s', hrun', hended, hdone⟩ : ∃ s',
      exec (step plainPython) weekday (twoRunners ++ ending) = some s' ∧ ¬s'.host.Out 1 ∧
        ∀ e ∈ s'.events, e.effectState = some .done :=
    Runs.exec_shows (by decide)
  exact ⟨⟨s, hrun, hout, effects_owned weekday_start hcareful hrun⟩,
    s', hrun', hended, hdone, effects_owned weekday_start hcareful' hrun'⟩

end LastSietch.Events.Weekend
