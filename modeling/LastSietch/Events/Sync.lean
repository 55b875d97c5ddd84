import LastSietch.Events.Discord
import LastSietch.Lib.Runs

/-!
# The Discord sync in runs

Edits (a row that is read, and the write that comes later), cancels, the effect runner's writes, polls
and acks, in any order; an ack answers to any item that was ever handed out, and any number of times.
-/

namespace LastSietch.Events.Sync

open Runs (exec Along)

variable (py : Python)

/-! ## The system -/

structure Handed where
  /-- The row as `pending` read it. -/
  row : Event
  item : Item

/-- A successful answer, with the row that its item was built from and the row that it found. -/
structure Acked where
  built : Event
  found : Event
  discordEventId : Option String
  status : DiscordStatus
  deriving DecidableEq

inductive Cause
  | write | ack
  deriving DecidableEq

structure Forgotten where
  cause : Cause
  before : Event
  after : Event
  deriving DecidableEq

structure Sys where
  now : Nat
  events : Rows
  edits : List Edit
  handed : List Handed
  /-- Newest first. No query reads it. -/
  acked : List Acked
  /-- No query reads it. -/
  forgotten : List Forgotten

inductive Act
  | clock (now : Nat)
  | create (fields : Fields)
  | read (id : Nat) (body : Body)
  | update (i : Nat)
  | cancel (id : Nat)
  | runner (id : Nat) (state : Option EffectState) (error : Option String) (job : Option Phase)
      (jobAt : Option Nat)
  | poll (limit : Nat)
  /-- One result of an ack, the answer to the `i`-th item. -/
  | ack (i : Nat) (outcome : Outcome)

def forgets (cause : Cause) (before after : Option Event) : List Forgotten :=
  match before, after with
  | some before, some after =>
    if before.discordEventId ≠ none ∧ after.discordEventId ≠ before.discordEventId then
      [⟨cause, before, after⟩]
    else []
  | _, _ => []

def Sys.put (s : Sys) (cause : Cause) (id : Nat) (events : Rows) : Sys :=
  { s with
    events
    forgotten := forgets cause (s.events.byId? id) (events.byId? id) ++ s.forgotten }

def logAck (h : Handed) (found : Option Event) : Outcome → List Acked
  | .ok discordEventId (some status) =>
    found.toList.map fun e => ⟨h.row, e, discordEventId.filter (· ≠ ""), status⟩
  | _ => []

def step (s : Sys) : Act → Option Sys
  | .clock now => some { s with now }
  | .create fields => (insertEvent s.now s.events fields).map fun events => { s with events }
  | .read id body => do
    let row ← s.events.byId? id
    let fields ← (editFields py body row).toOption
    some { s with edits := s.edits ++ [⟨row, fields⟩] }
  | .update i => do
    let edit ← s.edits[i]?
    let rest := { s with edits := s.edits.eraseIdx i }
    match updateEvent s.now s.events edit.fields edit.row with
    | none => some rest
    | some events => some (rest.put .write edit.row.id events)
  | .cancel id => do
    let _ ← s.events.byId? id
    some (s.put .write id (cancelEvent s.now s.events id))
  | .runner id state error job jobAt => do
    let _ ← s.events.byId? id
    some (s.put .write id (s.events.update (fun e => e.id = id) fun e =>
      { e with effectState := state, effectError := error, effectJob := job, effectJobAt := jobAt }))
  | .poll limit =>
    some { s with
      handed := s.handed ++
        (pendingRows limit s.now s.events).map fun p => ⟨p.1, item py p.1 p.2⟩ }
  | .ack i outcome => do
    let h ← s.handed[i]?
    let s' := s.put .ack h.item.id (ackOne s.events ⟨h.item.id, h.item.rev, outcome⟩)
    some { s' with acked := logAck h (s.events.byId? h.item.id) outcome ++ s.acked }

def lastAck (acked : List Acked) (id : Nat) : Option Acked := acked.find? fun a => a.found.id = id

def lastAckOf (acked : List Acked) (id : Nat) (discordEventId : String) : Option Acked :=
  acked.find? fun a => a.found.id = id ∧ a.discordEventId = some discordEventId

def Sys.Live (s : Sys) (id : Nat) (discordEventId : String) : Prop :=
  ∃ a, lastAckOf s.acked id discordEventId = some a ∧ a.status.final = false

def Forgotten.Republished (f : Forgotten) : Prop :=
  f.cause = .write ∧ f.after.status = .published ∧ f.before.discordStatus.any (·.final) = true

/-- `pending` hands the event out, wherever its limit leaves room for it. -/
def Sys.HandsOut (s : Sys) (e : Event) : Prop :=
  ∀ limit, s.events.rows.length ≤ limit →
    ∃ it ∈ pending py limit s.now s.events, it.id = e.id ∧ it.rev = e.updatedAt

structure Sys.Lossless (s : Sys) : Prop where
  synced : ∀ e ∈ s.events, e.discordState = some .synced →
    ∃ a, lastAck s.acked e.id = some a ∧ a.built.toSheet = e.toSheet
  forgotten : ∀ f ∈ s.forgotten, f.Republished
  handsOut : ∀ e ∈ s.events, ∀ a, lastAck s.acked e.id = some a → a.built.toSheet ≠ a.found.toSheet →
    e.Shows s.now → s.HandsOut py e
  alone : ∀ limit, ∀ it ∈ pending py limit s.now s.events, it.discordEventId = none →
    ∀ discordEventId, ¬s.Live it.id discordEventId

def Sys.NewRev (s : Sys) (id : Nat) : Prop := ∀ h ∈ s.handed, h.item.id = id → h.item.rev ≠ s.now

/-- A write comes in another second than the versions that were handed out, an edit finds the Discord
columns that it read, and an answer has the recorded Discord id and is final for the row as it is
only. -/
def Sys.Orderly (s : Sys) : Act → Prop
  | .update i => ∀ edit, s.edits[i]? = some edit → ∀ e, s.events.byId? edit.row.id = some e →
      edit.row.sameEffect e = true →
        s.NewRev e.id ∧ e.discordEventId = edit.row.discordEventId ∧
          e.discordStatus = edit.row.discordStatus ∧ edit.Tended
  | .cancel id => ∀ e, s.events.byId? id = some e →
      s.NewRev e.id ∧
        (e.discordSync = true ∨ e.discordEventId ≠ none ∨ e.discordState ≠ some .synced)
  | .ack i (.ok discordEventId (some status)) => ∀ h, s.handed[i]? = some h →
      ∀ e, s.events.byId? h.item.id = some e →
        (e.discordEventId ≠ none → discordEventId.filter (· ≠ "") = e.discordEventId) ∧
          (status.final = true → e.updatedAt = h.item.rev)
  | _ => True

/-! ## What the rows owe to the answers -/

def Event.Due (e : Event) : Prop :=
  e.discordState = some .pending ∨ e.discordState = some .failed ∨
    e.discordSync = false ∧ e.discordEventId = none

structure Accounted (acked : List Acked) (e : Event) : Prop where
  synced : e.discordState = some .synced →
    ∃ a, lastAck acked e.id = some a ∧ a.built.toSheet = e.toSheet
  stale : ∀ a, lastAck acked e.id = some a → a.built.toSheet ≠ a.found.toSheet →
    e.discordStatus.any (·.final) = false ∧ Event.Due e
  known : ∀ x, e.discordEventId = some x →
    ∃ a, lastAckOf acked e.id x = some a ∧ e.discordStatus = some a.status
  live : ∀ x a, lastAckOf acked e.id x = some a → a.status.final = false → e.discordEventId = some x

namespace Accounted

variable {acked : List Acked} {e e' : Event}

theorem written (h : Accounted acked e) (hid : e'.id = e.id)
    (hcolumns : e'.discordEventId = e.discordEventId ∧ e'.discordStatus = e.discordStatus ∨
      e.discordStatus.any (·.final) = true ∧ e'.discordEventId = none)
    (hstate : e'.discordState = some .pending ∨
      e'.discordSync = false ∧ e'.discordEventId = none ∧ e'.discordState ≠ some .synced) :
    Accounted acked e' := by
  refine ⟨fun hsynced => ?_, fun a ha hne => ?_, fun x hx => ?_, fun x a ha hlive => ?_⟩
  · rcases hstate with hstate | ⟨-, -, hstate⟩
    · cases hstate.symm.trans hsynced
    · exact absurd hsynced hstate
  · rw [hid] at ha
    obtain ⟨hopen, -⟩ := h.stale a ha hne
    rcases hcolumns with ⟨-, hstatus⟩ | ⟨hfinal, -⟩
    · rw [hstatus]
      refine ⟨hopen, ?_⟩
      rcases hstate with hstate | ⟨hsync, hnone, -⟩
      · exact Or.inl hstate
      · exact Or.inr (Or.inr ⟨hsync, hnone⟩)
    · rw [hopen] at hfinal
      cases hfinal
  · rcases hcolumns with ⟨heventId, hstatus⟩ | ⟨-, hnone⟩
    · rw [hid, hstatus]
      exact h.known x (heventId ▸ hx)
    · rw [hnone] at hx
      cases hx
  · rw [hid] at ha
    have hx := h.live x a ha hlive
    rcases hcolumns with ⟨heventId, -⟩ | ⟨hfinal, -⟩
    · rw [heventId]
      exact hx
    · obtain ⟨a', ha', hstatus⟩ := h.known x hx
      rw [ha] at ha'
      cases ha'
      rw [hstatus] at hfinal
      exact absurd (hlive.symm.trans hfinal) nofun

theorem answered (h : Accounted acked e) {built : Event} {answer : Option String}
    {status : DiscordStatus} {rev : Nat}
    (hid : e.discordEventId ≠ none → answer = e.discordEventId)
    (hfinal : status.final = true → e.updatedAt = rev)
    (hsame : e.updatedAt = rev → built.toSheet = e.toSheet) :
    Accounted (⟨built, e, answer, status⟩ :: acked)
      { e with
        discordEventId := answer
        discordStatus := some status
        discordState := if e.updatedAt = rev then some .synced else some .pending } := by
  have hlast : lastAck (⟨built, e, answer, status⟩ :: acked) e.id =
      some ⟨built, e, answer, status⟩ := by
    simp [lastAck]
  refine ⟨fun hsynced => ⟨_, hlast, hsame ?_⟩, fun a ha hne => ?_, fun x hx => ⟨⟨built, e, answer, status⟩, ?_, rfl⟩,
    fun x a ha hlive => ?_⟩
  · by_contra hrev
    simp [hrev] at hsynced
  · rw [hlast] at ha
    cases ha
    have hrev : e.updatedAt ≠ rev := fun hrev => hne (hsame hrev)
    refine ⟨?_, Or.inl (if_neg hrev)⟩
    by_contra hstatus
    exact hrev (hfinal (by simpa using hstatus))
  · have hx' : answer = some x := hx
    simp [lastAckOf, hx']
  · by_cases hx : answer = some x
    · exact hx
    · have hold : lastAckOf acked e.id x = some a := by
        simpa [lastAckOf, List.find?_cons, hx] using ha
      have hev := h.live x a hold hlive
      exact absurd ((hid (by rw [hev]; exact nofun)).trans hev) hx

theorem answered_other (h : Accounted acked e) {a : Acked} (hne : a.found.id ≠ e.id) :
    Accounted (a :: acked) e := by
  have hlast : lastAck (a :: acked) e.id = lastAck acked e.id := by
    simp [lastAck, hne]
  have hlastOf : ∀ x, lastAckOf (a :: acked) e.id x = lastAckOf acked e.id x := by
    intro x
    simp [lastAckOf, hne]
  refine ⟨?_, ?_, ?_, ?_⟩
  · rw [hlast]
    exact h.synced
  · rw [hlast]
    exact h.stale
  · simp only [hlastOf]
    exact h.known
  · simp only [hlastOf]
    exact h.live

end Accounted

/-! ## The invariant -/

structure Inv (s : Sys) : Prop where
  items : ∀ h ∈ s.handed, h.item.id = h.row.id ∧ h.item.rev = h.row.updatedAt
  present : ∀ h ∈ s.handed, Present s.events h.row.id
  tracks : ∀ h ∈ s.handed, ∀ e ∈ s.events, h.row.id = e.id → h.row.updatedAt = e.updatedAt →
    h.row.toSheet = e.toSheet
  acked : ∀ a ∈ s.acked, Present s.events a.found.id
  accounted : ∀ e ∈ s.events, Accounted s.acked e
  forgotten : ∀ f ∈ s.forgotten, f.Republished

variable {py} {s s' : Sys}

/-- What `put` records, for a row that is replaced. -/
theorem mem_forgets {cause : Cause} {before after : Event} {f : Forgotten}
    (h : f ∈ forgets cause (some before) (some after)) :
    f = ⟨cause, before, after⟩ ∧ before.discordEventId ≠ none ∧
      after.discordEventId ≠ before.discordEventId := by
  simp only [forgets] at h
  split at h
  · rename_i hlost
    exact ⟨List.mem_singleton.mp h, hlost⟩
  · cases h

theorem Inv.put (h : Inv s) {cause : Cause} {events : Rows} {e e' : Event}
    (hr : SerialTable.Replaced s.events events e e') (hacc : Accounted s.acked e')
    (htracks : ∀ q ∈ s.handed, q.row.id = e.id → q.row.updatedAt = e'.updatedAt →
      q.row.toSheet = e'.toSheet)
    (hforgot : e.discordEventId ≠ none → e'.discordEventId ≠ e.discordEventId →
      Forgotten.Republished ⟨cause, e, e'⟩) : Inv (s.put cause e.id events) := by
  refine ⟨h.items, fun q hq => (h.present q hq).replaced hr, fun q hq d hd hid hrev => ?_,
    fun a ha => (h.acked a ha).replaced hr, fun d hd => ?_, fun f hf => ?_⟩
  · rcases hr.mem_iff.mp hd with rfl | ⟨hd, -⟩
    · exact htracks q hq (hid.trans hr.id_eq) hrev
    · exact h.tracks q hq d hd hid hrev
  · rcases hr.mem_iff.mp hd with rfl | ⟨hd, -⟩
    · exact hacc
    · exact h.accounted d hd
  · rcases List.mem_append.mp hf with hf | hf
    · have hafter : events.byId? e.id = some e' := hr.id_eq ▸ byId?_of_mem hr.mem_new
      rw [byId?_of_mem hr.mem, hafter] at hf
      obtain ⟨rfl, hsome, hlost⟩ := mem_forgets hf
      exact hforgot hsome hlost
    · exact h.forgotten f hf

theorem Inv.wrote (h : Inv s) {events : Rows} {e e' : Event}
    (hr : SerialTable.Replaced s.events events e e') (hrev : e'.updatedAt = s.now)
    (hnew : s.NewRev e.id)
    (hcolumns : e'.discordEventId = e.discordEventId ∧ e'.discordStatus = e.discordStatus ∨
      e.discordStatus.any (·.final) = true ∧ e'.discordEventId = none ∧ e'.status = .published)
    (hstate : e'.discordState = some .pending ∨
      e'.discordSync = false ∧ e'.discordEventId = none ∧ e'.discordState ≠ some .synced) :
    Inv (s.put .write e.id events) := by
  refine h.put hr ((h.accounted e hr.mem).written hr.id_eq ?_ hstate) (fun q hq hid hsame => ?_)
    fun _ hlost => ?_
  · exact hcolumns.imp_right fun hforgot => ⟨hforgot.1, hforgot.2.1⟩
  · obtain ⟨hitem, hitemRev⟩ := h.items q hq
    exact absurd (hitemRev.trans (hsame.trans hrev)) (hnew q hq (hitem.trans hid))
  · rcases hcolumns with ⟨hkept, -⟩ | ⟨hfinal, -, hpublished⟩
    · exact absurd hkept hlost
    · exact ⟨rfl, hpublished, hfinal⟩

theorem Inv.update (h : Inv s) {edit : Edit} {e : Event}
    (he : s.events.byId? edit.row.id = some e)
    (hnew : s.NewRev e.id) (heventId : e.discordEventId = edit.row.discordEventId)
    (hstatus : e.discordStatus = edit.row.discordStatus) (htended : edit.Tended) :
    Inv (s.put .write edit.row.id (s.events.update (fun q => q.id = edit.row.id)
      (Event.edited s.now edit.fields edit.row))) := by
  obtain ⟨hmem, hid⟩ := SerialTable.byId?_eq_some.mp he
  rw [← hid]
  refine h.wrote (SerialTable.Replaced.of_update hmem) rfl hnew ?_ ?_
  · by_cases hforget : edit.row.republishes edit.fields = true
    · right
      have hboth := hforget
      simp only [Event.republishes, Bool.and_eq_true, decide_eq_true_eq] at hboth
      exact ⟨hstatus ▸ hboth.2, if_pos hforget, hboth.1⟩
    · left
      exact ⟨(if_neg hforget).trans heventId.symm, (if_neg hforget).trans hstatus.symm⟩
  · by_cases hdue : edit.fields.discordSync = true ∨
        (discordAfterWrite edit.row edit.fields).1 ≠ none
    · exact Or.inl (if_pos hdue)
    · right
      obtain ⟨hsync, hnone⟩ := not_or.mp hdue
      have hnone := not_not.mp hnone
      refine ⟨Bool.eq_false_iff.mpr hsync, hnone, ?_⟩
      have hstate : (Event.edited s.now edit.fields edit.row e).discordState =
          edit.row.discordState := if_neg hdue
      rw [hstate]
      rcases htended with hsync' | ⟨hsome, hforget⟩ | hstate'
      · exact absurd hsync' hsync
      · have hkept : (discordAfterWrite edit.row edit.fields).1 = edit.row.discordEventId :=
          if_neg (by rw [hforget]; exact Bool.false_ne_true)
        exact absurd (hkept.symm.trans hnone) hsome
      · exact hstate'

theorem Inv.cancel (h : Inv s) {id : Nat} {e : Event} (he : s.events.byId? id = some e)
    (hnew : s.NewRev e.id)
    (htended : e.discordSync = true ∨ e.discordEventId ≠ none ∨ e.discordState ≠ some .synced) :
    Inv (s.put .write id (cancelEvent s.now s.events id)) := by
  obtain ⟨hmem, rfl⟩ := SerialTable.byId?_eq_some.mp he
  refine h.wrote (SerialTable.Replaced.of_update hmem) rfl hnew (Or.inl ⟨rfl, rfl⟩) ?_
  by_cases hdue : e.discordSync = true ∨ e.discordEventId ≠ none
  · exact Or.inl (if_pos hdue)
  · right
    obtain ⟨hsync, hnone⟩ := not_or.mp hdue
    refine ⟨Bool.eq_false_iff.mpr hsync, not_not.mp hnone, ?_⟩
    have hstate : (Event.calledOff s.now e).discordState = e.discordState := if_neg hdue
    rw [hstate]
    rcases htended with hsync' | hsome | hstate'
    · exact absurd hsync' hsync
    · exact absurd hsome hnone
    · exact hstate'

theorem Inv.ack (h : Inv s) {q : Handed} (hq : q ∈ s.handed) {e : Event}
    (he : s.events.byId? q.item.id = some e) {answer : Option String} {status : DiscordStatus}
    (hid : e.discordEventId ≠ none → answer.filter (· ≠ "") = e.discordEventId)
    (hfinal : status.final = true → e.updatedAt = q.item.rev) :
    Inv { s.put .ack q.item.id
        (ackOne s.events ⟨q.item.id, q.item.rev, .ok answer (some status)⟩) with
      acked := ⟨q.row, e, answer.filter (· ≠ ""), status⟩ :: s.acked } := by
  obtain ⟨hmem, heid⟩ := SerialTable.byId?_eq_some.mp he
  obtain ⟨hitem, hrev⟩ := h.items q hq
  have hsame : e.updatedAt = q.item.rev → q.row.toSheet = e.toSheet := fun hupdated =>
    h.tracks q hq e hmem (hitem.symm.trans heid.symm) (hrev.symm.trans hupdated.symm)
  have hreplaced : SerialTable.Replaced s.events
      (ackOne s.events ⟨q.item.id, q.item.rev, .ok answer (some status)⟩) e
      (e.acked ⟨q.item.id, q.item.rev, .ok answer (some status)⟩) := by
    unfold ackOne
    rw [← heid]
    exact SerialTable.Replaced.of_update hmem (Event.acked_id _) (Event.acked_id _)
  refine ⟨h.items, fun r hr => (h.present r hr).replaced hreplaced,
    fun r hr d hd hrd hupdated => ?_, fun a ha => ?_, fun d hd => ?_, fun f hf => ?_⟩
  · rcases hreplaced.mem_iff.mp hd with rfl | ⟨hd, -⟩
    · exact h.tracks r hr e hmem hrd hupdated
    · exact h.tracks r hr d hd hrd hupdated
  · rcases List.mem_cons.mp ha with rfl | ha
    · exact Present.replaced ⟨e, hmem, rfl⟩ hreplaced
    · exact (h.acked a ha).replaced hreplaced
  · rcases hreplaced.mem_iff.mp hd with rfl | ⟨hd, hne⟩
    · exact (h.accounted e hmem).answered hid hfinal hsame
    · exact (h.accounted d hd).answered_other (Ne.symm hne)
  · rcases List.mem_append.mp hf with hf | hf
    · have hafter := byId?_of_mem hreplaced.mem_new
      rw [hreplaced.id_eq, heid] at hafter
      rw [he, hafter] at hf
      obtain ⟨-, hsome, hlost⟩ := mem_forgets hf
      exact absurd (hid hsome) hlost
    · exact h.forgotten f hf

theorem Inv.ack_failed (h : Inv s) {r : Result} {e : Event} (he : s.events.byId? r.id = some e)
    (hfailed : ∀ answer status, r.outcome ≠ .ok answer (some status)) :
    Inv (s.put .ack r.id (ackOne s.events r)) := by
  obtain ⟨hmem, heid⟩ := SerialTable.byId?_eq_some.mp he
  have hreplaced : SerialTable.Replaced s.events (ackOne s.events r) e (e.acked r) := by
    unfold ackOne
    rw [← heid]
    exact SerialTable.Replaced.of_update hmem (Event.acked_id _) (Event.acked_id _)
  have hcases : e.acked r = { e with discordState := some .failed } ∨ e.acked r = e := by
    unfold Event.acked
    split
    · exact Or.inl rfl
    · exact Or.inr rfl
    · rename_i answer status houtcome
      exact absurd houtcome (hfailed answer status)
  have hold := h.accounted e hmem
  rw [← heid]
  rcases hcases with hrow | hrow
  · rw [hrow] at hreplaced
    refine h.put hreplaced ⟨nofun, fun a ha hne => ?_, hold.known, hold.live⟩
      (fun q hq hid hrev => h.tracks q hq e hmem hid hrev) fun _ hlost => absurd rfl hlost
    exact ⟨(hold.stale a ha hne).1, Or.inr (Or.inl rfl)⟩
  · rw [hrow] at hreplaced
    exact h.put hreplaced hold (fun q hq hid hrev => h.tracks q hq e hmem hid hrev)
      fun _ hlost => absurd rfl hlost

theorem Inv.create (h : Inv s) {events : Rows} {fields : Fields}
    (hevents : insertEvent s.now s.events fields = some events) : Inv { s with events } := by
  have hmem := fun e => SerialTable.mem_insert? (s := e) hevents
  have hkeep : ∀ {id}, Present s.events id → Present events id := by
    rintro id ⟨e, he, hid⟩
    exact ⟨e, (hmem e).mpr (Or.inr he), hid⟩
  refine ⟨h.items, fun q hq => hkeep (h.present q hq), fun q hq e he hid hrev => ?_,
    fun a ha => hkeep (h.acked a ha), fun e he => ?_, h.forgotten⟩
  · rcases (hmem e).mp he with rfl | he
    · exact absurd hid (Nat.ne_of_lt (h.present q hq).lt)
    · exact h.tracks q hq e he hid hrev
  · rcases (hmem e).mp he with rfl | he
    · have hnone : ∀ a ∈ s.acked, a.found.id ≠ s.events.next := fun a ha =>
        Nat.ne_of_lt (h.acked a ha).lt
      have hlast : lastAck s.acked s.events.next = none := by
        simpa [lastAck] using hnone
      have hlastOf : ∀ x, lastAckOf s.acked s.events.next x = none := by
        intro x
        simp only [lastAckOf, List.find?_eq_none, decide_eq_true_eq]
        exact fun a ha hid => hnone a ha hid.1
      refine ⟨fun hsynced => ?_, fun a ha => ?_, nofun, fun x a ha => ?_⟩
      · simp only at hsynced
        split at hsynced <;> cases hsynced
      · cases hlast.symm.trans ha
      · cases (hlastOf x).symm.trans ha
    · exact h.accounted e he

theorem Inv.poll (h : Inv s) (limit : Nat) :
    Inv { s with
      handed := s.handed ++
        (pendingRows limit s.now s.events).map fun p => ⟨p.1, item py p.1 p.2⟩ } := by
  have hnew : ∀ q ∈ (pendingRows limit s.now s.events).map
      (fun p => (⟨p.1, item py p.1 p.2⟩ : Handed)), ∃ desired, q.item = item py q.row desired ∧
        q.row ∈ s.events := by
    intro q hq
    obtain ⟨p, hp, rfl⟩ := List.mem_map.mp hq
    exact ⟨p.2, rfl, (of_mem_pendingRows hp).1⟩
  refine ⟨fun q hq => ?_, fun q hq => ?_, fun q hq e he hid hrev => ?_, h.acked, h.accounted,
    h.forgotten⟩
  · rcases List.mem_append.mp hq with hq | hq
    · exact h.items q hq
    · obtain ⟨desired, hitem, -⟩ := hnew q hq
      rw [hitem]
      exact ⟨rfl, rfl⟩
  · rcases List.mem_append.mp hq with hq | hq
    · exact h.present q hq
    · obtain ⟨_, -, hrow⟩ := hnew q hq
      exact ⟨q.row, hrow, rfl⟩
  · rcases List.mem_append.mp hq with hq | hq
    · exact h.tracks q hq e he hid hrev
    · obtain ⟨_, -, hrow⟩ := hnew q hq
      rw [SerialTable.eq_of_id_eq hrow he hid]

theorem Inv.step {a : Act} (h : Inv s) (hord : s.Orderly a) (hstep : step py s a = some s') :
    Inv s' := by
  cases a with
  | clock now =>
    cases hstep
    exact ⟨h.items, h.present, h.tracks, h.acked, h.accounted, h.forgotten⟩
  | create fields =>
    obtain ⟨events, hevents, rfl⟩ := Option.map_eq_some_iff.mp hstep
    exact h.create hevents
  | read id body =>
    simp only [Sync.step, Option.bind_eq_bind, Option.bind_eq_some_iff] at hstep
    obtain ⟨row, -, fields, -, hstep⟩ := hstep
    cases hstep
    exact ⟨h.items, h.present, h.tracks, h.acked, h.accounted, h.forgotten⟩
  | update i =>
    simp only [Sync.step, Option.bind_eq_bind, Option.bind_eq_some_iff] at hstep
    obtain ⟨edit, hedit, hstep⟩ := hstep
    have hrest : Inv { s with edits := s.edits.eraseIdx i } :=
      ⟨h.items, h.present, h.tracks, h.acked, h.accounted, h.forgotten⟩
    unfold updateEvent at hstep
    split at hstep
    · cases hstep
      exact hrest
    · rename_i events hevents
      split at hevents
      · rename_i hguard
        cases hevents
        cases hstep
        obtain ⟨e, he, hsame⟩ := (Option.any_eq_true _ _).mp hguard
        obtain ⟨hnew, heventId, hstatus, htended⟩ := hord edit hedit e he hsame
        exact hrest.update he hnew heventId hstatus htended
      · cases hevents
  | cancel id =>
    simp only [Sync.step, Option.bind_eq_bind, Option.bind_eq_some_iff] at hstep
    obtain ⟨e, he, hstep⟩ := hstep
    cases hstep
    obtain ⟨hnew, htended⟩ := hord e he
    exact h.cancel he hnew htended
  | runner id state error job jobAt =>
    simp only [Sync.step, Option.bind_eq_bind, Option.bind_eq_some_iff] at hstep
    obtain ⟨e, he, hstep⟩ := hstep
    cases hstep
    obtain ⟨hmem, rfl⟩ := SerialTable.byId?_eq_some.mp he
    have hold := h.accounted e hmem
    exact h.put (SerialTable.Replaced.of_update hmem)
      ⟨hold.synced, hold.stale, hold.known, hold.live⟩
      (fun q hq hid hrev => h.tracks q hq e hmem hid hrev) fun _ hlost => absurd rfl hlost
  | poll limit =>
    cases hstep
    exact h.poll limit
  | ack i outcome =>
    simp only [Sync.step, Option.bind_eq_bind, Option.bind_eq_some_iff] at hstep
    obtain ⟨q, hq, hstep⟩ := hstep
    cases hstep
    have hmem := List.mem_of_getElem? hq
    obtain ⟨e, he, hid⟩ := h.present q hmem
    have hfound : s.events.byId? q.item.id = some e := by
      rw [(h.items q hmem).1, ← hid]
      exact byId?_of_mem he
    cases outcome with
    | failed => exact h.ack_failed hfound nofun
    | ok answer status =>
      cases status with
      | none => exact h.ack_failed hfound (fun _ _ => nofun)
      | some status =>
        obtain ⟨hsameId, hfinal⟩ := hord q hq e hfound
        have hacked := h.ack hmem hfound hsameId hfinal
        rw [hfound]
        exact hacked

/-! ## Nothing is lost -/

theorem desiredStatus_of_off {e : Event} {now : Nat} (hsync : e.discordSync = false)
    (hnone : e.discordEventId = none) : desiredStatus e now = none := by
  simp [desiredStatus, hsync, hnone]

theorem Inv.handsOut (h : Inv s) {e : Event} (he : e ∈ s.events) {a : Acked}
    (ha : lastAck s.acked e.id = some a) (hne : a.built.toSheet ≠ a.found.toSheet)
    (hshows : e.Shows s.now) : s.HandsOut py e := by
  obtain ⟨hopen, hdue⟩ := (h.accounted e he).stale a ha hne
  obtain ⟨desired, hdesired, hshow⟩ := hshows
  have htold : ¬(e.discordSync = false ∧ e.discordEventId = none) := by
    rintro ⟨hsync, hnone⟩
    cases (desiredStatus_of_off hsync hnone).symm.trans hdesired
  have hon : e.onDiscord = true := by
    simp only [Event.onDiscord, hopen, Bool.not_false, Bool.and_true, Bool.or_eq_true]
    by_contra hoff
    obtain ⟨hsync, hnone⟩ := not_or.mp hoff
    exact htold ⟨Bool.eq_false_iff.mpr hsync, Option.not_isSome_iff_eq_none.mp hnone⟩
  have hwork : e.needsWork desired = true := by
    rcases hdue with hdue | hdue | hdue
    · simp [Event.needsWork, hdue]
    · simp [Event.needsWork, hdue]
    · exact absurd hdue htold
  intro limit hlimit
  exact ⟨item py e desired,
    List.mem_map.mpr ⟨_, mem_pendingRows he hon hdesired hshow hwork hlimit, rfl⟩, rfl, rfl⟩

theorem Inv.lossless (h : Inv s) : s.Lossless py := by
  refine ⟨fun e he => (h.accounted e he).synced, h.forgotten,
    fun e he a ha hne hshows => h.handsOut he ha hne hshows, fun limit it hit hnone x hlive => ?_⟩
  obtain ⟨p, hp, rfl⟩ := List.mem_map.mp hit
  obtain ⟨hmem, -⟩ := of_mem_pendingRows hp
  obtain ⟨a, ha, hrunning⟩ := hlive
  cases ((h.accounted p.1 hmem).live x a ha hrunning).symm.trans hnone

structure Sys.Start (s : Sys) : Prop where
  edits : s.edits = []
  handed : s.handed = []
  acked : s.acked = []
  forgotten : s.forgotten = []
  events : ∀ e ∈ s.events, e.discordEventId = none ∧ e.discordState ≠ some .synced

theorem Sys.Start.inv (h : s.Start) : Inv s := by
  refine ⟨fun q hq => ?_, fun q hq => ?_, fun q hq => ?_, fun a ha => ?_, fun e he => ?_,
    fun f hf => ?_⟩
  · rw [h.handed] at hq
    cases hq
  · rw [h.handed] at hq
    cases hq
  · rw [h.handed] at hq
    cases hq
  · rw [h.acked] at ha
    cases ha
  · obtain ⟨hnone, hstate⟩ := h.events e he
    rw [h.acked]
    exact ⟨fun hsynced => absurd hsynced hstate, fun _ => nofun,
      fun x hx => absurd (hnone.symm.trans hx) nofun, fun _ _ => nofun⟩
  · rw [h.forgotten] at hf
    cases hf

/-- In every orderly run an event that is taken for synced is the one last answered, a Discord id is
forgotten by a publish after a final status only, an edit around an answer is handed out again, and
no event with a live Discord event is handed out without its id. -/
theorem nothing_lost (hstart : s.Start) {acts : List Act}
    (horderly : Along (step py) Sys.Orderly s acts) (hrun : exec (step py) s acts = some s') :
    s'.Lossless py :=
  (Runs.exec_invariant (I := Inv) (fun _ _ _ h hord hstep => h.step hord hstep) hstart.inv horderly
    hrun).lossless

/-! ## Some runs -/

instance (s : Sys) (id : Nat) : Decidable (s.NewRev id) :=
  inferInstanceAs (Decidable (∀ h ∈ s.handed, h.item.id = id → h.item.rev ≠ s.now))

instance (s : Sys) : (a : Act) → Decidable (s.Orderly a)
  | .clock _ | .create _ | .read _ _ | .runner _ _ _ _ _ | .poll _ | .ack _ .failed
  | .ack _ (.ok _ none) => .isTrue trivial
  | .update i =>
    inferInstanceAs (Decidable (∀ edit ∈ s.edits[i]?, ∀ e ∈ s.events.byId? edit.row.id,
      edit.row.sameEffect e = true →
        s.NewRev e.id ∧ e.discordEventId = edit.row.discordEventId ∧
          e.discordStatus = edit.row.discordStatus ∧ edit.Tended))
  | .cancel id =>
    inferInstanceAs (Decidable (∀ e ∈ s.events.byId? id, s.NewRev e.id ∧
      (e.discordSync = true ∨ e.discordEventId ≠ none ∨ e.discordState ≠ some .synced)))
  | .ack i (.ok discordEventId (some status)) =>
    inferInstanceAs (Decidable (∀ h ∈ s.handed[i]?, ∀ e ∈ s.events.byId? h.item.id,
      (e.discordEventId ≠ none → discordEventId.filter (· ≠ "") = e.discordEventId) ∧
        (status.final = true → e.updatedAt = h.item.rev)))

def quiet : Sys where
  now := 1000
  events := SerialTable.empty
  edits := []
  handed := []
  acked := []
  forgotten := []

theorem quiet_start : quiet.Start :=
  ⟨rfl, rfl, rfl, rfl, fun _ he => absurd he (SerialTable.not_mem_empty _)⟩

def marketDay : Fields where
  title := "Market day"
  kind := .community
  banner := none
  startsUtc := 90000
  endsUtc := none
  mapName := none
  description := none
  host := none
  status := .published
  discordSync := true
  effect := .none_
  effectScope := none
  effectRearm := false

def retitled (title status : Option String) : Body :=
  ⟨title, none, none, none, none, none, none, none, status, none, none, none, false⟩

def sameSecond : List Act :=
  [.create marketDay, .poll 50, .read 1 (retitled (some "Market night") none), .update 0,
   .ack 0 (.ok (some "77") (some .scheduled))]

/-- Discord shows the old title, and the event is taken for synced. -/
theorem edit_unsynced : quiet.Start ∧
    ∃ s', exec (step plainPython) quiet sameSecond = some s' ∧ ¬s'.Lossless plainPython := by
  obtain ⟨s', hrun, e, he, hsynced, hne⟩ : ∃ s',
      exec (step plainPython) quiet sameSecond = some s' ∧ ∃ e ∈ s'.events,
        e.discordState = some .synced ∧ ∀ a ∈ lastAck s'.acked e.id, a.built.toSheet ≠ e.toSheet :=
    Runs.exec_shows (by decide)
  refine ⟨quiet_start, s', hrun, fun h => ?_⟩
  obtain ⟨a, ha, hsame⟩ := h.synced e he hsynced
  exact hne a ha hsame

def marketYear : List Act :=
  [.create marketDay, .poll 50, .ack 0 (.ok (some "77") (some .scheduled)), .clock 1001,
   .read 1 (retitled (some "Market night") none), .update 0, .poll 50, .clock 1002,
   .read 1 (retitled (some "Night market") none), .update 0,
   .ack 1 (.ok (some "77") (some .scheduled)), .ack 0 .failed, .poll 50,
   .ack 2 (.ok (some "77") (some .scheduled)), .clock 1003,
   .read 1 (retitled none (some "draft")), .update 0, .poll 50,
   .ack 3 (.ok (some "77") (some .canceled)), .clock 1004,
   .read 1 (retitled none (some "published")), .update 0, .poll 50,
   .ack 4 (.ok (some "78") (some .scheduled)), .clock 1005, .cancel 1]

theorem nothing_lost_marketYear : ∃ s', exec (step plainPython) quiet marketYear = some s' ∧
    s'.forgotten.map (·.before.discordEventId) = [some "77"] ∧ s'.Lossless plainPython := by
  have horderly : Along (step plainPython) Sys.Orderly quiet marketYear := by decide
  obtain ⟨s', hrun, hforgot⟩ : ∃ s', exec (step plainPython) quiet marketYear = some s' ∧
      s'.forgotten.map (·.before.discordEventId) = [some "77"] :=
    Runs.exec_shows (by decide)
  exact ⟨s', hrun, hforgot, nothing_lost quiet_start horderly hrun⟩

end LastSietch.Events.Sync
