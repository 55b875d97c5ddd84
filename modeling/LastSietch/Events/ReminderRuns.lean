import LastSietch.Events.Reminders
import LastSietch.Lib.Runs

/-!
# Reminders in runs

Presses, the admin's edits and cancels, and the steps of a tick, in any order. A tick mails the
batch that it has read, and a press, an edit or a cancel may be written between two of its posts;
the row that a press drops is the only place where a sent reminder is kept.
-/

namespace LastSietch.Events.Reminders

open Runs (exec Along)

variable (py : Python)

/-! ## The system -/

inductive Tick
  | idle
  | enrolling (now : Nat)
  | reading (now : Nat)
  | sending (now : Nat) (batch : List Due)
  | marking (now : Nat) (row : Due) (batch : List Due)

def Tick.toSend : Tick → List Due
  | .sending _ batch | .marking _ _ batch => batch
  | .idle | .enrolling _ | .reading _ => []

def Tick.posted : Tick → Option Due
  | .marking _ row _ => some row
  | .idle | .enrolling _ | .reading _ | .sending _ _ => none

inductive Entry
  | pressed (k : Nat × Nat) (on : Bool)
  | mailed (k : Nat × Nat)
  | written (eventId : Nat) (status : Status) (rearmed : Bool)
  deriving DecidableEq

structure Sys where
  now : Nat
  /-- `LASTSIETCH_WEEKEND_REMIND_ENABLED`. -/
  weekendRemind : Bool
  events : Rows
  book : Book
  prefs : List Pref
  links : List Link
  toggles : List Toggle
  presses : List Press
  edits : List Edit
  tick : Tick
  mailbox : List Message
  log : List Entry

inductive Act
  | clock (now : Nat)
  | flag (on : Bool)
  | preferences (prefs : List Pref)
  | accounts (links : List Link)
  | create (fields : Fields)
  | read (id : Nat) (body : Body)
  | update (i : Nat)
  | cancel (id : Nat)
  | press (eventId account : Nat) (on : Bool)
  | answer (i : Nat) (audited : Bool)
  | tick
  | enrol (fails : Bool)
  | look
  | post (fails : Bool)
  | mark
  | stop

/-- A write of `update_event`, with the rows that it arms again. -/
def Sys.update (s : Sys) (edit : Edit) : Sys :=
  match updateEvent s.now s.events edit.fields edit.row with
  | none => s
  | some events =>
    let rearm := rearmNeeded s.now edit.row.startsUtc edit.fields.startsUtc
    { s with
      events
      book := if rearm then s.book.setNotified (fun r => r.eventId = edit.row.id) none else s.book
      log := .written edit.row.id edit.fields.status rearm :: s.log }

def Sys.cancel (s : Sys) (id : Nat) : Sys :=
  { s with
    events := cancelEvent s.now s.events id
    book := s.book.setNotified (fun r => r.eventId = id) (some s.now)
    log := .written id .cancelled false :: s.log }

def Sys.post (s : Sys) (now : Nat) (row : Due) (batch : List Due) (fails : Bool) : Sys :=
  match message py row with
  | none => { s with tick := .sending now batch }
  | some m =>
    if fails then { s with tick := .sending now batch }
    else { s with
      tick := .marking now row batch
      mailbox := s.mailbox ++ [m]
      log := .mailed row.key :: s.log }

def step (s : Sys) : Act → Option Sys
  | .clock now => some { s with now }
  | .flag on => some { s with weekendRemind := on }
  | .preferences prefs => some { s with prefs }
  | .accounts links => some { s with links }
  | .create fields => (insertEvent s.now s.events fields).map fun events =>
      { s with events, log := .written s.events.next fields.status false :: s.log }
  | .read id body => do
    let row ← s.events.byId? id
    let fields ← (editFields py.toPython body row).toOption
    some { s with edits := s.edits ++ [⟨row, fields⟩] }
  | .update i => do
    let edit ← s.edits[i]?
    some { s.update edit with edits := s.edits.eraseIdx i }
  | .cancel id => do
    let row ← s.events.byId? id
    if row.status = .cancelled then none else some (s.cancel id)
  | .press eventId account on => do
    let p ← (Reminders.press s.now s.events s.book s.toggles eventId account on).toOption
    some { s with presses := s.presses ++ [p] }
  | .answer i audited => do
    let p ← s.presses[i]?
    some { s with
      presses := s.presses.eraseIdx i
      book := p.write s.now s.book
      toggles := if audited then ⟨p.account, s.now⟩ :: s.toggles else s.toggles
      log := .pressed p.key p.on :: s.log }
  | .tick =>
    match s.tick with
    | .idle => some { s with tick := if s.weekendRemind then .enrolling s.now else .reading s.now }
    | _ => none
  | .enrol fails =>
    match s.tick with
    | .enrolling now => some { s with
        tick := .reading now
        book := if fails then s.book
          else (enrolWeekend py s.now s.events s.prefs s.links s.book).1 }
    | _ => none
  | .look =>
    match s.tick with
    | .reading now => some { s with tick := .sending now (due now s.events s.book) }
    | _ => none
  | .post fails =>
    match s.tick with
    | .sending now (row :: batch) => some (s.post py now row batch fails)
    | _ => none
  | .mark =>
    match s.tick with
    | .marking now row batch => some { s with
        tick := .sending now batch
        book := s.book.setNotified (fun r => r.key = row.key) (some now) }
    | _ => none
  | .stop =>
    match s.tick with
    | .marking .. => none
    | _ => some { s with tick := .idle }

def mailedSince (k : Nat × Nat) : List Entry → Bool
  | [] => false
  | .mailed k' :: older => k' = k || mailedSince k older
  | .written id _ rearmed :: older => !(id = k.1 && rearmed) && mailedSince k older
  | .pressed .. :: older => mailedSince k older

def lastPress (k : Nat × Nat) : List Entry → Option Bool
  | [] => none
  | .pressed k' on :: older => if k' = k then some on else lastPress k older
  | _ :: older => lastPress k older

def withdrawn (id : Nat) : List Entry → Bool
  | [] => false
  | .written id' status _ :: older => if id' = id then status ≠ .published else withdrawn id older
  | _ :: older => withdrawn id older

/-- Nobody is mailed twice for one event without a move that arms it again, nor after an unremind,
nor for an event that has been cancelled or taken back. -/
def Respected : List Entry → Prop
  | [] => True
  | .mailed k :: older => (mailedSince k older = false ∧ lastPress k older ≠ some false ∧
      withdrawn k.1 older = false) ∧ Respected older
  | _ :: older => Respected older

/-- No step loses what a tick relies on: a row that is made has not been mailed since the last move
and, where the opt-in makes it, was not dropped by its player; a press drops no row of the batch in
hand; and no event of the batch in hand is taken off. -/
def Sys.Careful (s : Sys) : Act → Prop
  | .answer i _ => ∀ p ∈ s.presses[i]?,
      if p.on then p.already = true ∨ s.book.has p.key = true ∨ mailedSince p.key s.log = false
      else (p.already = true ∨ s.book.has p.key = false) ∧ ∀ d ∈ s.tick.toSend, d.key ≠ p.key
  | .enrol false => ∀ k ∈ enrolled py s.now s.events s.prefs s.links,
      s.book.has k = true ∨ mailedSince k s.log = false ∧ lastPress k s.log ≠ some false
  | .update i => ∀ edit ∈ s.edits[i]?, edit.fields.status = .published ∨
      updateEvent s.now s.events edit.fields edit.row = none ∨
      ∀ d ∈ s.tick.toSend, d.eventId ≠ edit.row.id
  | .cancel id => ∀ d ∈ s.tick.toSend, d.eventId ≠ id
  | _ => True

/-! ## The invariant -/

structure Inv (s : Sys) : Prop where
  distinct : (s.tick.toSend.map Due.key).Nodup
  apart : ∀ r ∈ s.tick.posted, ∀ d ∈ s.tick.toSend, d.key ≠ r.key
  sendable : ∀ d ∈ s.tick.toSend, mailedSince d.key s.log = false ∧
    lastPress d.key s.log ≠ some false ∧ withdrawn d.eventId s.log = false
  known : ∀ d ∈ s.tick.toSend, d.eventId < s.events.next
  dropped : ∀ r ∈ s.book, lastPress r.key s.log ≠ some false
  marked : ∀ r ∈ s.book, mailedSince r.key s.log = true →
    r.notifiedAt ≠ none ∨ ∃ q ∈ s.tick.posted, q.key = r.key
  published : ∀ e ∈ s.events, e.status = .published → withdrawn e.id s.log = false
  respected : Respected s.log

variable {s s' : Sys}

theorem Inv.idle (h : Inv s) {t : Tick} (hsend : t.toSend = []) (hposted : s.tick.posted = none) :
    Inv { s with tick := t } where
  distinct := by
    show (t.toSend.map Due.key).Nodup
    rw [hsend]
    exact List.nodup_nil
  apart := by
    intro _ _ d hd
    change d ∈ t.toSend at hd
    rw [hsend] at hd
    cases hd
  sendable := by
    intro d hd
    change d ∈ t.toSend at hd
    rw [hsend] at hd
    cases hd
  known := by
    intro d hd
    change d ∈ t.toSend at hd
    rw [hsend] at hd
    cases hd
  dropped := h.dropped
  marked := by
    intro r hr hmailed
    refine (h.marked r hr hmailed).imp_right ?_
    rintro ⟨q, hq, _⟩
    rw [hposted] at hq
    cases hq
  published := h.published
  respected := h.respected

variable {now : Nat} {row : Due} {batch : List Due}

theorem Inv.skip (h : Inv s) (htick : s.tick = .sending now (row :: batch)) :
    Inv { s with tick := .sending now batch } := by
  have hsend : s.tick.toSend = row :: batch := by rw [htick]; rfl
  have hposted : s.tick.posted = none := by rw [htick]; rfl
  have hrest : ∀ d ∈ batch, d ∈ s.tick.toSend := by
    intro d hd
    rw [hsend]
    exact List.mem_cons_of_mem row hd
  refine ⟨?_, fun _ hr => (by cases hr), fun d hd => h.sendable d (hrest d hd),
    fun d hd => h.known d (hrest d hd), h.dropped, ?_, h.published, h.respected⟩
  · have hdistinct := h.distinct
    rw [hsend] at hdistinct
    exact (List.nodup_cons.mp hdistinct).2
  · intro r hr hmailed
    refine (h.marked r hr hmailed).imp_right ?_
    rintro ⟨q, hq, _⟩
    rw [hposted] at hq
    cases hq

theorem Inv.look (h : Inv s) (htick : s.tick = .reading now) :
    Inv { s with tick := .sending now (due now s.events s.book) } where
  distinct := due_nodup now s.events s.book
  apart := fun _ hr => by cases hr
  sendable := by
    intro d hd
    obtain ⟨r, hr, e, he, hkey, hid, hdue, hstatus⟩ := mem_due hd
    refine ⟨?_, hkey ▸ h.dropped r hr, hid ▸ h.published e he hstatus⟩
    rw [← hkey]
    refine Bool.eq_false_of_not_eq_true fun hmailed => ?_
    rcases h.marked r hr hmailed with hmarked | ⟨q, hq, _⟩
    · exact hmarked hdue
    · rw [htick] at hq
      cases hq
  known := by
    intro d hd
    obtain ⟨_, _, e, he, _, hid, _⟩ := mem_due hd
    exact hid ▸ SerialTable.id_lt_next he
  dropped := h.dropped
  marked := by
    intro r hr hmailed
    refine (h.marked r hr hmailed).imp_right ?_
    rintro ⟨q, hq, _⟩
    rw [htick] at hq
    cases hq
  published := h.published
  respected := h.respected

theorem mailedSince_mailed {k k' : Nat × Nat} {log : List Entry} :
    mailedSince k (.mailed k' :: log) = (k' = k || mailedSince k log) := rfl

theorem Inv.posted (h : Inv s) {mailbox : List Message}
    (htick : s.tick = .sending now (row :: batch)) :
    Inv { s with
      tick := .marking now row batch
      mailbox
      log := .mailed row.key :: s.log } := by
  have hsend : s.tick.toSend = row :: batch := by rw [htick]; rfl
  have hdistinct : row.key ∉ batch.map Due.key ∧ (batch.map Due.key).Nodup := by
    have hnodup := h.distinct
    rw [hsend] at hnodup
    exact List.nodup_cons.mp hnodup
  have hother : ∀ d ∈ batch, d.key ≠ row.key := by
    intro d hd hkey
    exact hdistinct.1 (hkey ▸ List.mem_map_of_mem hd)
  have hrow := h.sendable row (by rw [hsend]; exact List.mem_cons_self ..)
  have hrest : ∀ d ∈ batch, d ∈ s.tick.toSend := by
    intro d hd
    rw [hsend]
    exact List.mem_cons_of_mem row hd
  refine ⟨hdistinct.2, ?_, fun d hd => ?_, fun d hd => h.known d (hrest d hd), h.dropped,
    fun r hr hmailed => ?_, h.published, hrow, h.respected⟩
  · rintro r ⟨⟩ d hd
    exact hother d hd
  · obtain ⟨hmailed, hpress, hoff⟩ := h.sendable d (hrest d hd)
    refine ⟨?_, hpress, hoff⟩
    rw [mailedSince_mailed, hmailed, Bool.or_false]
    exact decide_eq_false (hother d hd).symm
  · by_cases hkey : row.key = r.key
    · exact Or.inr ⟨row, rfl, hkey⟩
    · rw [mailedSince_mailed, decide_eq_false hkey, Bool.false_or] at hmailed
      rcases h.marked r hr hmailed with hmarked | ⟨q, hq, _⟩
      · exact Or.inl hmarked
      · rw [htick] at hq
        cases hq

theorem Inv.mark (h : Inv s) (htick : s.tick = .marking now row batch) :
    Inv { s with
      tick := .sending now batch
      book := s.book.setNotified (fun r => r.key = row.key) (some now) } := by
  have hsend : s.tick.toSend = batch := by rw [htick]; rfl
  have hposted : s.tick.posted = some row := by rw [htick]; rfl
  refine ⟨hsend ▸ h.distinct, fun _ hr => (by cases hr), fun d hd => h.sendable d (hsend ▸ hd),
    fun d hd => h.known d (hsend ▸ hd), ?_, ?_, h.published, h.respected⟩
  · intro r hr
    obtain ⟨q, hq, rfl⟩ := mem_setNotified.mp hr
    split
    · exact h.dropped q hq
    · exact h.dropped q hq
  · intro r hr hmailed
    obtain ⟨q, hq, rfl⟩ := mem_setNotified.mp hr
    split
    · rename_i hkey
      refine Or.inl fun hnone => ?_
      cases hnone
    · rename_i hkey
      rw [if_neg hkey] at hmailed
      rcases h.marked q hq hmailed with hmarked | ⟨p, hp, hpkey⟩
      · exact Or.inl hmarked
      · rw [hposted] at hp
        obtain rfl := Option.some.inj hp
        exact absurd (decide_eq_true hpkey.symm) hkey

theorem Inv.enrol (h : Inv s) {keys : List (Nat × Nat)}
    (hnew : ∀ k ∈ keys, s.book.has k = true ∨
      mailedSince k s.log = false ∧ lastPress k s.log ≠ some false) :
    Inv { s with book := insertAll s.now s.book keys } := by
  refine ⟨h.distinct, h.apart, h.sendable, h.known, fun r hr => ?_, fun r hr hmailed => ?_,
    h.published, h.respected⟩
  · rcases mem_of_mem_insertAll hr with hr | ⟨hk, hno, _⟩
    · exact h.dropped r hr
    · rcases hnew _ hk with hhas | ⟨_, hpress⟩
      · rw [hno] at hhas
        cases hhas
      · exact hpress
  · rcases mem_of_mem_insertAll hr with hr | ⟨hk, hno, _⟩
    · exact h.marked r hr hmailed
    · rcases hnew _ hk with hhas | ⟨hunmailed, _⟩
      · rw [hno] at hhas
        cases hhas
      · rw [hunmailed] at hmailed
        cases hmailed

theorem lastPress_pressed {k k' : Nat × Nat} {on : Bool} {log : List Entry} :
    lastPress k (.pressed k' on :: log) = if k' = k then some on else lastPress k log := rfl

theorem Inv.answer (h : Inv s) {p : Press}
    (hcareful : if p.on then
        p.already = true ∨ s.book.has p.key = true ∨ mailedSince p.key s.log = false
      else (p.already = true ∨ s.book.has p.key = false) ∧ ∀ d ∈ s.tick.toSend, d.key ≠ p.key) :
    Inv { s with book := p.write s.now s.book, log := .pressed p.key p.on :: s.log } := by
  refine ⟨h.distinct, h.apart, fun d hd => ?_, h.known, fun r hr => ?_, fun r hr hmailed => ?_,
    h.published, h.respected⟩
  · obtain ⟨hmailed, hpress, hoff⟩ := h.sendable d hd
    refine ⟨hmailed, ?_, hoff⟩
    rw [lastPress_pressed]
    by_cases hkey : p.key = d.key
    · rw [if_pos hkey]
      intro hon
      rw [if_neg (by rw [Option.some.inj hon]; exact Bool.false_ne_true)] at hcareful
      exact hcareful.2 d hd hkey.symm
    · rw [if_neg hkey]
      exact hpress
  · rw [lastPress_pressed]
    rcases mem_of_mem_write hr with ⟨hr, hgone⟩ | ⟨hon, _, hkey, _⟩
    · by_cases hkey : p.key = r.key
      · rw [if_pos hkey]
        intro hoff
        have hoff := Option.some.inj hoff
        rw [if_neg (by rw [hoff]; exact Bool.false_ne_true)] at hcareful
        rcases hcareful.1 with halready | hno
        · exact hgone hoff halready hkey.symm
        · rw [hkey, has_of_mem hr] at hno
          cases hno
      · rw [if_neg hkey]
        exact h.dropped r hr
    · rw [if_pos hkey.symm, hon]
      exact fun hoff => by cases hoff
  · rcases mem_of_mem_write hr with ⟨hr, _⟩ | ⟨hon, halready, hkey, hno⟩
    · exact h.marked r hr hmailed
    · rw [if_pos hon] at hcareful
      change mailedSince r.key s.log = true at hmailed
      rcases hcareful with hseen | hhas | hunmailed
      · rw [halready] at hseen
        cases hseen
      · rw [hno] at hhas
        cases hhas
      · rw [hkey, hunmailed] at hmailed
        cases hmailed

theorem Inv.written (h : Inv s) {events : Rows} {book : Book} {id : Nat} {status : Status}
    {rearmed : Bool}
    (hevents : ∀ e ∈ events, e.id = id ∧ e.status = status ∨ e.id ≠ id ∧ e ∈ s.events)
    (hbook : ∀ r ∈ book, ∃ q ∈ s.book, q.key = r.key ∧
      (q.notifiedAt ≠ none → r.notifiedAt ≠ none ∨ r.eventId = id ∧ rearmed = true))
    (hbatch : status = .published ∨ ∀ d ∈ s.tick.toSend, d.eventId ≠ id)
    (hnext : s.events.next ≤ events.next) :
    Inv { s with events, book, log := .written id status rearmed :: s.log } := by
  have hsince : ∀ k, mailedSince k (.written id status rearmed :: s.log) =
      (!(id = k.1 && rearmed) && mailedSince k s.log) := fun _ => rfl
  have hoff : ∀ i, withdrawn i (.written id status rearmed :: s.log) =
      if id = i then decide (status ≠ .published) else withdrawn i s.log := fun _ => rfl
  refine ⟨h.distinct, h.apart, fun d hd => ?_, fun d hd => (h.known d hd).trans_le hnext,
    fun r hr => ?_, fun r hr hmailed => ?_, fun e he hpublished => ?_, h.respected⟩
  · obtain ⟨hmailed, hpress, hwithdrawn⟩ := h.sendable d hd
    refine ⟨?_, hpress, ?_⟩
    · rw [hsince, hmailed, Bool.and_false]
    · rw [hoff]
      by_cases hid : id = d.eventId
      · rw [if_pos hid]
        rcases hbatch with rfl | hbatch
        · rfl
        · exact absurd hid.symm (hbatch d hd)
      · rw [if_neg hid]
        exact hwithdrawn
  · obtain ⟨q, hq, hkey, _⟩ := hbook r hr
    exact hkey ▸ h.dropped q hq
  · obtain ⟨q, hq, hkey, hmark⟩ := hbook r hr
    rw [hsince, Bool.and_eq_true, Bool.not_eq_true', ← hkey] at hmailed
    rcases h.marked q hq hmailed.2 with hmarked | ⟨p, hp, hpkey⟩
    · refine (hmark hmarked).imp_right fun ⟨hid, harmed⟩ => ?_
      have hsame : id = q.key.1 := by rw [hkey]; exact hid.symm
      rw [harmed, Bool.and_true, decide_eq_false_iff_not] at hmailed
      exact absurd hsame hmailed.1
    · exact Or.inr ⟨p, hp, hpkey.trans hkey⟩
  · rw [hoff]
    rcases hevents e he with ⟨hid, hstatus⟩ | ⟨hid, he⟩
    · rw [if_pos hid.symm, ← hstatus, hpublished]
      rfl
    · rw [if_neg (Ne.symm hid)]
      exact h.published e he hpublished

theorem next_of_update {events events' : Rows} {fields : Fields} {row : Event}
    (h : updateEvent now events fields row = some events') : events'.next = events.next := by
  unfold updateEvent at h
  split at h
  · obtain rfl := Option.some.inj h
    rfl
  · cases h

theorem Inv.update (h : Inv s) {edit : Edit}
    (hcareful : edit.fields.status = .published ∨
      updateEvent s.now s.events edit.fields edit.row = none ∨
      ∀ d ∈ s.tick.toSend, d.eventId ≠ edit.row.id) : Inv (s.update edit) := by
  unfold Sys.update
  cases hupdate : updateEvent s.now s.events edit.fields edit.row with
  | none => exact h
  | some events =>
    rw [hupdate] at hcareful
    refine h.written (fun e he => ?_) (fun r hr => ?_) ?_ (next_of_update hupdate).ge
    · unfold updateEvent at hupdate
      split at hupdate
      · obtain rfl := Option.some.inj hupdate
        obtain ⟨q, hq, rfl⟩ := SerialTable.mem_update.mp he
        by_cases hid : q.id = edit.row.id
        · rw [if_pos (decide_eq_true hid)]
          exact Or.inl ⟨hid, rfl⟩
        · rw [if_neg (fun hdec => hid (of_decide_eq_true hdec))]
          exact Or.inr ⟨hid, hq⟩
      · cases hupdate
    · split at hr
      · obtain ⟨q, hq, rfl⟩ := mem_setNotified.mp hr
        rename_i hrearm
        refine ⟨q, hq, ?_, fun hmarked => ?_⟩
        · split <;> rfl
        · by_cases hid : q.eventId = edit.row.id
          · rw [if_pos (decide_eq_true hid)]
            exact Or.inr ⟨hid, hrearm⟩
          · rw [if_neg (fun hdec => hid (of_decide_eq_true hdec))]
            exact Or.inl hmarked
      · exact ⟨r, hr, rfl, Or.inl⟩
    · exact hcareful.imp_right fun hrest => hrest.resolve_left (fun hnone => by cases hnone)

theorem Inv.cancel (h : Inv s) {id : Nat} (hcareful : ∀ d ∈ s.tick.toSend, d.eventId ≠ id) :
    Inv (s.cancel id) := by
  refine h.written (fun e he => ?_) (fun r hr => ?_) (Or.inr hcareful) le_rfl
  · obtain ⟨q, hq, rfl⟩ := SerialTable.mem_update.mp he
    by_cases hid : q.id = id
    · rw [if_pos (decide_eq_true hid)]
      exact Or.inl ⟨hid, rfl⟩
    · rw [if_neg (fun hdec => hid (of_decide_eq_true hdec))]
      exact Or.inr ⟨hid, hq⟩
  · obtain ⟨q, hq, rfl⟩ := mem_setNotified.mp hr
    refine ⟨q, hq, ?_, fun hmarked => Or.inl ?_⟩
    · split <;> rfl
    · split
      · exact fun hnone => by cases hnone
      · exact hmarked

theorem Inv.create (h : Inv s) {events : Rows} {fields : Fields}
    (hevents : insertEvent s.now s.events fields = some events) :
    Inv { s with events, log := .written s.events.next fields.status false :: s.log } := by
  refine h.written (fun e he => ?_) (fun r hr => ⟨r, hr, rfl, Or.inl⟩)
    (Or.inr fun d hd => Nat.ne_of_lt (h.known d hd)) ?_
  · rcases (SerialTable.mem_insert? hevents).mp he with rfl | he
    · exact Or.inl ⟨rfl, rfl⟩
    · exact Or.inr ⟨Nat.ne_of_lt (SerialTable.id_lt_next he), he⟩
  · rw [(SerialTable.rows_insert? hevents).2]
    exact Nat.le_succ _

theorem Inv.post (h : Inv s) {fails : Bool}
    (htick : s.tick = .sending now (row :: batch)) : Inv (s.post py now row batch fails) := by
  unfold Sys.post
  split
  · exact h.skip htick
  · split
    · exact h.skip htick
    · exact h.posted htick

theorem Inv.step {a : Act} (h : Inv s) (hcareful : s.Careful py a)
    (hstep : step py s a = some s') : Inv s' := by
  cases a with
  | clock | flag | preferences | accounts =>
    cases hstep
    exact ⟨h.distinct, h.apart, h.sendable, h.known, h.dropped, h.marked, h.published, h.respected⟩
  | create fields =>
    obtain ⟨events, hevents, rfl⟩ := Option.map_eq_some_iff.mp hstep
    exact h.create hevents
  | read id body =>
    obtain ⟨row, _, hstep⟩ := Option.bind_eq_some_iff.mp hstep
    obtain ⟨fields, _, hstep⟩ := Option.bind_eq_some_iff.mp hstep
    cases hstep
    exact ⟨h.distinct, h.apart, h.sendable, h.known, h.dropped, h.marked, h.published, h.respected⟩
  | update i =>
    obtain ⟨edit, hedit, hstep⟩ := Option.bind_eq_some_iff.mp hstep
    cases hstep
    have hdone := h.update (hcareful edit hedit)
    exact ⟨hdone.distinct, hdone.apart, hdone.sendable, hdone.known, hdone.dropped, hdone.marked,
      hdone.published, hdone.respected⟩
  | cancel id =>
    obtain ⟨row, _, hstep⟩ := Option.bind_eq_some_iff.mp hstep
    split at hstep
    · cases hstep
    · cases hstep
      exact h.cancel hcareful
  | press eventId account on =>
    obtain ⟨p, _, hstep⟩ := Option.bind_eq_some_iff.mp hstep
    cases hstep
    exact ⟨h.distinct, h.apart, h.sendable, h.known, h.dropped, h.marked, h.published, h.respected⟩
  | answer i audited =>
    obtain ⟨p, hp, hstep⟩ := Option.bind_eq_some_iff.mp hstep
    cases hstep
    have hdone := h.answer (hcareful p hp)
    exact ⟨hdone.distinct, hdone.apart, hdone.sendable, hdone.known, hdone.dropped, hdone.marked,
      hdone.published, hdone.respected⟩
  | tick =>
    simp only [Reminders.step] at hstep
    split at hstep
    · rename_i htick
      cases hstep
      refine h.idle ?_ (by rw [htick]; rfl)
      split <;> rfl
    · cases hstep
  | enrol fails =>
    simp only [Reminders.step] at hstep
    split at hstep
    · rename_i now htick
      cases hstep
      have hdone : Inv { s with tick := .reading now } := h.idle rfl (by rw [htick]; rfl)
      cases fails with
      | true => exact hdone
      | false => exact hdone.enrol hcareful
    · cases hstep
  | look =>
    simp only [Reminders.step] at hstep
    split at hstep
    · rename_i now htick
      cases hstep
      exact h.look htick
    · cases hstep
  | post fails =>
    simp only [Reminders.step] at hstep
    split at hstep
    · rename_i now row batch htick
      cases hstep
      exact h.post py htick
    · cases hstep
  | mark =>
    simp only [Reminders.step] at hstep
    split at hstep
    · rename_i now row batch htick
      cases hstep
      exact h.mark htick
    · cases hstep
  | stop =>
    simp only [Reminders.step] at hstep
    split at hstep
    · cases hstep
    · rename_i hmarking
      cases hstep
      refine h.idle rfl ?_
      cases htick : s.tick with
      | marking now row batch => exact absurd htick (hmarking now row batch)
      | idle | enrolling | reading | sending => rfl

structure Sys.Start (s : Sys) : Prop where
  tick : s.tick = .idle
  log : s.log = []

theorem Sys.Start.inv (h : s.Start) : Inv s where
  distinct := by rw [h.tick]; exact List.nodup_nil
  apart := by rw [h.tick]; exact fun _ hr => by cases hr
  sendable := by rw [h.tick]; exact fun _ hd => by cases hd
  known := by rw [h.tick]; exact fun _ hd => by cases hd
  dropped := by rw [h.log]; exact fun _ _ hoff => by cases hoff
  marked := by rw [h.log]; exact fun _ _ hmailed => by cases hmailed
  published := by rw [h.log]; exact fun _ _ _ => rfl
  respected := by rw [h.log]; trivial

/-- Where every press, enrolment, edit and cancel leaves alone what a tick has in hand and what has
been mailed, every mail of the run respects the player and the event. -/
theorem reminders_respect (hstart : s.Start) {acts : List Act}
    (hcareful : Along (step py) (Sys.Careful py) s acts)
    (hrun : exec (step py) s acts = some s') : Respected s'.log := by
  have hinv : Inv s' :=
    Runs.exec_invariant (fun _ _ _ h hcareful hstep => h.step py hcareful hstep) hstart.inv hcareful
      hrun
  exact hinv.respected

instance decidableRespected : (log : List Entry) → Decidable (Respected log)
  | [] => .isTrue trivial
  | .mailed k :: older =>
    have := decidableRespected older
    inferInstanceAs (Decidable ((mailedSince k older = false ∧ lastPress k older ≠ some false ∧
      withdrawn k.1 older = false) ∧ Respected older))
  | .pressed .. :: older => decidableRespected older
  | .written .. :: older => decidableRespected older

instance (s : Sys) (a : Act) : Decidable (s.Careful py a) := by
  cases a with
  | answer | update | cancel => unfold Sys.Careful; infer_instance
  | enrol fails => cases fails <;> unfold Sys.Careful <;> infer_instance
  | _ => exact .isTrue trivial

/-! ## An event that is about to start -/

def doubleXp : Event where
  title := "Double XP"
  kind := .community
  banner := none
  startsUtc := 4000
  endsUtc := some 176800
  mapName := none
  description := none
  host := none
  status := .published
  discordSync := false
  id := 1
  publishedAt := some 10
  updatedAt := 10
  discordEventId := none
  discordStatus := none
  discordState := none
  effect := some .xp
  effectScope := some .fleet
  effectState := some .armed
  effectError := none
  effectJob := none
  effectJobAt := none

theorem doubleXp_below : ∀ e ∈ [doubleXp], e.id < 2 := by
  intro e he
  rw [List.mem_singleton.mp he]
  exact Nat.lt_succ_self 1

def oneEvent : Rows where
  rows := [doubleXp]
  unique := List.nodup_singleton _
  next := 2
  serial := List.nodup_singleton _
  below := doubleXp_below

def saturday : Sys where
  now := 1000
  weekendRemind := true
  events := oneEvent
  book := .empty
  prefs := [⟨"d", "", some (.obj [("weekend_remind", .bool true)])⟩]
  links := [⟨"d", 7, false⟩]
  toggles := []
  presses := []
  edits := [⟨doubleXp, { doubleXp.toSheet with
    startsUtc := 6000, effect := .xp, effectScope := some .fleet, effectRearm := false }⟩]
  tick := .idle
  mailbox := []
  log := []

theorem saturday_start : saturday.Start := ⟨rfl, rfl⟩

def oneRow : List Act := [.tick, .enrol false, .look, .post false, .mark, .stop]

/-- The player has been reminded and drops the reminder; the next tick makes it again. -/
theorem mailed_again : saturday.Start ∧
    ∃ s', exec (step plainPython) saturday
      (oneRow ++ [.press 1 7 false, .answer 0 true] ++ oneRow) = some s' ∧
      s'.log = [.mailed (1, 7), .pressed (1, 7) false, .mailed (1, 7)] ∧ ¬Respected s'.log := by
  refine ⟨saturday_start, Runs.exec_shows ?_⟩
  decide

/-- The player sets his reminder himself; he is mailed, and again after the event has moved, and
then the event is cancelled. -/
def movedEvent : List Act :=
  [.press 1 7 true, .answer 0 true] ++ oneRow ++ [.update 0, .clock 3000] ++ oneRow ++
    [.press 1 7 false, .answer 0 true, .cancel 1]

theorem reminders_respect_moved :
    Along (step plainPython) (Sys.Careful plainPython) saturday movedEvent ∧
    ∃ s', exec (step plainPython) saturday movedEvent = some s' ∧ s'.mailbox.length = 2 ∧
      Respected s'.log := by
  have hcareful : Along (step plainPython) (Sys.Careful plainPython) saturday movedEvent := by
    decide
  obtain ⟨s', hrun, hmailed⟩ : ∃ s', exec (step plainPython) saturday movedEvent = some s' ∧
      s'.mailbox.length = 2 := by
    refine Runs.exec_shows ?_
    decide
  exact ⟨hcareful, s', hrun, hmailed, reminders_respect plainPython saturday_start hcareful hrun⟩

end LastSietch.Events.Reminders
