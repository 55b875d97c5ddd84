import LastSietch.Lib.Serial
import LastSietch.Lib.Sql

/-!
# The chat tables

`portal_chat_messages`, `portal_chat_mutes` and `portal_chat_reports`, with the statements that
`portal_chat_mod`, `portal_chat_channels`, `portal_transfer_relink` and `chat_retention` run on
them. A moment is a number of microseconds, as in a `datetime`; a stamp is the whole second that
`strftime` writes of it.
-/

namespace LastSietch.Chat

def microseconds (seconds : Int) : Int := seconds * 1000000

/-- `strftime("%Y-%m-%d %H:%M:%S")`. -/
def stamp (moment : Int) : Int := moment / 1000000

theorem stamp_le_stamp {a b : Int} (h : a ≤ b) : stamp a ≤ stamp b := by
  unfold stamp
  omega

inductive ByKind
  | admin | leader
  deriving DecidableEq, Repr

inductive DeletedBy
  | author
  | moderator (byKind : ByKind)
  deriving DecidableEq, Repr

inductive Kind
  | say | emote | roll
  deriving DecidableEq, Repr

/-- A row of `portal_chat_messages`. -/
structure Message where
  id : Nat
  channel : String
  accountId : Nat
  controllerId : Option Nat
  charName : String
  body : String
  kind : Kind
  clientKey : Option String
  createdUtc : Int
  deletedUtc : Option Int
  deletedBy : Option DeletedBy
  deriving DecidableEq, Repr

/-- A row of `portal_chat_mutes`; the channel `""` is everywhere. -/
structure Mute where
  id : Nat
  accountId : Nat
  channel : String
  byKind : ByKind
  byDiscord : String
  reason : Option String
  untilUtc : Option Int
  createdUtc : Int
  liftedUtc : Option Int
  liftedBy : Option String
  deriving DecidableEq, Repr

inductive ReportState
  | opened | dismissed | actioned
  deriving DecidableEq, Repr

/-- A row of `portal_chat_reports`. -/
structure Report where
  id : Nat
  messageId : Nat
  channel : String
  reporterAccountId : Nat
  reason : Option String
  createdUtc : Int
  state : ReportState
  resolvedBy : Option String
  resolvedUtc : Option Int
  deriving DecidableEq, Repr

abbrev Messages := Serial Message Message.id

abbrev Mutes := Serial Mute Mute.id

abbrev Reports := Serial Report Report.id

structure Tables where
  messages : Messages
  mutes : Mutes
  reports : Reports

def Tables.empty : Tables := ⟨Serial.empty, Serial.empty, Serial.empty⟩

/-! ## Mutes -/

namespace Mute

def isUnlifted (m : Mute) : Bool := m.liftedUtc = none

def pair (m : Mute) : Nat × String := (m.accountId, m.channel)

/-- `SET lifted_utc = ?, lifted_by = ?`. -/
def lift (at_ : Int) (byDiscord : String) (m : Mute) : Mute :=
  { m with liftedUtc := some at_, liftedBy := some byDiscord }

/-- `lifted_utc IS NULL AND (until_utc IS NULL OR until_utc > ?)`. -/
def inForce (now : Int) (m : Mute) : Bool :=
  m.isUnlifted && m.untilUtc.all (fun until_ => now < until_)

/-- `channel = '' OR channel = ?`. -/
def covers (channel : String) (m : Mute) : Bool := m.channel = "" || m.channel = channel

/-- `ORDER BY (until_utc IS NOT NULL), until_utc DESC, id DESC`. -/
def above (m n : Mute) : Bool :=
  match m.untilUtc, n.untilUtc with
  | none, none => n.id < m.id
  | none, some _ => true
  | some _, none => false
  | some u, some v => v < u || u = v && n.id < m.id

end Mute

structure MuteArgs where
  accountId : Nat
  channel : String
  byKind : ByKind
  byDiscord : String
  reason : Option String
  minutes : Option Nat
  deriving DecidableEq, Repr

namespace MuteArgs

/-- `if minutes`. -/
def untilUtc (args : MuteArgs) (moment : Int) : Option Int :=
  match args.minutes with
  | none | some 0 => none
  | some (minutes + 1) => some (stamp (moment + microseconds ((minutes + 1) * 60)))

def row (args : MuteArgs) (moment : Int) (id : Nat) : Mute :=
  { id, accountId := args.accountId, channel := args.channel, byKind := args.byKind,
    byDiscord := args.byDiscord, reason := args.reason, untilUtc := args.untilUtc moment,
    createdUtc := stamp moment, liftedUtc := none, liftedBy := none }

end MuteArgs

namespace Mutes

/-- `active_mute`; no channel asks for any. -/
def activeMute (accountId : Nat) (channel : Option String) (now : Int) (mutes : Mutes) :
    Option Mute :=
  pick Mute.above (mutes.rows.filter fun m =>
    m.accountId = accountId && m.inForce (stamp now) && channel.all (fun c => m.covers c))

def onPair (accountId : Nat) (channel : String) (m : Mute) : Bool :=
  m.accountId = accountId && m.channel = channel && m.isUnlifted

def blocking (args : MuteArgs) (mutes : Mutes) : Bool :=
  mutes.rows.any fun m => onPair args.accountId args.channel m && m.byKind = .admin

/-- `_insert_mute`: the new mute, or nothing when it is refused. -/
def insertMute (args : MuteArgs) (moment : Int) (mutes : Mutes) : Option (Mute × Mutes) :=
  if args.byKind ≠ .admin ∧ mutes.blocking args = true then
    none
  else
    let superseded := mutes.update (onPair args.accountId args.channel)
      (Mute.lift (stamp moment) args.byDiscord)
    some (args.row moment superseded.next, superseded.insert (args.row moment))

def liftMute (muteId : Nat) (byDiscord : String) (now : Int) (mutes : Mutes) : Mutes :=
  mutes.update (fun m => m.id = muteId && m.isUnlifted) (Mute.lift (stamp now) byDiscord)

/-- The first statement of `_carry_forward`. -/
def carryForward (old new : Nat) (mutes : Mutes) : Mutes :=
  mutes.copyRows (fun m => m.accountId = old && m.isUnlifted) (fun m id =>
    { m with id, accountId := new, liftedUtc := none, liftedBy := none })

end Mutes

/-! ## Messages and reports -/

/-- The columns of a message that `insert_message` is given. -/
structure MessageArgs where
  channel : String
  accountId : Nat
  controllerId : Option Nat
  charName : String
  body : String
  kind : Kind
  clientKey : Option String
  deriving DecidableEq, Repr

def MessageArgs.row (args : MessageArgs) (now : Int) (id : Nat) : Message :=
  { id, channel := args.channel, accountId := args.accountId, controllerId := args.controllerId,
    charName := args.charName, body := args.body, kind := args.kind,
    clientKey := args.clientKey.filter (fun key => key ≠ ""), createdUtc := stamp now,
    deletedUtc := none, deletedBy := none }

/-- The row that `message_by_client_key` finds. -/
def Messages.byClientKey? (accountId : Nat) (clientKey : String) (messages : Messages) :
    Option Message :=
  messages.rows.find? fun m => m.accountId = accountId && m.clientKey = some clientKey

/-- The insertion of `insert_message`: nothing where `idx_pcm_client_key` refuses it. -/
def Messages.insertMessage (args : MessageArgs) (now : Int) (messages : Messages) :
    Option (Message × Messages) :=
  let row := args.row now messages.next
  if row.clientKey.any (fun key => (messages.byClientKey? row.accountId key).isSome) then none
  else some (row, messages.insert (args.row now))

theorem Messages.insertMessage_spec {args : MessageArgs} {now : Int} {messages messages' : Messages}
    {row : Message} (h : messages.insertMessage args now = some (row, messages')) :
    row = args.row now messages.next ∧ messages' = messages.insert (args.row now) ∧
      ∀ key, row.clientKey = some key → messages.byClientKey? row.accountId key = none := by
  simp only [insertMessage] at h
  split at h
  · cases h
  · case isFalse hfree =>
    cases h
    refine ⟨rfl, rfl, fun key hkey => ?_⟩
    rw [hkey] at hfree
    simpa using hfree

def Messages.markDeleted (messageId : Nat) (byKind : DeletedBy) (at_ : Int) (messages : Messages) :
    Messages :=
  messages.update (fun m => m.id = messageId && m.deletedUtc = none)
    (fun m => { m with deletedUtc := some at_, deletedBy := some byKind })

/-- What `_mark_deleted` returns. -/
def Messages.deletes (messageId : Nat) (messages : Messages) : Bool :=
  messages.rows.any fun m => m.id = messageId && m.deletedUtc = none

namespace Reports

def insertReport (messageId : Nat) (channel : String) (reporterAccountId : Nat)
    (reason : Option String) (now : Int) (reports : Reports) : Reports :=
  if ∃ r ∈ reports, r.messageId = messageId ∧ r.reporterAccountId = reporterAccountId then
    reports
  else
    reports.insert fun id =>
      { id, messageId, channel, reporterAccountId, reason, createdUtc := stamp now,
        state := .opened, resolvedBy := none, resolvedUtc := none }

/-- The `UPDATE ... WHERE id = ? AND state = 'open'` of `apply_resolution`. -/
def close (reportId : Nat) (state : ReportState) (byDiscord : String) (at_ : Int)
    (reports : Reports) : Reports :=
  reports.update (fun r => r.id = reportId && r.state = .opened)
    (fun r => { r with state, resolvedBy := some byDiscord, resolvedUtc := some at_ })

def isOpen (reportId : Nat) (reports : Reports) : Bool :=
  reports.rows.any fun r => r.id = reportId && r.state = .opened

end Reports

/-! ## `apply_resolution` -/

/-- `RESOLVE_ACTIONS`. -/
inductive ResolveAction
  | dismiss | delete | deleteAndMute
  deriving DecidableEq, Repr

structure Resolution where
  reportId : Nat
  action : ResolveAction
  byKind : ByKind
  byDiscord : String
  messageId : Nat
  targetAccountId : Option Nat
  channel : String
  reason : Option String
  minutes : Option Nat
  deriving DecidableEq, Repr

/-- What `apply_resolution` returns; `typeError` is the `int(None)` of a mute without a target. -/
inductive Outcome
  | already | forbidden | typeError
  | done (deleted : Bool) (muteId : Option Nat)
  deriving DecidableEq, Repr

namespace Resolution

def state (r : Resolution) : ReportState :=
  match r.action with
  | .dismiss => .dismissed
  | .delete | .deleteAndMute => .actioned

def muteArgs (r : Resolution) (accountId : Nat) : MuteArgs :=
  ⟨accountId, r.channel, r.byKind, r.byDiscord, r.reason, r.minutes⟩

end Resolution

namespace Tables

/-- The tables after the first two statements of `apply_resolution`. -/
def resolved (r : Resolution) (moment : Int) (t : Tables) : Tables :=
  { t with
    reports := t.reports.close r.reportId r.state r.byDiscord (stamp moment)
    messages := match r.action with
      | .dismiss => t.messages
      | .delete | .deleteAndMute =>
        t.messages.markDeleted r.messageId (.moderator r.byKind) (stamp moment) }

/-- `apply_resolution`. What is not `done` is rolled back. -/
def applyResolution (r : Resolution) (moment : Int) (t : Tables) : Outcome × Tables :=
  if t.reports.isOpen r.reportId then
    match r.action with
    | .dismiss => (.done false none, t.resolved r moment)
    | .delete => (.done (t.messages.deletes r.messageId) none, t.resolved r moment)
    | .deleteAndMute =>
      match r.targetAccountId with
      | none => (.typeError, t)
      | some accountId =>
        match t.mutes.insertMute (r.muteArgs accountId) moment with
        | none => (.forbidden, t)
        | some (mute, mutes) =>
          (.done (t.messages.deletes r.messageId) (some mute.id), { t.resolved r moment with mutes })
  else
    (.already, t)

def messageDays : Int := 30

def reportDays : Int := 90

def muteDays : Int := 30

def cutoff (moment : Int) (days : Int) : Int := stamp (moment - microseconds (days * 86400))

/-- `run_once`: the statements see what those before them have left. -/
def runOnce (moment : Int) (t : Tables) : Tables :=
  let messageCut := cutoff moment messageDays
  let reportCut := cutoff moment reportDays
  let muteCut := cutoff moment muteDays
  { messages := t.messages.filter fun m => !(m.createdUtc < messageCut)
    reports := (t.reports.filter fun r => !(t.messages.rows.any fun m =>
        m.id = r.messageId && m.createdUtc < messageCut)).filter fun r =>
          !(r.resolvedUtc.any (fun at_ => at_ < reportCut))
    mutes := t.mutes.filter fun m => !(m.liftedUtc.any (fun at_ => at_ < muteCut) ||
      m.isUnlifted && m.untilUtc.any (fun at_ => at_ < muteCut)) }

end Tables

inductive Txn
  | mute (args : MuteArgs) (moment : Int)
  | lift (muteId : Nat) (byDiscord : String) (now : Int)
  | delete (messageId : Nat) (byKind : DeletedBy) (now : Int)
  | report (messageId : Nat) (channel : String) (reporterAccountId : Nat) (reason : Option String)
      (now : Int)
  | resolve (r : Resolution) (moment : Int)
  | sweep (moment : Int)
  deriving DecidableEq, Repr

def Txn.run (t : Tables) : Txn → Tables
  | mute args moment =>
    match t.mutes.insertMute args moment with
    | none => t
    | some (_, mutes) => { t with mutes }
  | lift muteId byDiscord now => { t with mutes := t.mutes.liftMute muteId byDiscord now }
  | delete messageId byKind now =>
    { t with messages := t.messages.markDeleted messageId byKind (stamp now) }
  | report messageId channel reporter reason now =>
    { t with reports := t.reports.insertReport messageId channel reporter reason now }
  | resolve r moment => (t.applyResolution r moment).2
  | sweep moment => t.runOnce moment

inductive Mutes.Change (mutes : Mutes) : Mutes → Prop
  | none : Change mutes mutes
  | lift (muteId : Nat) (byDiscord : String) (now : Int) :
      Change mutes (mutes.liftMute muteId byDiscord now)
  | sweep (p : Mute → Bool) : Change mutes (mutes.filter p)
  | set {args : MuteArgs} {moment : Int} {m : Mute} {mutes' : Mutes}
      (h : mutes.insertMute args moment = some (m, mutes')) : Change mutes mutes'

theorem Tables.applyResolution_change (r : Resolution) (moment : Int) (t : Tables) :
    t.mutes.Change (t.applyResolution r moment).2.mutes := by
  unfold Tables.applyResolution
  split
  · split
    · exact .none
    · exact .none
    · split
      · exact .none
      · split
        · exact .none
        · exact .set ‹_›
  · exact .none

theorem Txn.run_change (t : Tables) (x : Txn) : t.mutes.Change (x.run t).mutes := by
  cases x with
  | mute args moment =>
    simp only [Txn.run]
    split
    · exact .none
    · exact .set ‹_›
  | lift muteId byDiscord now => exact .lift muteId byDiscord now
  | delete messageId byKind now => exact .none
  | report messageId channel reporter reason now => exact .none
  | resolve r moment => exact t.applyResolution_change r moment
  | sweep moment => exact .sweep _

theorem Mutes.insertMute_spec {args : MuteArgs} {moment : Int} {m : Mute} {mutes mutes' : Mutes}
    (h : mutes.insertMute args moment = some (m, mutes')) :
    (args.byKind ≠ .admin → mutes.blocking args = false) ∧ m = args.row moment mutes.next ∧
      mutes' = (mutes.update (onPair args.accountId args.channel)
        (Mute.lift (stamp moment) args.byDiscord)).insert (args.row moment) := by
  unfold insertMute at h
  by_cases hrefused : args.byKind ≠ .admin ∧ mutes.blocking args = true
  · rw [if_pos hrefused] at h
    cases h
  · rw [if_neg hrefused] at h
    cases h
    exact ⟨fun hleader => by simpa [hleader] using hrefused, rfl, rfl⟩

end LastSietch.Chat
