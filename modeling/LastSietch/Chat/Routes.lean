import LastSietch.Chat.Tables
import LastSietch.Lib.Runs

/-!
# The moderation routes

The routes of `portal_chat_mod` as the steps of requests. A request reads the row that it is about,
then asks `is_admin` and `moderates` who the caller is, and acts in one transaction; between the
read and the transaction other requests run. Every answer of `is_admin` and `moderates` is an
argument, since the roles can change between two questions.

* `Sys.Known`: a mute that a request has read was set by whom the request thinks.
-/

namespace LastSietch.Chat

open Runs (exec exec_invariant')

/-- What `is_admin` and `moderates` answer about the caller. -/
structure Caller where
  isAdmin : Bool
  moderates : String → Bool

inductive Token
  | badRequest | forbidden | unknownPlayer | notFound | muteNotFound | reportNotFound
  deriving DecidableEq, Repr

inductive Answer
  | refused (token : Token)
  | already
  | muted (muteId : Nat)
  | lifted
  | deleted (byKind : DeletedBy)
  | resolved (byKind : ByKind) (deleted : Bool) (muteId : Option Nat)
  | failed
  | none
  deriving DecidableEq, Repr

def Answer.actor : Answer → Option DeletedBy
  | .deleted byKind => some byKind
  | .resolved byKind _ _ => some (.moderator byKind)
  | _ => Option.none

/-! ## The routes -/

def muteScope (caller : Caller) (channel : String) : Except Token ByKind :=
  if caller.isAdmin then
    if channel ≠ "" ∧ caller.moderates channel = false then .error .badRequest else .ok .admin
  else if channel = "" then
    .error .forbidden
  else if "guild:".toList.isPrefixOf channel.toList = false ∨ caller.moderates channel = false then
    .error .forbidden
  else
    .ok .leader

/-- The body of a mute: what `mute_minutes`, `clean_reason` and `account_for_char_name` make of it,
and whether the target is an admin. -/
structure MuteBody where
  channel : String
  validChannel : Bool
  minutes : Option (Option Nat)
  reason : Option (Option String)
  target : Option Nat
  targetIsAdmin : Bool
  deriving DecidableEq, Repr

/-- `portal_chat_mute` up to its transaction. -/
def muteArgs (caller : Caller) (discordId : String) (body : MuteBody) : Except Token MuteArgs := do
  require (body.validChannel = true) .badRequest
  let byKind ← muteScope caller body.channel
  let minutes ← orRaise body.minutes .badRequest
  let reason ← orRaise body.reason .badRequest
  let accountId ← orRaise body.target .unknownPlayer
  require (body.targetIsAdmin = false) .forbidden
  pure ⟨accountId, body.channel, byKind, discordId, reason, minutes⟩

namespace Tables

def portalChatMute (caller : Caller) (discordId : String) (body : MuteBody) (moment : Int)
    (t : Tables) : Answer × Tables :=
  match muteArgs caller discordId body with
  | .error token => (.refused token, t)
  | .ok args =>
    match t.mutes.insertMute args moment with
    | none => (.refused .forbidden, t)
    | some (mute, mutes) => (.muted mute.id, { t with mutes })

/-- `portal_chat_unmute` from the checks of the row on. -/
def portalChatUnmute (caller : Caller) (discordId : String) (row : Mute) (now : Int) (t : Tables) :
    Answer × Tables :=
  if caller.isAdmin = false ∧
      ((row.channel = "" ∨ caller.moderates row.channel = false) ∨ row.byKind ≠ .leader) then
    (.refused .forbidden, t)
  else
    (if t.mutes.rows.any (fun m => m.id = row.id && m.isUnlifted) then .lifted else .already,
      { t with mutes := t.mutes.liftMute row.id discordId now })

end Tables

def authorDeleteSeconds : Int := 300

def deleteKind (caller : Caller) (accountId : Nat) (channel : String) (row : Message) (now : Int) :
    Option DeletedBy :=
  if caller.isAdmin then some (.moderator .admin)
  else if caller.moderates channel then some (.moderator .leader)
  else if row.accountId ≠ accountId then none
  else if microseconds authorDeleteSeconds < now - microseconds row.createdUtc then none
  else some .author

structure ResolveBody where
  action : ResolveAction
  minutes : Option (Option Nat)
  reason : Option (Option String)
  targetIsAdmin : Bool
  deriving DecidableEq, Repr

structure Callers where
  gate : Caller
  kind : Caller
  scope : Caller

def Callers.byKind (callers : Callers) : ByKind := if callers.kind.isAdmin then .admin else .leader

/-- `portal_chat_resolve` up to its transaction. -/
def resolution (callers : Callers) (discordId : String) (body : ResolveBody) (report : Report)
    (message : Option Message) : Except Token Resolution := do
  require (callers.gate.isAdmin = true ∨ callers.gate.moderates report.channel = true) .forbidden
  let r : Resolution :=
    { reportId := report.id, action := body.action, byKind := callers.byKind, byDiscord := discordId,
      messageId := report.messageId, targetAccountId := message.map (·.accountId),
      channel := report.channel, reason := none, minutes := none }
  match body.action with
  | .dismiss => pure r
  | .delete => do
    require (message.isSome = true) .notFound
    pure r
  | .deleteAndMute => do
    let minutes ← orRaise body.minutes .badRequest
    let reason ← orRaise body.reason .badRequest
    let _scope ← muteScope callers.scope report.channel
    require (message.isSome = true) .notFound
    require (body.targetIsAdmin = false) .forbidden
    pure { r with reason, minutes }

def Tables.portalChatResolve (callers : Callers) (discordId : String) (body : ResolveBody)
    (report : Report) (message : Option Message) (moment : Int) (t : Tables) : Answer × Tables :=
  match resolution callers discordId body report message with
  | .error token => (.refused token, t)
  | .ok r =>
    match t.applyResolution r moment with
    | (.already, t) => (.already, t)
    | (.forbidden, t) => (.refused .forbidden, t)
    | (.typeError, t) => (.failed, t)
    | (.done deleted muteId, t) => (.resolved r.byKind deleted muteId, t)

/-! ## The system -/

inductive Request
  | unmute (row : Mute)
  | delete (row : Message)
  | reported (report : Report)
  | resolve (report : Report) (message : Option Message)
  | ended
  deriving DecidableEq, Repr

structure Sys where
  tables : Tables
  requests : List Request

def Sys.start (t : Tables) : Sys := ⟨t, []⟩

inductive Act
  | mute (caller : Caller) (discordId : String) (body : MuteBody) (moment : Int)
  | readMute (muteId : Nat)
  | unmute (i : Nat) (caller : Caller) (discordId : String) (now : Int)
  | readMessage (messageId : Nat) (channel : String)
  | delete (i : Nat) (caller : Caller) (accountId : Nat) (now later : Int)
  | readReport (reportId : Nat)
  | readReported (i : Nat)
  | resolve (i : Nat) (callers : Callers) (discordId : String) (body : ResolveBody) (moment : Int)
  | post (args : MessageArgs) (now : Int)
  | report (messageId : Nat) (channel : String) (reporterAccountId : Nat) (reason : Option String)
      (now : Int)
  | sweep (moment : Int)
  | relink (old new : Nat)

def Act.traffic (t : Tables) : Act → Tables
  | post args now =>
    match t.messages.insertMessage args now with
    | none => t
    | some (_, messages) => { t with messages }
  | report messageId channel reporter reason now =>
    { t with reports := t.reports.insertReport messageId channel reporter reason now }
  | sweep moment => t.runOnce moment
  | relink old new => { t with mutes := t.mutes.carryForward old new }
  | _ => t

namespace Sys

def read (s : Sys) (request : Option Request) (token : Token) : Answer × Sys :=
  match request with
  | none => (.refused token, s)
  | some request => (.none, { s with requests := s.requests ++ [request] })

def finish (s : Sys) (i : Nat) (r : Answer × Tables) : Answer × Sys :=
  (r.1, ⟨r.2, s.requests.set i .ended⟩)

def serve (s : Sys) : Act → Option (Answer × Sys)
  | .mute caller discordId body moment =>
    let r := s.tables.portalChatMute caller discordId body moment
    some (r.1, { s with tables := r.2 })
  | .readMute muteId =>
    some (s.read ((s.tables.mutes.byId? muteId).map .unmute) .muteNotFound)
  | .unmute i caller discordId now =>
    match s.requests[i]? with
    | some (.unmute row) => some (s.finish i (s.tables.portalChatUnmute caller discordId row now))
    | _ => none
  | .readMessage messageId channel =>
    some (s.read (((s.tables.messages.byId? messageId).filter (fun m => m.channel = channel)).map
      .delete) .notFound)
  | .delete i caller accountId now later =>
    match s.requests[i]? with
    | some (.delete row) =>
      match deleteKind caller accountId row.channel row now with
      | none => some (s.finish i (.refused .forbidden, s.tables))
      | some byKind =>
        if s.tables.messages.deletes row.id then
          some (s.finish i (.deleted byKind, { s.tables with
            messages := s.tables.messages.markDeleted row.id byKind (stamp later) }))
        else
          some (s.finish i (.already, s.tables))
    | _ => none
  | .readReport reportId =>
    some (s.read ((s.tables.reports.byId? reportId).map .reported) .reportNotFound)
  | .readReported i =>
    match s.requests[i]? with
    | some (.reported report) =>
      let message := s.tables.messages.byId? report.messageId
      some (.none, { s with requests := s.requests.set i (.resolve report message) })
    | _ => none
  | .resolve i callers discordId body moment =>
    match s.requests[i]? with
    | some (.resolve report message) =>
      some (s.finish i (s.tables.portalChatResolve callers discordId body report message moment))
    | _ => none
  | a => some (.none, { s with tables := a.traffic s.tables })

def step (s : Sys) (a : Act) : Option Sys := (s.serve a).map Prod.snd

end Sys

/-! ## What stays -/

def Report.Later (r r' : Report) : Prop := r' = r ∨ r.state = .opened ∧ r'.state ≠ .opened

def Message.Later (actor : Option DeletedBy) (m m' : Message) : Prop :=
  m' = m ∨ m.deletedUtc = none ∧ m'.deletedUtc ≠ none ∧ m'.deletedBy = actor

def Mute.SameKind (m m' : Mute) : Prop := m'.byKind = m.byKind

theorem Report.Later.refl (r : Report) : r.Later r := Or.inl rfl

theorem Message.Later.refl {actor : Option DeletedBy} (m : Message) : m.Later actor m := Or.inl rfl

theorem Mute.SameKind.refl (m : Mute) : m.SameKind m := rfl

theorem Mute.SameKind.trans (m n o : Mute) (h : m.SameKind n) (h' : n.SameKind o) : m.SameKind o :=
  Eq.trans h' h

/-- What every step does to the tables; `actor` is whom it records as having deleted. -/
structure Tables.Advance (actor : Option DeletedBy) (t t' : Tables) : Prop where
  reports : t.reports.Follows Report.Later t'.reports
  messages : t.messages.Follows (Message.Later actor) t'.messages
  mutes : t.mutes.Follows Mute.SameKind t'.mutes

/-- The unlifted mutes of admins are there as they were, with no unlifted mute beside them that was
not there. -/
def Tables.KeepsAdminMutes (t t' : Tables) : Prop :=
  ∀ m ∈ t.mutes, m.byKind = .admin → m.isUnlifted = true →
    m ∈ t'.mutes ∧ ∀ n ∈ t'.mutes, n.pair = m.pair → n.isUnlifted = true → n ∈ t.mutes

theorem Tables.KeepsAdminMutes.of_eq {t t' : Tables} (h : t'.mutes = t.mutes) :
    t.KeepsAdminMutes t' := by
  unfold KeepsAdminMutes
  rw [h]
  exact fun m hm _ _ => ⟨hm, fun n hn _ _ => hn⟩

section Transactions

variable {t t' : Tables} {mutes : Mutes} {m : Mute} {args : MuteArgs} {moment : Int}
  {actor : Option DeletedBy}

theorem Tables.Advance.refl (t : Tables) : t.Advance actor t :=
  ⟨.refl Report.Later.refl _, .refl Message.Later.refl _, .refl Mute.SameKind.refl _⟩

theorem lift_follows (t : Mutes) (p : Mute → Bool) (at_ : Int) (byDiscord : String) :
    t.Follows Mute.SameKind (t.update p (Mute.lift at_ byDiscord)) :=
  .update t Mute.SameKind.refl (fun _ _ => rfl)

theorem insertMute_follows {t : Mutes} (h : t.insertMute args moment = some (m, mutes)) :
    t.Follows Mute.SameKind mutes := by
  obtain ⟨-, -, rfl⟩ := Mutes.insertMute_spec h
  exact (lift_follows t _ _ _).trans Mute.SameKind.trans (.insert Mute.SameKind.refl _)

theorem markDeleted_follows (t : Messages) (messageId : Nat) (byKind : DeletedBy) (at_ : Int) :
    t.Follows (Message.Later (some byKind)) (t.markDeleted messageId byKind at_) := by
  refine .update t Message.Later.refl (fun m hm => Or.inr ?_)
  simp only [Bool.and_eq_true, decide_eq_true_eq] at hm
  exact ⟨hm.2, Option.some_ne_none _, rfl⟩

theorem close_follows (t : Reports) (r : Resolution) (at_ : Int) :
    t.Follows Report.Later (t.close r.reportId r.state r.byDiscord at_) := by
  refine .update t Report.Later.refl (fun q hq => Or.inr ?_)
  simp only [Bool.and_eq_true, decide_eq_true_eq] at hq
  refine ⟨hq.2, ?_⟩
  unfold Resolution.state
  split <;> simp

theorem resolved_advance (r : Resolution) (moment : Int) (t : Tables) :
    t.Advance (some (.moderator r.byKind)) (t.resolved r moment) where
  reports := close_follows t.reports r (stamp moment)
  messages := by
    unfold Tables.resolved
    split
    · exact .refl Message.Later.refl _
    all_goals exact markDeleted_follows t.messages _ _ _
  mutes := .refl Mute.SameKind.refl _

theorem traffic_advance (a : Act) (t : Tables) : t.Advance actor (a.traffic t) := by
  have hrefl : t.Advance actor t := .refl t
  cases a with
  | post args now =>
    simp only [Act.traffic]
    split
    · exact hrefl
    · case h_2 messages hpost =>
      unfold Messages.insertMessage at hpost
      simp only at hpost
      split at hpost
      · cases hpost
      · cases hpost
        have hposted : t.messages.Follows (Message.Later actor) (t.messages.insert (args.row now)) :=
          .insert Message.Later.refl _
        exact ⟨hrefl.reports, hposted, hrefl.mutes⟩
  | report messageId channel reporter reason now =>
    refine ⟨?_, hrefl.messages, hrefl.mutes⟩
    simp only [Act.traffic, Reports.insertReport]
    split
    · exact hrefl.reports
    · exact .insert Report.Later.refl _
  | sweep moment =>
    refine ⟨?_, .filter Message.Later.refl _ _, .filter Mute.SameKind.refl _ _⟩
    have hreports : ∀ (reports : Reports) (p q : Report → Bool),
        reports.Follows Report.Later ((reports.filter p).filter q) := fun reports p q =>
      ⟨Nat.le_refl _, fun r hr _ =>
        ⟨r, (Serial.mem_filter.mp (Serial.mem_filter.mp hr).1).1, rfl, Or.inl rfl⟩⟩
    exact hreports _ _ _
  | relink old new => exact ⟨hrefl.reports, hrefl.messages, .copyRows Mute.SameKind.refl _⟩
  | _ => exact hrefl

end Transactions

/-! ## The routes -/

section Routes

variable {t t' : Tables} {answer : Answer} {discordId : String} {moment : Int}

theorem muteScope_byKind {caller : Caller} {channel : String} {byKind : ByKind}
    (h : muteScope caller channel = .ok byKind) :
    byKind = if caller.isAdmin then .admin else .leader := by
  unfold muteScope at h
  by_cases hadmin : caller.isAdmin = true
  · rw [if_pos hadmin] at h ⊢
    split at h
    · cases h
    · exact (Except.ok.inj h).symm
  · rw [if_neg hadmin] at h ⊢
    split at h
    · cases h
    · split at h
      · cases h
      · exact (Except.ok.inj h).symm

theorem muteArgs_byKind {caller : Caller} {body : MuteBody} {args : MuteArgs}
    (h : muteArgs caller discordId body = .ok args) :
    args.byKind = if caller.isAdmin then .admin else .leader := by
  obtain ⟨_, -, h⟩ := bind_eq_ok.mp h
  obtain ⟨byKind, hscope, h⟩ := bind_eq_ok.mp h
  obtain ⟨minutes, -, h⟩ := bind_eq_ok.mp h
  obtain ⟨reason, -, h⟩ := bind_eq_ok.mp h
  obtain ⟨accountId, -, h⟩ := bind_eq_ok.mp h
  obtain ⟨_, -, h⟩ := bind_eq_ok.mp h
  cases pure_eq_ok.mp h
  exact muteScope_byKind hscope

theorem insertMute_keeps {args : MuteArgs} {m : Mute} {mutes : Mutes}
    (h : t.mutes.insertMute args moment = some (m, mutes)) (hleader : args.byKind ≠ .admin) :
    t.KeepsAdminMutes { t' with mutes } := by
  obtain ⟨hfree, -, hmutes⟩ := Mutes.insertMute_spec h
  intro a ha hadmin hunlifted
  have hapart : Mutes.onPair args.accountId args.channel a = false := by
    have hnone := List.any_eq_false.mp (hfree hleader) a ha
    simpa [hadmin] using hnone
  have hpair : a.pair ≠ (args.accountId, args.channel) := by
    intro hpair
    obtain ⟨haccount, hchannel⟩ := Prod.mk.inj hpair
    simp [Mutes.onPair, haccount, hchannel, hunlifted] at hapart
  show a ∈ mutes ∧ ∀ n ∈ mutes, _
  rw [hmutes]
  refine ⟨Serial.mem_insert.mpr (Or.inr (Serial.mem_update_of_not ha hapart)), ?_⟩
  intro n hn hsame hn'
  rcases Serial.mem_insert.mp hn with rfl | hn
  · exact absurd hsame.symm hpair
  · obtain ⟨q, hq, rfl⟩ := Serial.mem_update.mp hn
    split at hn'
    · simp [Mute.isUnlifted, Mute.lift] at hn'
    · case isFalse hpicked =>
      rw [if_neg hpicked]
      exact hq

theorem portalChatMute_spec (caller : Caller) (body : MuteBody) (t : Tables) :
    let r := t.portalChatMute caller discordId body moment
    t.Advance r.1.actor r.2 ∧ (caller.isAdmin = false → t.KeepsAdminMutes r.2) := by
  intro r
  unfold r Tables.portalChatMute
  split
  · exact ⟨.refl t, fun _ => .of_eq rfl⟩
  · case h_2 args hargs =>
    split
    · exact ⟨.refl t, fun _ => .of_eq rfl⟩
    · case h_2 mute mutes hset =>
      have hrefl := @Tables.Advance.refl (Answer.muted mute.id).actor t
      refine ⟨⟨hrefl.reports, hrefl.messages, insertMute_follows hset⟩, fun hleader => ?_⟩
      refine insertMute_keeps hset ?_
      rw [muteArgs_byKind hargs, hleader]
      decide

theorem portalChatUnmute_spec (caller : Caller) (row : Mute) (now : Int) (t : Tables)
    (hrow : ∀ m ∈ t.mutes, m.id = row.id → m.byKind = row.byKind) :
    let r := t.portalChatUnmute caller discordId row now
    t.Advance r.1.actor r.2 ∧ (caller.isAdmin = false → t.KeepsAdminMutes r.2) := by
  intro r
  unfold r Tables.portalChatUnmute
  by_cases hrefused : caller.isAdmin = false ∧
      ((row.channel = "" ∨ caller.moderates row.channel = false) ∨ row.byKind ≠ .leader)
  · rw [if_pos hrefused]
    exact ⟨.refl t, fun _ => .of_eq rfl⟩
  · rw [if_neg hrefused]
    refine ⟨⟨.refl Report.Later.refl _, .refl Message.Later.refl _, lift_follows t.mutes _ _ _⟩,
      fun hleader => ?_⟩
    have hkind : row.byKind = .leader := by
      by_contra hne
      exact hrefused ⟨hleader, Or.inr hne⟩
    intro a ha hadmin hunlifted
    have hapart : (a.id = row.id && a.isUnlifted) = false := by
      by_cases hid : a.id = row.id
      · have := (hrow a ha hid).symm.trans hadmin
        rw [hkind] at this
        cases this
      · simp [hid]
    show a ∈ t.mutes.liftMute row.id discordId now ∧ ∀ n ∈ t.mutes.liftMute row.id discordId now, _
    unfold Mutes.liftMute
    refine ⟨Serial.mem_update_of_not ha hapart, fun n hn _ hn' => ?_⟩
    obtain ⟨q, hq, rfl⟩ := Serial.mem_update.mp hn
    split at hn'
    · simp [Mute.isUnlifted, Mute.lift] at hn'
    · case isFalse hpicked =>
      rw [if_neg hpicked]
      exact hq

theorem resolution_byKind {callers : Callers} {body : ResolveBody} {report : Report}
    {message : Option Message} {r : Resolution}
    (h : resolution callers discordId body report message = .ok r) : r.byKind = callers.byKind := by
  obtain ⟨_, -, h⟩ := bind_eq_ok.mp h
  simp only at h
  split at h
  · cases pure_eq_ok.mp h
    rfl
  · obtain ⟨_, -, h⟩ := bind_eq_ok.mp h
    cases pure_eq_ok.mp h
    rfl
  · obtain ⟨minutes, -, h⟩ := bind_eq_ok.mp h
    obtain ⟨reason, -, h⟩ := bind_eq_ok.mp h
    obtain ⟨_, -, h⟩ := bind_eq_ok.mp h
    obtain ⟨_, -, h⟩ := bind_eq_ok.mp h
    obtain ⟨_, -, h⟩ := bind_eq_ok.mp h
    cases pure_eq_ok.mp h
    rfl

theorem applyResolution_spec (r : Resolution) (t : Tables) :
    let p := t.applyResolution r moment
    ((∀ deleted muteId, p.1 ≠ .done deleted muteId) → p.2 = t) ∧
      t.Advance (some (.moderator r.byKind)) p.2 ∧
      (r.byKind ≠ .admin → t.KeepsAdminMutes p.2) := by
  intro p
  have hresolved := resolved_advance r moment t
  unfold p Tables.applyResolution
  split
  · split
    · exact ⟨fun h => absurd rfl (h _ _), hresolved, fun _ => .of_eq rfl⟩
    · exact ⟨fun h => absurd rfl (h _ _), hresolved, fun _ => .of_eq rfl⟩
    · split
      · exact ⟨fun _ => rfl, .refl t, fun _ => .of_eq rfl⟩
      · split
        · exact ⟨fun _ => rfl, .refl t, fun _ => .of_eq rfl⟩
        · case h_2 hset =>
          refine ⟨fun h => absurd rfl (h _ _), ?_, fun hleader => insertMute_keeps hset hleader⟩
          exact ⟨hresolved.reports, hresolved.messages, insertMute_follows hset⟩
  · exact ⟨fun _ => rfl, .refl t, fun _ => .of_eq rfl⟩

def Answer.isResolved : Answer → Bool
  | .resolved _ _ _ => true
  | _ => false

theorem portalChatResolve_spec (callers : Callers) (body : ResolveBody) (report : Report)
    (message : Option Message) (t : Tables) :
    let p := t.portalChatResolve callers discordId body report message moment
    (p.1.isResolved = false → p.2 = t) ∧ t.Advance p.1.actor p.2 ∧
      (callers.kind.isAdmin = false → t.KeepsAdminMutes p.2) := by
  intro p
  unfold p Tables.portalChatResolve
  split
  · exact ⟨fun _ => rfl, .refl t, fun _ => .of_eq rfl⟩
  · case h_2 r hr =>
    have hspec := @applyResolution_spec moment r t
    have hkind := resolution_byKind hr
    rcases happly : t.applyResolution r moment with ⟨outcome, t'⟩
    rw [happly] at hspec
    obtain ⟨hrefused, hadvance, hkeeps⟩ := hspec
    have hleader : callers.kind.isAdmin = false → r.byKind ≠ .admin := by
      intro hfalse
      rw [hkind, Callers.byKind, hfalse]
      decide
    cases outcome with
    | done deleted muteId =>
      exact ⟨fun h => absurd h (by simp [Answer.isResolved]), hadvance, fun h => hkeeps (hleader h)⟩
    | _ =>
      cases hrefused (fun _ _ h => by cases h)
      exact ⟨fun _ => rfl, .refl _, fun _ => .of_eq rfl⟩

end Routes

/-! ## Runs -/

namespace Sys

def Known (s : Sys) : Prop :=
  ∀ row, Request.unmute row ∈ s.requests → row.id < s.tables.mutes.next ∧
    ∀ m ∈ s.tables.mutes, m.id = row.id → m.byKind = row.byKind

def ByLeader : Act → Prop
  | .mute caller _ _ _ | .unmute _ caller _ _ | .delete _ caller _ _ _ => caller.isAdmin = false
  | .resolve _ callers _ _ _ => callers.kind.isAdmin = false
  | _ => False

def IsResolve : Act → Prop
  | .resolve _ _ _ _ _ => True
  | _ => False

structure Step (a : Act) (answer : Answer) (t t' : Tables) : Prop where
  advance : t.Advance answer.actor t'
  leader : ByLeader a → t.KeepsAdminMutes t'
  refused : IsResolve a → answer.isResolved = false → t' = t

variable {s s' s'' : Sys} {a : Act} {answer : Answer}

theorem Step.same {t : Tables} : Step a answer t t := ⟨.refl t, fun _ => .of_eq rfl, fun _ _ => rfl⟩

theorem Known.of_follows (h : s.Known)
    (hmutes : s.tables.mutes.Follows Mute.SameKind s'.tables.mutes)
    (hrequests : ∀ row, Request.unmute row ∈ s'.requests →
      Request.unmute row ∈ s.requests ∨ row ∈ s'.tables.mutes) : s'.Known := by
  intro row hrow
  rcases hrequests row hrow with hrow | hrow
  · obtain ⟨hlt, hkind⟩ := h row hrow
    refine ⟨Nat.lt_of_lt_of_le hlt hmutes.next, fun m hm hid => ?_⟩
    obtain ⟨n, hn, hnid, hsame⟩ := hmutes.rows m hm (hid ▸ hlt)
    exact Eq.trans hsame (hkind n hn (hnid.trans hid))
  · exact ⟨Serial.id_lt_next hrow, fun m hm hid => by rw [Serial.eq_of_id_eq hm hrow hid]⟩

theorem mem_set_ended {requests : List Request} {i : Nat} {row : Mute}
    (h : Request.unmute row ∈ requests.set i .ended) : Request.unmute row ∈ requests := by
  rcases List.mem_or_eq_of_mem_set h with h | h
  · exact h
  · cases h

theorem read_spec (h : s.Known) {request : Option Request} {token : Token}
    (hrequest : ∀ row, request = some (.unmute row) → row ∈ s.tables.mutes)
    (hread : s.read request token = (answer, s')) :
    Step a answer s.tables s'.tables ∧ s'.Known := by
  unfold read at hread
  cases request with
  | none =>
    cases hread
    exact ⟨.same, h⟩
  | some request =>
    cases hread
    refine ⟨.same, h.of_follows (.refl Mute.SameKind.refl _) (fun row hrow => ?_)⟩
    rcases List.mem_append.mp hrow with hrow | hrow
    · exact Or.inl hrow
    · cases List.mem_singleton.mp hrow
      exact Or.inr (hrequest row rfl)

theorem finish_spec (h : s.Known) {i : Nat} {r : Answer × Tables}
    (hstep : Step a r.1 s.tables r.2) (hfinish : s.finish i r = (answer, s')) :
    Step a answer s.tables s'.tables ∧ s'.Known := by
  cases hfinish
  exact ⟨hstep, h.of_follows hstep.advance.mutes (fun row hrow => Or.inl (mem_set_ended hrow))⟩

theorem traffic_spec (h : s.Known) (hleader : ¬ ByLeader a) (hresolve : ¬ IsResolve a) :
    Step a .none s.tables (a.traffic s.tables) ∧
      Sys.Known { s with tables := a.traffic s.tables } := by
  have hadvance := @traffic_advance Answer.none.actor a s.tables
  exact ⟨⟨hadvance, fun h => absurd h hleader, fun h => absurd h hresolve⟩,
    h.of_follows hadvance.mutes (fun row hrow => Or.inl hrow)⟩

theorem serve_spec (h : s.Known) (hserve : s.serve a = some (answer, s')) :
    Step a answer s.tables s'.tables ∧ s'.Known := by
  cases a with
  | mute caller discordId body moment =>
    cases Option.some.inj hserve
    obtain ⟨hadvance, hleader⟩ := @portalChatMute_spec discordId moment caller body s.tables
    exact ⟨⟨hadvance, hleader, fun h => h.elim⟩,
      h.of_follows hadvance.mutes (fun row hrow => Or.inl hrow)⟩
  | readMute muteId =>
    refine read_spec h (fun row hrow => ?_) (Option.some.inj hserve)
    obtain ⟨m, hm, hmrow⟩ := Option.map_eq_some_iff.mp hrow
    cases hmrow
    exact (Serial.byId?_eq_some.mp hm).1
  | unmute i caller discordId now =>
    simp only [serve] at hserve
    split at hserve
    · case h_1 row hi =>
      obtain ⟨hadvance, hleader⟩ := @portalChatUnmute_spec discordId caller row now s.tables
        (h row (List.mem_of_getElem? hi)).2
      exact finish_spec h ⟨hadvance, hleader, fun h => h.elim⟩ (Option.some.inj hserve)
    · cases hserve
  | readMessage messageId channel =>
    refine read_spec h (fun row hrow => ?_) (Option.some.inj hserve)
    obtain ⟨m, -, hmrow⟩ := Option.map_eq_some_iff.mp hrow
    cases hmrow
  | delete i caller accountId now later =>
    simp only [serve] at hserve
    split at hserve
    · case h_1 row hi =>
      split at hserve
      · exact finish_spec h .same (Option.some.inj hserve)
      · case h_2 byKind hkind =>
        split at hserve
        · refine finish_spec h ⟨?_, fun _ => .of_eq rfl, fun h => h.elim⟩ (Option.some.inj hserve)
          exact ⟨.refl Report.Later.refl _, markDeleted_follows _ _ _ _, .refl Mute.SameKind.refl _⟩
        · exact finish_spec h .same (Option.some.inj hserve)
    · cases hserve
  | readReport reportId =>
    refine read_spec h (fun row hrow => ?_) (Option.some.inj hserve)
    obtain ⟨r, -, hrrow⟩ := Option.map_eq_some_iff.mp hrow
    cases hrrow
  | readReported i =>
    simp only [serve] at hserve
    split at hserve
    · case h_1 report hi =>
      cases Option.some.inj hserve
      refine ⟨.same, h.of_follows (.refl Mute.SameKind.refl _) (fun row hrow => Or.inl ?_)⟩
      rcases List.mem_or_eq_of_mem_set hrow with hrow | hrow
      · exact hrow
      · cases hrow
    · cases hserve
  | resolve i callers discordId body moment =>
    simp only [serve] at hserve
    split at hserve
    · case h_1 report message hi =>
      obtain ⟨hrefused, hadvance, hleader⟩ :=
        @portalChatResolve_spec discordId moment callers body report message s.tables
      exact finish_spec h ⟨hadvance, hleader, fun _ => hrefused⟩ (Option.some.inj hserve)
    · cases hserve
  | post args now =>
    cases Option.some.inj hserve
    exact traffic_spec h id id
  | report messageId channel reporter reason now =>
    cases Option.some.inj hserve
    exact traffic_spec h id id
  | sweep moment =>
    cases Option.some.inj hserve
    exact traffic_spec h id id
  | relink old new =>
    cases Option.some.inj hserve
    exact traffic_spec h id id

/-! ## What a run keeps -/

structure Kept (t t' : Tables) : Prop where
  reports : t.reports.Follows (fun r r' => r.state ≠ .opened → r' = r) t'.reports
  messages : t.messages.Follows (fun m m' => m.deletedUtc ≠ none → m' = m) t'.messages

theorem Kept.refl (t : Tables) : Kept t t := ⟨.refl (fun _ _ => rfl) _, .refl (fun _ _ => rfl) _⟩

theorem Kept.advance {t t' t'' : Tables} {actor : Option DeletedBy} (h : Kept t t')
    (hadvance : t'.Advance actor t'') : Kept t t'' := by
  have hlater : t'.reports.Follows (fun r r' => r.state ≠ .opened → r' = r) t''.reports := by
    refine ⟨hadvance.reports.next, fun r hr hlt => ?_⟩
    obtain ⟨q, hq, hid, hsame | ⟨hopen, -⟩⟩ := hadvance.reports.rows r hr hlt
    · exact ⟨q, hq, hid, fun _ => hsame⟩
    · exact ⟨q, hq, hid, fun hclosed => absurd hopen hclosed⟩
  have hdeleted : t'.messages.Follows (fun m m' => m.deletedUtc ≠ none → m' = m) t''.messages := by
    refine ⟨hadvance.messages.next, fun m hm hlt => ?_⟩
    obtain ⟨q, hq, hid, hsame | ⟨hthere, -⟩⟩ := hadvance.messages.rows m hm hlt
    · exact ⟨q, hq, hid, fun _ => hsame⟩
    · exact ⟨q, hq, hid, fun hgone => absurd hthere hgone⟩
  refine ⟨h.reports.trans (fun r q u hrq hqu hr => ?_) hlater,
    h.messages.trans (fun m q u hmq hqu hm => ?_) hdeleted⟩
  · have heq := hrq hr
    exact (hqu (heq ▸ hr)).trans heq
  · have heq := hmq hm
    exact (hqu (heq ▸ hm)).trans heq

theorem exec_known {t : Tables} {as : List Act} (hrun : exec step (start t) as = some s) :
    s.Known := by
  refine exec_invariant' (fun s a s' h hstep => ?_) (fun row hrow => ?_) hrun
  · obtain ⟨⟨answer, m⟩, hserve, rfl⟩ := Option.map_eq_some_iff.mp hstep
    exact (serve_spec h hserve).2
  · exact absurd hrow List.not_mem_nil

theorem exec_kept {as : List Act} (h : s.Known) (hrun : exec step s as = some s') :
    Kept s.tables s'.tables := by
  have hboth : s'.Known ∧ Kept s.tables s'.tables := by
    refine exec_invariant' (I := fun m => m.Known ∧ Kept s.tables m.tables)
      (fun m a m' ⟨hknown, hkept⟩ hstep => ?_) ⟨h, .refl _⟩ hrun
    obtain ⟨⟨answer, m'⟩, hserve, rfl⟩ := Option.map_eq_some_iff.mp hstep
    obtain ⟨hstep, hknown'⟩ := serve_spec hknown hserve
    exact ⟨hknown', hkept.advance hstep.advance⟩
  exact hboth.2

/-- In every run: a leader leaves the unlifted mutes of admins as they are, with none beside them;
a resolve that is not carried out changes nothing; a closed report stays as it is; a message is
deleted once, with the actor recorded that the answer names. -/
theorem moderation_holds {t : Tables} {as bs : List Act} (hrun : exec step (start t) as = some s)
    (hserve : s.serve a = some (answer, s')) (hrest : exec step s' bs = some s'') :
    (ByLeader a → s.tables.KeepsAdminMutes s'.tables) ∧
    (IsResolve a → answer.isResolved = false → s'.tables = s.tables) ∧
    (∀ r ∈ s.tables.reports, r.state ≠ .opened → ∀ r' ∈ s''.tables.reports, r'.id = r.id → r' = r) ∧
    (∀ m ∈ s.tables.messages, ∀ m' ∈ s'.tables.messages, m'.id = m.id →
      m' = m ∨ m.deletedUtc = none ∧ m'.deletedUtc ≠ none ∧ m'.deletedBy = answer.actor) ∧
    (∀ m ∈ s'.tables.messages, m.deletedUtc ≠ none → ∀ m' ∈ s''.tables.messages, m'.id = m.id →
      m' = m) := by
  obtain ⟨hstep, hknown⟩ := serve_spec (exec_known hrun) hserve
  have hkept := exec_kept hknown hrest
  have hreports : ∀ r ∈ s.tables.reports, r.state ≠ .opened →
      ∀ r' ∈ s''.tables.reports, r'.id = r.id → r' = r := by
    intro r hr hclosed r' hr' hid
    have hall := exec_kept (exec_known hrun)
      (Runs.exec_cons.mpr ⟨s', by rw [step, hserve]; rfl, hrest⟩)
    exact hall.reports.rel hr hr' hid hclosed
  exact ⟨hstep.leader, hstep.refused, hreports,
    fun m hm m' hm' hid => hstep.advance.messages.rel hm hm' hid,
    fun m hm hgone m' hm' hid => hkept.messages.rel hm hm' hid hgone⟩

def leader : Caller := ⟨false, fun channel => channel = "guild:7"⟩

def admin : Caller := ⟨true, fun _ => true⟩

def contested : List Act :=
  [.post ⟨"guild:7", 5, none, "Paul", "bi-la kaifa", .say, none⟩ 0,
   .report 1 "guild:7" 6 none (microseconds 1),
   .readReport 1, .readReported 0,
   .mute admin "2342" ⟨"guild:7", true, some none, some none, some 5, false⟩ (microseconds 2)]

def leaderResolve : Act :=
  .resolve 0 ⟨leader, leader, leader⟩ "108" ⟨.deleteAndMute, some (some 1), some none, false⟩
    (microseconds 3)

def adminResolve : List Act :=
  [.readReport 1, .readReported 1,
   .resolve 1 ⟨admin, admin, admin⟩ "2342" ⟨.delete, none, none, false⟩ (microseconds 4)]

theorem moderation_holds_contested :
    ∃ s s' s'', exec step (start .empty) contested = some s ∧
      s.serve leaderResolve = some (.refused .forbidden, s') ∧
      exec step s' adminResolve = some s'' ∧ s'.tables = s.tables ∧
      (∃ r ∈ s''.tables.reports, r.state = .actioned) ∧
      ∃ m ∈ s''.tables.messages, m.deletedBy = some (.moderator .admin) := by
  have hruns : (exec step (start .empty) contested).any (fun s =>
      (s.serve leaderResolve).any (fun p => decide (p.1 = .refused .forbidden) &&
        (exec step p.2 adminResolve).any (fun s'' =>
          (∃ r ∈ s''.tables.reports, r.state = .actioned) ∧
            ∃ m ∈ s''.tables.messages, m.deletedBy = some (.moderator .admin)))) = true := by
    decide
  obtain ⟨s, hs, hserved⟩ := (Option.any_eq_true _ _).mp hruns
  obtain ⟨⟨answer, s'⟩, hserve, hlast⟩ := (Option.any_eq_true _ _).mp hserved
  obtain ⟨hanswer, hlast⟩ := (Bool.and_eq_true _ _).mp hlast
  cases of_decide_eq_true hanswer
  obtain ⟨s'', hs'', hlast⟩ := (Option.any_eq_true _ _).mp hlast
  obtain ⟨hreport, hmessage⟩ := of_decide_eq_true hlast
  have hholds := moderation_holds hs hserve hs''
  exact ⟨s, s', s'', hs, hserve, hs'', hholds.2.1 trivial rfl, hreport, hmessage⟩

end Sys

end LastSietch.Chat
