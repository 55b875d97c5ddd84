import Mathlib.Data.Rat.Floor
import LastSietch.Identity.Links

/-!
# Sessions

The part of `portal_credentials` that signs in, reads a session and changes or ends it. Every
function takes the `now` of its `time.time()`. What the `argon2` and `webauthn` packages and
`validate_password` decide is an argument.

* `identityLink?_spec`, `accountContext_spec`: what the view `portal_identity_links` shows.
-/

namespace LastSietch.Identity

/-- `SESSION_IDLE`, `SESSION_ABSOLUTE`, `RECENT_AUTH` and `CHALLENGE_TTL`. -/
def sessionIdle : ℚ := 7 * 86400
def sessionAbsolute : ℚ := 30 * 86400
def recentAuth : ℚ := 600
def challengeTtl : ℚ := 300

/-! ## The view of the links -/

/-- `COALESCE(legacy_discord_id, 'profile:' || id)`. -/
inductive Key
  | discord (id : String)
  | profile (id : Nat)
  deriving DecidableEq, Repr

def Profile.key (p : Profile) : Key :=
  match p.legacyDiscordId with
  | some d => .discord d
  | none => .profile p.id

/-- A row of `portal_identity_links`. -/
structure IdentityLink where
  profileId : Nat
  identity : Key
  accountId : Nat
  characterName : String
  discordHandle : String
  linkedAt : Stamp
  sessionVersion : Nat

def Accounts.linkShown (acc : Accounts) (p : Profile) (b : Binding) (l : Link) : Prop :=
  l.revokedAt = none ∧ l.accountId = b.accountId ∧ some l.discordId = p.legacyDiscordId ∧
    (acc.links.rows.filter (fun o => o.accountId = b.accountId ∧ o.revokedAt = none)).length = 1

instance (acc : Accounts) (p : Profile) (b : Binding) (l : Link) :
    Decidable (acc.linkShown p b l) :=
  inferInstanceAs (Decidable (_ ∧ _))

def Session.inTime (s : Session) (now : ℚ) : Prop :=
  s.revokedAt = none ∧ (0 ≤ now - s.lastSeen ∧ now - s.lastSeen ≤ sessionIdle) ∧ now ≤ s.expiresAt

instance (s : Session) (now : ℚ) : Decidable (s.inTime now) :=
  inferInstanceAs (Decidable (_ ∧ _))

structure AccountContext where
  pid : Nat
  aid : Nat
  identity : Key
  lv : Nat
  characterName : String
  displayHandle : String
  did : String

/-- What `session` returns. -/
structure Current where
  pid : Nat
  aid : Nat
  identity : Key
  lv : Nat
  characterName : String
  displayHandle : String
  did : String
  sid : Nat
  sh : Nat
  iat : Int
  authAt : ℚ
  credential : Credential
  deriving DecidableEq, Repr

/-- The `method` and `id` of a removal. -/
inductive Removal
  | password
  | passkey (id : Nat)
  | discord
  deriving DecidableEq, Repr

def Removal.covers : Removal → Credential → Bool
  | .password, .password _ => true
  | .passkey id, .passkey key => key = id
  | .discord, .discord _ => true
  | _, _ => false

namespace Db

def legacyLink? (db : Db) (b : Binding) : Option Link := b.legacyLinkId.bind db.links.byId?

def identityLink? (db : Db) (b : Binding) : Option IdentityLink :=
  (db.profiles.get? b.profileId).bind fun p =>
    let link := db.legacyLink? b
    let name := if b.characterName = "" then link.map (·.characterName) else some b.characterName
    let username := (db.users.get? p.id).bind (·.username)
    let shown := p.disabledAt = none ∧ b.revokedAt = none ∧
      (b.legacyLinkId = none ∨ ∃ l ∈ link, db.linkShown p b l)
    if shown then
      some ⟨p.id, p.key, b.accountId, name.getD "",
        ((username.or (link.map (·.discordHandle))).or
          (if b.characterName = "" then none else some b.characterName)).getD "Player",
        b.linkedAt, b.sessionVersion⟩
    else
      none

def profileForKey (db : Db) (key : Key) : Option Nat :=
  (match key with
    | .profile id => db.profiles.get? id
    | .discord d => db.profileByDiscord? d).bind (fun p =>
      if p.disabledAt = none then some p.id else none)

def activeSubject (db : Db) (profileId : Nat) : Option String :=
  (db.providers.rows.find? (fun v => v.profileId = profileId ∧ v.revokedAt = none)).map (·.subject)

def profileActive (db : Db) (profileId : Nat) : Prop :=
  ∃ p ∈ db.profiles.get? profileId, p.disabledAt = none

instance (db : Db) (profileId : Nat) : Decidable (db.profileActive profileId) :=
  inferInstanceAs (Decidable (∃ p ∈ db.profiles.get? profileId, p.disabledAt = none))

def discordForIdentity (db : Db) (key : Key) : Option String :=
  let bySubject := match key with
    | .profile _ => none
    | .discord d => (db.providers.get? d).bind (fun v =>
        if v.revokedAt = none ∧ db.profileActive v.profileId then some v.profileId else none)
  ((db.profileForKey key).or bySubject).bind db.activeSubject

def accountContext (db : Db) (profileId accountId : Nat) : Option AccountContext :=
  (db.owners.get? accountId).bind fun owner =>
    if owner.profileId = some profileId then
      ((db.bindings.get? (profileId, accountId)).bind db.identityLink?).map fun row =>
        ⟨profileId, row.accountId, row.identity, row.sessionVersion, row.characterName,
          row.discordHandle, (db.discordForIdentity row.identity).getD ""⟩
    else
      none

/-- `ORDER BY linked_at, account_id LIMIT 1`. -/
def firstLink (db : Db) (profileId : Nat) : Option IdentityLink :=
  pick (fun a b => b.linkedAt < a.linkedAt ∨ b.linkedAt = a.linkedAt ∧ b.accountId < a.accountId)
    ((db.bindings.rows.filter (fun b => b.profileId = profileId)).filterMap db.identityLink?)

theorem identityLink?_spec {db : Db} {b : Binding} {row : IdentityLink}
    (h : db.identityLink? b = some row) :
    (∃ p ∈ db.profiles.get? b.profileId, p.disabledAt = none ∧
      (b.legacyLinkId = none ∨ ∃ l ∈ db.legacyLink? b, db.linkShown p b l)) ∧
    b.revokedAt = none ∧ row.profileId = b.profileId ∧ row.accountId = b.accountId ∧
      row.sessionVersion = b.sessionVersion := by
  obtain ⟨p, hp, h⟩ := Option.bind_eq_some_iff.mp h
  simp only [Option.ite_none_right_eq_some, Option.some.injEq] at h
  obtain ⟨⟨hactive, hbinding, hlink⟩, rfl⟩ := h
  exact ⟨⟨p, hp, hactive, hlink⟩, hbinding, (Indexed.get?_eq_some.mp hp).2, rfl, rfl⟩

theorem accountContext_spec {db : Db} {profileId accountId : Nat} {context : AccountContext}
    (h : db.accountContext profileId accountId = some context) :
    (∃ owner ∈ db.owners.get? accountId, owner.profileId = some profileId) ∧
    ∃ b ∈ db.bindings.get? (profileId, accountId), b.revokedAt = none ∧
      context.lv = b.sessionVersion ∧ context.aid = accountId := by
  obtain ⟨owner, howner, h⟩ := Option.bind_eq_some_iff.mp h
  simp only [Option.ite_none_right_eq_some, Option.map_eq_some_iff, Option.bind_eq_some_iff] at h
  obtain ⟨hprofile, row, ⟨b, hb, hrow⟩, rfl⟩ := h
  obtain ⟨-, hrevoked, -, hacc, hversion⟩ := identityLink?_spec hrow
  have hkey := (Indexed.get?_eq_some.mp hb).2
  exact ⟨⟨owner, howner, hprofile⟩, b, hb, hrevoked, hversion,
    hacc.trans (congrArg Prod.snd hkey)⟩

/-! ## Signing in -/

def credentialActive (db : Db) (profileId : Nat) : Credential → Prop
  | .discord subject => ∃ v ∈ db.providers.get? subject, v.profileId = profileId ∧ v.revokedAt = none
  | .password version =>
    ∃ p ∈ db.passwords.get? profileId, p.version = version ∧ p.revokedAt = none
  | .passkey id => ∃ k ∈ db.passkeys.get? id, k.profileId = profileId ∧ k.revokedAt = none

instance (db : Db) (profileId : Nat) : (c : Credential) → Decidable (db.credentialActive profileId c)
  | .discord subject => inferInstanceAs (Decidable (∃ v ∈ db.providers.get? subject, _))
  | .password _ => inferInstanceAs (Decidable (∃ p ∈ db.passwords.get? profileId, _))
  | .passkey id => inferInstanceAs (Decidable (∃ k ∈ db.passkeys.get? id, _))

def ensureUser (db : Db) (profileId : Nat) : Except Refusal Db := do
  if (db.users.get? profileId).isSome then
    pure db
  else
    let users ← orRaise (db.users.insert? ⟨profileId, none⟩) .integrityError
    pure { db with users }

def insertSession (now : ℚ) (profileId : Nat) (credential : Credential) (authAt : ℚ)
    (accountId linkVersion : Nat) (db : Db) : Except Refusal (Nat × Db) := do
  let sessions ← orRaise (db.sessions.insert?
    { id := db.drawn, tokenHash := db.drawn + 1, profileId, accountId, linkVersion, credential,
      authAt, createdAt := now, lastSeen := now, expiresAt := now + sessionAbsolute,
      revokedAt := none }) .integrityError
  pure (db.drawn + 1, { db with sessions, drawn := db.drawn + 2 })

def createSession (now : ℚ) (profileId : Nat) (credential : Credential) (authAt : Option ℚ)
    (accountId : Option Nat) (db : Db) : Except Refusal (Nat × Db) := do
  require (db.profileActive profileId) .signInFailed
  require (db.credentialActive profileId credential) .signInFailed
  let db ← db.ensureUser profileId
  let account := accountId.getD (((db.firstLink profileId).map (·.accountId)).getD 0)
  let authAt := (authAt.filter (fun t => t ≠ 0)).getD now
  if account = 0 then
    db.insertSession now profileId credential authAt 0 0
  else
    let context ← orRaise (db.accountContext profileId account) .accountUnavailable
    db.insertSession now profileId credential authAt account context.lv

def sessionByToken? (db : Db) (token : Nat) : Option Session :=
  db.sessions.rows.find? (fun s => s.tokenHash = token)

theorem sessionByToken?_eq_some {db : Db} {token : Nat} {s : Session} :
    db.sessionByToken? token = some s ↔ s ∈ db.sessions ∧ s.tokenHash = token := by
  unfold sessionByToken?
  constructor
  · intro h
    exact ⟨List.mem_of_find?_eq_some h, by simpa using List.find?_some h⟩
  · rintro ⟨hs, htoken⟩
    cases hget : db.sessions.rows.find? (fun s => s.tokenHash = token) with
    | none => exact absurd (decide_eq_true htoken) (List.find?_eq_none.mp hget s hs)
    | some r =>
      have hr : r.tokenHash = token := by simpa using List.find?_some hget
      exact congrArg some (Indexed.eq_of_entry (e := token) (List.mem_of_find?_eq_some hget) hs
        (by simp [hr]) (by simp [htoken]))

def linkLive (db : Db) (s : Session) : Prop :=
  s.accountId = 0 ∨ ∃ c ∈ db.accountContext s.profileId s.accountId, c.lv = s.linkVersion

instance (db : Db) (s : Session) : Decidable (db.linkLive s) :=
  inferInstanceAs (Decidable (_ ∨ ∃ c ∈ db.accountContext s.profileId s.accountId, _))

/-- What `session` asks for. -/
def live (db : Db) (now : ℚ) (s : Session) : Prop :=
  s.inTime now ∧ db.profileActive s.profileId ∧ db.credentialActive s.profileId s.credential ∧
    db.linkLive s

instance (db : Db) (now : ℚ) (s : Session) : Decidable (db.live now s) :=
  inferInstanceAs (Decidable (_ ∧ _))

def currentOf (db : Db) (s : Session) : Current :=
  let key := ((db.profiles.get? s.profileId).map Profile.key).getD (.profile s.profileId)
  let context : AccountContext :=
    (if s.accountId = 0 then none else db.accountContext s.profileId s.accountId).getD
      ⟨s.profileId, 0, key, 0, "", "", (db.discordForIdentity key).getD ""⟩
  ⟨context.pid, context.aid, context.identity, context.lv, context.characterName,
    context.displayHandle, context.did, s.id, s.tokenHash, ⌊s.createdAt⌋, s.authAt, s.credential⟩

def touch (now : ℚ) (s : Session) (db : Db) : Db :=
  if 60 < now - s.lastSeen then
    let sessions := db.sessions.update (fun r => r.id = s.id ∧ r.revokedAt = none)
      (fun r => { r with lastSeen := now })
    { db with sessions }
  else
    db

def session (now : ℚ) (token : Nat) (db : Db) : Option Current × Db :=
  match db.sessionByToken? token with
  | none => (none, db)
  | some s => if db.live now s then (some (db.currentOf s), db.touch now s) else (none, db)

def requireRecent (now : ℚ) (profileId : Nat) (current : Current) (db : Db) :
    Except Refusal Unit := do
  require (current.pid = profileId) .reauthenticate
  let s ← orRaise (db.sessions.rows.find? (fun s => s.id = current.sid ∧ s.tokenHash = current.sh ∧
    s.profileId = profileId ∧ s.revokedAt = none ∧ now ≤ s.expiresAt)) .reauthenticate
  require (0 ≤ now - s.authAt ∧ now - s.authAt ≤ recentAuth ∧
    db.credentialActive profileId s.credential) .reauthenticate
  require (db.profileActive profileId) .signInFailed

/-- `password_login`. The password is checked against the row that the transaction reads again. -/
def passwordLogin (now : ℚ) (name password : String) (profileId : Option Nat) (db : Db) :
    Except Refusal (Nat × Db) := do
  let u ← orRaise (db.users.rows.find? (fun u => u.username = some name)) .signInFailed
  let p ← orRaise (db.passwords.get? u.profileId) .signInFailed
  require (p.revokedAt = none ∧ p.passwordHash = password) .signInFailed
  require (∀ id ∈ profileId, id = u.profileId) .signInFailed
  db.createSession now u.profileId (.password p.version) none none

/-! ## Changing and ending sessions -/

/-- `SET revoked_at=? WHERE profile_id=? AND ... AND revoked_at IS NULL`. -/
def revokeSessions (now : ℚ) (profileId : Nat) (p : Session → Bool) (db : Db) : Db :=
  let sessions := db.sessions.revoke
    (fun s => s.profileId = profileId && p s && s.revokedAt = none) now
  { db with sessions }

/-- A drawn token for the session `id`, and what else is set with it. -/
def rotate (id : Nat) (f : Session → Session) (db : Db)
    (hf : ∀ s, (f s).id = s.id := by intro _; rfl) : Except Refusal (Nat × Db) := do
  let sessions ← orRaise (db.sessions.update? (fun s => s.id = id)
    (fun s => { f s with tokenHash := db.drawn }) (fun s => hf s)) .integrityError
  pure (db.drawn, { db with sessions, drawn := db.drawn + 1 })

/-- `set_password`, for the name and the password that the checks let through. -/
def setPassword (now : ℚ) (profileId : Nat) (current : Current) (name password : String) (db : Db) :
    Except Refusal (Nat × Db) := do
  db.requireRecent now profileId current
  let users ← orRaise (db.users.update? (fun u => u.profileId = profileId)
    (fun u => { u with username := some name })) .usernameUnavailable
  let version := ((db.passwords.get? profileId).map (fun p => p.version + 1)).getD 1
  let passwords := db.passwords.put ⟨profileId, password, version, none⟩
  let db := { db with users, passwords }
  let db := db.revokeSessions now profileId (fun s => s.id ≠ current.sid)
  db.rotate current.sid (fun s => { s with credential := .password version, authAt := now })

/-- The count that `revoke_method` takes of `usable_methods`. -/
def usableMethods (db : Db) (profileId : Nat) : Nat :=
  (if ∃ p ∈ db.passwords.get? profileId, p.revokedAt = none then 1 else 0) +
    (db.passkeys.rows.filter (fun k => k.profileId = profileId ∧ k.revokedAt = none)).length +
    (if (db.activeSubject profileId).isSome = true then 1 else 0)

def sessionCurrent (db : Db) (s : Session) : Prop :=
  ∃ b ∈ db.bindings.get? (s.profileId, s.accountId), b.revokedAt = none ∧
    s.linkVersion = b.sessionVersion

instance (db : Db) (s : Session) : Decidable (db.sessionCurrent s) :=
  inferInstanceAs (Decidable (∃ b ∈ db.bindings.get? (s.profileId, s.accountId), _))

/-- The Discord provider takes the version of every active binding with it, and the sessions that
are on that version. -/
def bumpVersions (profileId : Nat) (db : Db) : Db :=
  let sessions := db.sessions.update
    (fun s => s.profileId = profileId ∧ s.revokedAt = none ∧ db.sessionCurrent s)
    (fun s => { s with linkVersion := s.linkVersion + 1 })
  let bindings := db.bindings.update (fun b => b.profileId = profileId ∧ b.revokedAt = none)
    (fun b => { b with sessionVersion := b.sessionVersion + 1 }) (fun _ => rfl)
    (fun b => b.entries_version _)
  { db with sessions, bindings }

def dropCredential (now : ℚ) (profileId : Nat) (method : Removal) (db : Db) :
    Except Refusal Db := do
  match method with
  | .password =>
    require (∃ p ∈ db.passwords.get? profileId, p.revokedAt = none) .unknownMethod
    let passwords := db.passwords.update (fun p => p.profileId = profileId ∧ p.revokedAt = none)
      (fun p => { p with revokedAt := some now })
    pure { db with passwords }
  | .passkey id =>
    require (∃ k ∈ db.passkeys.get? id, k.profileId = profileId ∧ k.revokedAt = none) .unknownMethod
    let passkeys := db.passkeys.update
      (fun k => k.profileId = profileId ∧ k.id = id ∧ k.revokedAt = none)
      (fun k => { k with revokedAt := some now })
    pure { db with passkeys }
  | .discord =>
    require (∃ v ∈ db.providers, v.profileId = profileId ∧ v.revokedAt = none) .unknownMethod
    let providers ← orRaise (db.providers.update?
      (fun v => v.profileId = profileId ∧ v.revokedAt = none)
      (fun v => { v with revokedAt := some now })) .integrityError
    pure (bumpVersions profileId { db with providers })

def revokeMethod (now : ℚ) (profileId : Nat) (current : Current) (method : Option Removal)
    (db : Db) : Except Refusal Db := do
  db.requireRecent now profileId current
  require (1 < db.usableMethods profileId) .lastSignInMethod
  let method ← orRaise method .unknownMethod
  let db ← db.dropCredential now profileId method
  pure (db.revokeSessions now profileId (fun s => method.covers s.credential))

def switchSession (now : ℚ) (current : Current) (accountId : Nat) (db : Db) :
    Except Refusal (Nat × Db) := do
  let s ← orRaise (db.sessions.rows.find? (fun s => s.id = current.sid ∧ s.tokenHash = current.sh ∧
    s.profileId = current.pid ∧ s.revokedAt = none ∧ now ≤ s.expiresAt)) .accountUnavailable
  let context ← orRaise (db.accountContext current.pid accountId) .accountUnavailable
  require (db.credentialActive current.pid s.credential) .accountUnavailable
  db.rotate current.sid (fun s => { s with accountId, linkVersion := context.lv })

def revokeSession (now : ℚ) (profileId : Nat) (current : Current) (targetId : Nat) (db : Db) :
    Except Refusal Db := do
  db.requireRecent now profileId current
  require (∃ s ∈ db.sessions, s.profileId = profileId ∧ s.id = targetId ∧ s.revokedAt = none)
    .sessionUnavailable
  pure (db.revokeSessions now profileId (fun s => s.id = targetId))

end Db

end LastSietch.Identity
