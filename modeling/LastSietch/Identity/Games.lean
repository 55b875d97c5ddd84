import LastSietch.Identity.Sessions

/-!
# Game verification and passkeys

The challenges of `portal_credentials` and what rests on them: profiles that begin in the game,
passkeys, and the accounts that a profile links and unlinks. `install` is here too.

The outcome of a `webauthn` verification is an argument: the id of the registered key, or the new
`sign_count` of the one that signed, and `none` when it raises. A function that commits before it
can still raise gives the database along with what it returns.
-/

namespace LastSietch.Identity

namespace Accounts

/-- The owner that `install` gives an account. -/
def ownerOf (acc : Accounts) (accountId : Nat) : Option Nat :=
  let rows := acc.bindings.rows.filter (fun b => b.accountId = accountId)
  let owners := (rows.map (·.profileId)).dedup
  match (rows.filter (fun b => b.revokedAt = none)).map (·.profileId), owners with
  | [owner], _ => some owner
  | _, [owner] => some owner
  | _, _ => none

def install (acc : Accounts) : Accounts :=
  { acc with
    installed := true
    owners := ⟨(acc.bindings.rows.map (·.accountId)).dedup.map (fun a => ⟨a, acc.ownerOf a⟩), by
      rw [List.map_map]
      exact (List.map_id _).symm ▸ List.nodup_dedup _⟩ }

def assertNewAccount (acc : Accounts) (accountId : Nat) : Except Refusal Unit :=
  require (acc.owners.get? accountId = none ∧ ∀ l ∈ acc.links, l.accountId ≠ accountId)
    .existingAccountSignIn

end Accounts

namespace Db

/-- `install`, on a database that has it or not. -/
def install (db : Db) : Db :=
  if db.installed then
    db
  else
    { db with
      toAccounts := db.toAccounts.install
      users := ⟨⟨db.profiles.rows.map (fun p => ⟨p.id, none⟩), by
        rw [List.map_map]
        exact db.profiles.unique⟩, by
        rw [List.flatMap_map]
        exact (List.flatMap_eq_nil_iff.mpr (fun _ _ => rfl)).symm ▸ List.nodup_nil⟩ }

def newChallenge (now : ℚ) (purpose : Purpose) (binding : String) (profileId : Option Nat)
    (context : Context) (code : Option String) (db : Db) : Except Refusal (Nat × Db) := do
  let kept := db.challenges.filter (fun c => now - 86400 ≤ c.expiresAt)
  let challenges ← orRaise (kept.insert?
    ⟨db.drawn, purpose, binding, profileId, context, code, now + challengeTtl, 0, none, none⟩)
    .integrityError
  pure (db.drawn, { db with challenges, drawn := db.drawn + 1 })

def challengeRow (now : ℚ) (identifier : Nat) (binding : String) (purpose : Purpose)
    (profileId : Option Nat) (db : Db) : Except Refusal Challenge := do
  let c ← orRaise (db.challenges.get? identifier) .challengeExpired
  require (c.purpose = purpose ∧ c.bindingHash = binding ∧ c.profileId = profileId ∧
    c.consumedAt = none ∧ now ≤ c.expiresAt) .challengeExpired
  pure c

def markConsumed (now : ℚ) (identifier : Nat) (db : Db) : Db :=
  let challenges := db.challenges.update (fun c => c.id = identifier ∧ c.consumedAt = none)
    (fun c => { c with consumedAt := some now })
  { db with challenges }

def consumeChallenge (now : ℚ) (identifier : Nat) (binding : String) (purpose : Purpose)
    (profileId : Option Nat) (db : Db) : Except Refusal (Challenge × Db) := do
  let c ← db.challengeRow now identifier binding purpose profileId
  pure (c, db.markConsumed now identifier)

/-- `verify_game_code`; a wrong code is counted, and then raises. -/
def verifyGameCode (now : ℚ) (identifier : Nat) (binding code : String) (purpose : Purpose)
    (profileId : Option Nat) (db : Db) : Except Refusal (Bool × Db) := do
  let c ← db.challengeRow now identifier binding purpose profileId
  require (c.verifiedAt = none ∧ c.attempts < 5) .challengeExpired
  let good : Bool := c.code = some code ∧ code.length = 6 ∧ code.all Char.isDigit
  let challenges := db.challenges.update (fun r => r.id = identifier)
    (fun r => { r with
      attempts := r.attempts + 1
      verifiedAt := if good then some now else none
      expiresAt := if good then now + 600 else c.expiresAt
      consumedAt := if !good && 4 ≤ c.attempts then some now else none })
  pure (good, { db with challenges })

def verifiedGameTicket (now : ℚ) (identifier : Nat) (binding : String) (purpose : Purpose)
    (profileId : Option Nat) (db : Db) : Except Refusal (Challenge × GameContext) := do
  let c ← db.challengeRow now identifier binding purpose profileId
  let verified ← orRaise c.verifiedAt .verificationRequired
  require (0 ≤ now - verified ∧ now - verified ≤ 600) .verificationRequired
  match c.context with
  | .game context => pure (c, context)
  | _ => .error .keyError

/-- A transaction that may raise after the database `db` was committed. -/
def settle {α : Type} (r : Except Refusal (α × Db)) (db : Db) : Except Refusal α × Db :=
  match r with
  | .error e => (.error e, db)
  | .ok (a, db') => (.ok a, db')

def storePasskey (profileId key : Nat) (e : Refusal) (db : Db) : Except Refusal Db := do
  require ((db.passkeys.rows.filter
    (fun k => k.profileId = profileId ∧ k.revokedAt = none)).length < 8) .passkeyLimit
  let passkeys ← orRaise (db.passkeys.insert? ⟨key, profileId, 0, none⟩) e
  pure { db with passkeys }

/-- The transaction of `finish_registration`. -/
def registerPasskey (now : ℚ) (current : Current) (key : Nat) (db : Db) :
    Except Refusal (Nat × Db) := do
  db.requireRecent now current.pid current
  let db ← db.storePasskey current.pid key .passkeyAlreadyRegistered
  let db := db.revokeSessions now current.pid (fun s => s.id ≠ current.sid)
  db.rotate current.sid id

def finishRegistration (now : ℚ) (current : Current) (binding : String) (identifier : Nat)
    (verified : Option Nat) (db : Db) : Except Refusal Nat × Db :=
  let consumed := do
    db.requireRecent now current.pid current
    db.consumeChallenge now identifier binding .passkeyRegister (some current.pid)
  match consumed with
  | .error e => (.error e, db)
  | .ok (c, db) => settle (do
      require (c.context = .register current.sid) .challengeExpired
      let key ← orRaise verified .passkeyFailed
      db.registerPasskey now current key) db

/-- The transaction of `finish_authentication`. -/
def usePasskey (now : ℚ) (k : Passkey) (signCount : Nat) (db : Db) : Except Refusal (Nat × Db) := do
  let passkeys := db.passkeys.update (fun r => r.id = k.id)
    (fun r => { r with signCount := signCount })
  { db with passkeys }.createSession now k.profileId (.passkey k.id) none none

def finishAuthentication (now : ℚ) (binding : String) (identifier : Nat) (profileId : Option Nat)
    (keyId : Nat) (verified : Option Nat) (db : Db) : Except Refusal Nat × Db :=
  match db.consumeChallenge now identifier binding .passkeyLogin profileId with
  | .error e => (.error e, db)
  | .ok (c, db) => settle (do
      require (c.context = .login) .challengeExpired
      let k ← orRaise (db.passkeys.get? keyId) .passkeyFailed
      require (k.revokedAt = none ∧ ∀ id ∈ profileId, id = k.profileId) .passkeyFailed
      let signCount ← orRaise verified .passkeyFailed
      db.usePasskey now k signCount) db

def bootstrapProfile (now : ℚ) (stamp : Stamp) (ticket : Challenge) (context : GameContext)
    (name : String) (db : Db) : Except Refusal Db := do
  db.assertNewAccount context.accountId
  let profiles ← orRaise (db.profiles.insert? ⟨context.profileId, none, none⟩) .usernameUnavailable
  let users ← orRaise (db.users.insert? ⟨context.profileId, some name⟩) .usernameUnavailable
  let owners ← orRaise (db.owners.insert? ⟨context.accountId, some context.profileId⟩)
    .usernameUnavailable
  let bindings ← orRaise (db.bindings.insert?
    ⟨context.profileId, context.accountId, none, stamp, none, 2, context.characterName⟩)
    .usernameUnavailable
  require (∃ c ∈ db.challenges.get? ticket.id, c.consumedAt = none) .challengeExpired
  pure (markConsumed now ticket.id { db with profiles, users, owners, bindings })

/-- `bootstrap_password`, for the name and the password that the checks let through. -/
def bootstrapPassword (now : ℚ) (stamp : Stamp) (identifier : Nat) (binding name password : String)
    (db : Db) : Except Refusal (Nat × Db) := do
  let (ticket, context) ← db.verifiedGameTicket now identifier binding .gameOnboard none
  let db ← db.bootstrapProfile now stamp ticket context name
  let passwords ← orRaise (db.passwords.insert? ⟨context.profileId, password, 1, none⟩)
    .usernameUnavailable
  { db with passwords }.createSession now context.profileId (.password 1) none none

/-- The transaction of `bootstrap_passkey`. -/
def bootstrapWithKey (now : ℚ) (stamp : Stamp) (binding : String) (context : GameContext)
    (name : String) (gameTicket key : Nat) (db : Db) : Except Refusal (Nat × Db) := do
  let (ticket, original) ← db.verifiedGameTicket now gameTicket binding .gameOnboard none
  require (context = original) .challengeExpired
  let db ← db.bootstrapProfile now stamp ticket original name
  let db ← db.storePasskey original.profileId key .usernameUnavailable
  db.createSession now original.profileId (.passkey key) none none

def bootstrapPasskey (now : ℚ) (stamp : Stamp) (identifier : Nat) (binding : String)
    (verified : Option Nat) (db : Db) : Except Refusal Nat × Db :=
  let consumed : Except Refusal (Challenge × Db) := do
    let row ← orRaise (db.challenges.get? identifier) .challengeExpired
    db.consumeChallenge now identifier binding .passkeyBootstrap row.profileId
  match consumed with
  | .error e => (.error e, db)
  | .ok (c, db) =>
    match c.context with
    | .bootstrap context name gameTicket => settle (do
        let key ← orRaise verified .passkeyFailed
        db.bootstrapWithKey now stamp binding context name gameTicket key) db
    | _ => (.error .keyError, db)

/-! ## Accounts of a profile -/

/-- An account that the profile had: the legacy link and the binding come back, each with the
`datetime('now')` of its own statement. -/
def restoreBinding (linkStamp stamp : Stamp) (name : String) (b : Binding) (db : Db) :
    Except Refusal Db := do
  let links := db.links.restore (fun l => some l.id = b.legacyLinkId) linkStamp
  let bindings ← orRaise (db.bindings.update?
    (fun r => r.profileId = b.profileId ∧ r.accountId = b.accountId)
    (fun r => { r with revokedAt := none, linkedAt := stamp,
                       sessionVersion := r.sessionVersion + 1, characterName := name }))
    .integrityError
  pure { db with links, bindings }

def addBinding (stamp : Stamp) (profileId : Nat) (context : GameContext) (db : Db) :
    Except Refusal Db := do
  require (∀ l ∈ db.links, l.accountId ≠ context.accountId) .existingAccountSignIn
  let bindings ← orRaise (db.bindings.insert?
    ⟨profileId, context.accountId, none, stamp, none, 2, context.characterName⟩) .integrityError
  pure { db with bindings }

def bindAccount (linkStamp stamp : Stamp) (profileId : Nat) (context : GameContext) (db : Db) :
    Except Refusal Db := do
  match db.bindings.get? (profileId, context.accountId) with
  | some b =>
    require (b.revokedAt ≠ none) .accountAlreadyLinked
    db.restoreBinding linkStamp stamp context.characterName b
  | none => db.addBinding stamp profileId context

def ownAccount (profileId accountId : Nat) (db : Db) : Except Refusal Db := do
  match db.owners.get? accountId with
  | some _ => pure db
  | none =>
    let owners ← orRaise (db.owners.insert? ⟨accountId, some profileId⟩) .integrityError
    pure { db with owners }

/-- The session `current` goes to the account, when it has none. -/
def seatSession (current : Current) (accountId : Nat) (db : Db) : Except Refusal Db := do
  if current.aid = 0 then
    let b ← orRaise (db.bindings.get? (current.pid, accountId)) .keyError
    let sessions := db.sessions.update (fun s => s.id = current.sid ∧ s.tokenHash = current.sh)
      (fun s => { s with accountId, linkVersion := b.sessionVersion })
    pure { db with sessions }
  else
    pure db

def linkVerifiedGame (now : ℚ) (linkStamp stamp : Stamp) (current : Current) (identifier : Nat)
    (binding : String) (db : Db) : Except Refusal Db := do
  db.requireRecent now current.pid current
  let (ticket, context) ← db.verifiedGameTicket now identifier binding .gameLink (some current.pid)
  require (∀ o ∈ db.owners.get? context.accountId, o.profileId = some current.pid)
    .existingAccountSignIn
  let bound ← db.bindAccount linkStamp stamp current.pid context
  let owned ← bound.ownAccount current.pid context.accountId
  let seated ← owned.seatSession current context.accountId
  pure (seated.markConsumed now ticket.id)

/-- The two rows that `unlink_account` marks. -/
def revokeBinding (linkStamp stamp : Stamp) (b : Binding) (db : Db) : Except Refusal Db := do
  let links := db.links.revoke (fun l => some l.id = b.legacyLinkId) linkStamp
  let bindings ← orRaise (db.bindings.update?
    (fun r => r.profileId = b.profileId ∧ r.accountId = b.accountId)
    (fun r => { r with revokedAt := some stamp, sessionVersion := r.sessionVersion + 1 }))
    .integrityError
  pure { db with links, bindings }

/-- The session `current` goes to another account of the profile, when this was its own. -/
def reseatSession (current : Current) (accountId : Nat) (db : Db) : Db :=
  if current.aid = accountId then
    let survivor := (db.firstLink current.pid).map (fun row => (row.accountId, row.sessionVersion))
    let sessions := db.sessions.update (fun s => s.id = current.sid)
      (fun s => { s with accountId := (survivor.getD (0, 0)).1
                         linkVersion := (survivor.getD (0, 0)).2 })
    { db with sessions }
  else
    db

def unlinkAccount (now : ℚ) (linkStamp stamp : Stamp) (current : Current) (accountId : Nat)
    (db : Db) : Except Refusal Db := do
  db.requireRecent now current.pid current
  let b ← orRaise (db.bindings.get? (current.pid, accountId)) .accountUnavailable
  require (b.revokedAt = none) .accountUnavailable
  let revoked ← db.revokeBinding linkStamp stamp b
  let sessions := revoked.sessions.revoke
    (fun s => s.profileId = current.pid ∧ s.accountId = accountId ∧ s.id ≠ current.sid) now
  pure ({ revoked with sessions }.reseatSession current accountId)

def linkDiscord (now : ℚ) (current : Current) (discordId : String) (db : Db) :
    Except Refusal Db := do
  require (validDiscordId discordId = true) .discordFailed
  db.requireRecent now current.pid current
  let row := db.providers.get? discordId
  require (∀ v ∈ row, v.profileId = current.pid) .providerInUse
  require (∀ subject ∈ db.activeSubject current.pid, subject = discordId) .discordAlreadyLinked
  let providers ← orRaise (if row = none then db.providers.insert? ⟨discordId, current.pid, none⟩
    else db.providers.update? (fun v => v.subject = discordId)
      (fun v => { v with revokedAt := none })) .integrityError
  pure { db with providers }

end Db

end LastSietch.Identity
