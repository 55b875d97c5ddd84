import Mathlib.Data.Rat.Defs
import LastSietch.Lib.Index
import LastSietch.Lib.Sql

/-!
# The identity tables

The rows of `portal_identity` and `portal_credentials`: the Discord links that came first
(`ls_account_links`), the profiles with their providers and account bindings that mirror them,
and the owners, credentials, sessions and challenges that `install` adds.

`datetime('now')` has a resolution of one second and is kept as the second it names; `time.time()`
is a rational number. What `uuid4` and `token_urlsafe` draw is a number that was never drawn before,
and a digest is kept as the text it is of.
-/

namespace LastSietch.Identity

/-- What `datetime('now')` gives. -/
abbrev Stamp := Nat

/-! ## Links, profiles and bindings -/

/-- The columns of a link that `_source_links` reads. -/
structure SourceLink where
  id : Nat
  discordId : String
  accountId : Nat
  linkedAt : Stamp
  revokedAt : Option Stamp
  deriving DecidableEq, Repr

/-- A row of `ls_account_links`. -/
structure Link extends SourceLink where
  characterName : String
  discordHandle : String
  deriving DecidableEq, Repr

abbrev Links := SerialTable Link (fun l => l.id) (fun l => (l.discordId, l.accountId))

/-- `SET revoked_at=datetime('now') WHERE p`. -/
abbrev Links.revoke (links : Links) (p : Link → Bool) (stamp : Stamp) : Links :=
  links.update p (fun l => { l with revokedAt := some stamp })

/-- `SET revoked_at=NULL, linked_at=datetime('now') WHERE p`. -/
abbrev Links.restore (links : Links) (p : Link → Bool) (stamp : Stamp) : Links :=
  links.update p (fun l => { l with revokedAt := none, linkedAt := stamp })

structure Profile where
  id : Nat
  legacyDiscordId : Option String
  disabledAt : Option Stamp
  deriving DecidableEq, Repr

abbrev Profiles := Indexed Profile Profile.id (fun p => p.legacyDiscordId.toList)

/-- A row of `portal_profile_providers`; its provider is always `discord`. -/
structure Provider where
  subject : String
  profileId : Nat
  revokedAt : Option ℚ
  deriving DecidableEq, Repr

/-- `uq_portal_profile_active_provider`. -/
def Provider.entries (v : Provider) : List Nat :=
  if v.revokedAt = none then [v.profileId] else []

abbrev Providers := Indexed Provider Provider.subject Provider.entries

/-- A row of `portal_profile_accounts`. -/
structure Binding where
  profileId : Nat
  accountId : Nat
  legacyLinkId : Option Nat
  linkedAt : Stamp
  revokedAt : Option Stamp
  sessionVersion : Nat
  characterName : String
  deriving DecidableEq, Repr

/-- `uq_portal_profile_active_account` and the index on `legacy_link_id`. -/
inductive BindingEntry
  | account (id : Nat)
  | link (id : Nat)
  deriving DecidableEq, Repr

def Binding.entries (b : Binding) : List BindingEntry :=
  (if b.revokedAt = none then [.account b.accountId] else []) ++
    (b.legacyLinkId.map BindingEntry.link).toList

theorem Binding.entries_version (b : Binding) (version : Nat) :
    ({ b with sessionVersion := version } : Binding).entries = b.entries := rfl

abbrev Bindings :=
  Indexed Binding (fun b => (b.profileId, b.accountId)) Binding.entries

/-- A row of `portal_account_owners`. -/
structure Owner where
  accountId : Nat
  profileId : Option Nat
  deriving DecidableEq, Repr

/-- What links, profiles, bindings and owners hold. `installed` says that
`portal_credentials.install` has run; `owners` is empty before. -/
structure Accounts where
  links : Links
  profiles : Profiles
  providers : Providers
  bindings : Bindings
  installed : Bool
  owners : Table Owner Owner.accountId
  drawn : Nat

/-! ## Credentials, sessions and challenges -/

structure User where
  profileId : Nat
  username : Option String
  deriving DecidableEq, Repr

abbrev Users := Indexed User User.profileId (fun u => u.username.toList)

structure Password where
  profileId : Nat
  passwordHash : String
  version : Nat
  revokedAt : Option ℚ
  deriving DecidableEq, Repr

structure Passkey where
  id : Nat
  profileId : Nat
  signCount : Nat
  revokedAt : Option ℚ
  deriving DecidableEq, Repr

/-- The columns `method` and `credential` of a session. -/
inductive Credential
  | discord (subject : String)
  | password (version : Nat)
  | passkey (id : Nat)
  deriving DecidableEq, Repr

/-- A row of `portal_auth_sessions`. -/
structure Session where
  id : Nat
  tokenHash : Nat
  profileId : Nat
  accountId : Nat
  linkVersion : Nat
  credential : Credential
  authAt : ℚ
  createdAt : ℚ
  lastSeen : ℚ
  expiresAt : ℚ
  revokedAt : Option ℚ
  deriving DecidableEq, Repr

abbrev Sessions := Indexed Session Session.id (fun s => [s.tokenHash])

/-- `SET revoked_at=? WHERE p`. -/
abbrev Sessions.revoke (sessions : Sessions) (p : Session → Bool) (now : ℚ) : Sessions :=
  sessions.update p (fun s => { s with revokedAt := some now })

inductive Purpose
  | gameLink | gameOnboard | passkeyRegister | passkeyBootstrap | passkeyLogin
  deriving DecidableEq, Repr

/-- What a game challenge is about: the character that was whispered to, and the profile that is
to have it. -/
structure GameContext where
  accountId : Nat
  characterName : String
  profileId : Nat
  account_pos : 0 < accountId
  deriving DecidableEq, Repr

inductive Context
  | game (context : GameContext)
  | register (sessionId : Nat)
  | bootstrap (context : GameContext) (username : String) (gameTicket : Nat)
  | login
  deriving DecidableEq, Repr

structure Challenge where
  id : Nat
  purpose : Purpose
  bindingHash : String
  profileId : Option Nat
  context : Context
  code : Option String
  expiresAt : ℚ
  attempts : Nat
  verifiedAt : Option ℚ
  consumedAt : Option ℚ
  deriving DecidableEq, Repr

structure Db extends Accounts where
  users : Users
  passwords : Table Password Password.profileId
  passkeys : Table Passkey Passkey.id
  sessions : Sessions
  challenges : Table Challenge Challenge.id

/-- The errors of `ProfileMigrationError` and `AuthError`. `integrityError` is SQLite's own, where
nothing gives it another name, and `keyError` Python's. -/
inductive Refusal
  | legacyLinkBoundExceeded | legacyLinkInvalid | legacyActiveOwnerConflict
  | providerOwnershipConflict | profileDisabled | existingProfileProviderMissing
  | accountBindingDiffers | legacyBindingSourceMissing | profileForeignKeyConflict
  | profileMigrationSqlRefused
  | invalidLinkIdentity | legacyLinkDeletionRefused | linkChangeOutsideIdentity
  | linkGrantNotAuthorized | existingProfileMissing | profileProviderUnavailable
  | accountOwnershipRecoveryRequired | newLinkBindingConflict | existingLinkBindingMissing
  | existingLinkBindingDiffers | profileLinkWriteRefused | linkChangedSincePlan
  | signInFailed | accountUnavailable | reauthenticate | lastSignInMethod | unknownMethod
  | sessionUnavailable | challengeExpired | verificationRequired | verificationFailed
  | passkeyFailed | passkeyLimit | passkeyAlreadyRegistered | usernameUnavailable
  | existingAccountSignIn | accountAlreadyLinked | discordFailed | providerInUse
  | discordAlreadyLinked | integrityError | keyError
  deriving DecidableEq, Repr

end LastSietch.Identity
