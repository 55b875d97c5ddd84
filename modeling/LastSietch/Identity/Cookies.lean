import LastSietch.Identity.System

/-!
# Session cookies

`issue_session_cookie`, `issue_switched_session_cookie` and `verify_session_cookie` of `portal_auth`.
A cookie is either a payload signed by `itsdangerous`, unbound or bound to a profile, or the token of
a session row. The signer is a parameter; `Signer.Documented` is what its documentation says.

The functions read the clock twice, `now` first and `later` in what they call, and count in whole
seconds (`int(time.time())`) whatever they sign.
-/

namespace LastSietch.Identity

/-- `PORTAL_SESSION_IDLE_MAX_AGE`, `PORTAL_SESSION_ABS_MAX_AGE` and `PORTAL_LINK_FLOW_MAX_AGE`. -/
def sessionIdleMaxAge : Int := 7 * 86400
def sessionAbsMaxAge : Int := 30 * 86400
def linkFlowMaxAge : Int := 300

/-- `_SALT_SESSION` and `_SALT_PROFILE_SESSION`. -/
inductive Salt
  | session | profileSession
  deriving DecidableEq, Repr

structure Payload where
  did : String
  aid : Nat
  iat : Int
  ip : String
  pid : Option Nat
  lv : Option Nat
  deriving DecidableEq, Repr

/-- What `loads` gives or raises. -/
inductive Loaded
  | payload (p : Payload)
  | signatureExpired
  | badSignature
  deriving DecidableEq, Repr

/-- `URLSafeTimedSerializer` with the secret of the portal: `dumps` at a second, and `loads` with
`max_age` at a second. -/
structure Signer (τ : Type) where
  dumps : Salt → Int → Payload → τ
  loads : Salt → Int → Int → τ → Loaded

/-- A signature is good for `max_age` seconds under its own salt. -/
structure Signer.Documented {τ : Type} (signer : Signer τ) : Prop where
  own : ∀ salt stamp p maxAge now, stamp ≤ now →
    signer.loads salt maxAge now (signer.dumps salt stamp p) =
      if now - stamp ≤ maxAge then .payload p else .signatureExpired
  other : ∀ salt salt' stamp p maxAge now, salt ≠ salt' →
    signer.loads salt' maxAge now (signer.dumps salt stamp p) = .badSignature

inductive Cookie (τ : Type)
  | signed (value : τ)
  | session (token : Nat)
  deriving DecidableEq, Repr

inductive PortalSession
  | signed (p : Payload)
  | server (current : Current)
  deriving DecidableEq, Repr

/-- `PORTAL_PROFILES_ENABLED` and `PORTAL_AUTH_ENABLED`. -/
structure Settings where
  profiles : Bool
  auth : Bool
  deriving DecidableEq, Repr

/-- The errors of `portal_auth`, and those of `portal_credentials`. -/
inductive CookieRefusal
  | sessionIssueTimeInvalid | profileSessionUnavailable | profileSessionIdentityChanged
  | auth (e : Refusal)
  deriving DecidableEq, Repr

namespace Db

def enforcementRequired (settings : Settings) (db : Db) : Bool := settings.profiles || db.installed

/-- `legacy_session_context`: the profile and the version of the binding. -/
def legacySessionContext (db : Db) (did : String) (aid : Nat) : Option (Nat × Nat) := do
  guard (validDiscordId did = true ∧ 0 < aid)
  let v ← db.providers.get? did
  let p ← db.profiles.get? v.profileId
  guard (v.revokedAt = none ∧ p.legacyDiscordId = some did ∧ p.disabledAt = none)
  let b ← db.bindings.get? (p.id, aid)
  let l ← db.legacyLink? b
  guard (b.revokedAt = none ∧ db.linkShown p b l ∧ 0 < b.sessionVersion)
  pure (p.id, b.sessionVersion)

variable {τ : Type} (signer : Signer τ) (settings : Settings) (now later : ℚ)

def issueSessionCookie (did : String) (aid : Nat) (ip : String) (issuedAt : Option Int)
    (profileBound : Bool) (expectedProfile : Option Nat) (authenticationTime : Option Int) (db : Db) :
    Except CookieRefusal (Cookie τ × Db) := do
  let iat := issuedAt.getD ⌊now⌋
  require (0 < iat ∧ iat ≤ ⌊now⌋ ∧ ⌊now⌋ - iat ≤ sessionAbsMaxAge) .sessionIssueTimeInvalid
  match authenticationTime.filter (fun _ => settings.auth) with
  | some authAt =>
    let (pid, _) ← orRaise (db.legacySessionContext did aid) .profileSessionUnavailable
    require (0 ≤ ⌊now⌋ - authAt ∧ ⌊now⌋ - authAt ≤ linkFlowMaxAge) .profileSessionUnavailable
    match db.createSession later pid (.discord did) (some authAt) (some aid) with
    | .ok (token, db) => pure (.session token, db)
    | .error e => throw (.auth e)
  | none =>
    if profileBound || db.enforcementRequired settings then
      let (pid, lv) ← orRaise (db.legacySessionContext did aid) .profileSessionUnavailable
      require (∀ expected ∈ expectedProfile, pid = expected) .profileSessionIdentityChanged
      pure (.signed (signer.dumps .profileSession ⌊later⌋ ⟨did, aid, iat, ip, some pid, some lv⟩), db)
    else
      pure (.signed (signer.dumps .session ⌊later⌋ ⟨did, aid, iat, ip, none, none⟩), db)

def issueSwitchedSessionCookie (session : PortalSession) (aid : Nat) (ip : String) (db : Db) :
    Except CookieRefusal (Cookie τ × Db) :=
  match session with
  | .server current =>
    match db.switchSession later current aid with
    | .ok (token, db) => .ok (.session token, db)
    | .error e => .error (.auth e)
  | .signed p =>
    if db.enforcementRequired settings || p.pid.isSome then
      db.issueSessionCookie signer settings now later p.did aid ip (some p.iat) true p.pid none
    else
      -- an unbound session is issued anew, with a start of its own
      db.issueSessionCookie signer settings now later p.did aid ip none false none none

/-! ## Verifying -/

/-- What `verify_session_cookie` asks of a payload with a good signature. -/
def checkPayload (bound : Bool) (p : Payload) (db : Db) : Option PortalSession := do
  guard (0 < p.iat ∧ p.iat ≤ ⌊later⌋ ∧ ⌊later⌋ - p.iat ≤ sessionAbsMaxAge)
  guard (bound = true ∨ p.pid = none ∧ p.lv = none)
  if bound || db.enforcementRequired settings then
    let (pid, lv) ← db.legacySessionContext p.did p.aid
    guard (if bound then p.pid = some pid ∧ p.lv = some lv else lv = 1)
    pure (.signed { p with pid := some pid, lv := some lv })
  else
    pure (.signed p)

def verifySessionCookie (cookie : Cookie τ) (db : Db) : Option PortalSession × Db :=
  match cookie with
  | .session token => ((db.session now token).1.map .server, (db.session now token).2)
  | .signed value =>
    match signer.loads .profileSession sessionIdleMaxAge ⌊now⌋ value with
    | .payload p => (db.checkPayload settings later true p, db)
    | .signatureExpired => (none, db)
    | .badSignature =>
      match signer.loads .session sessionIdleMaxAge ⌊now⌋ value with
      | .payload p => (db.checkPayload settings later false p, db)
      | .signatureExpired | .badSignature => (none, db)

end Db

section Issued

variable {τ : Type} {signer : Signer τ} {settings : Settings} {now later : ℚ} {did ip : String}
  {aid : Nat} {issuedAt : Option Int} {bound : Bool} {expected : Option Nat} {db db' : Db}
  {cookie : Cookie τ}

/-- What `issue_session_cookie` returns: a signature with the start that it was given, or else its
own time, or the token of a new session. -/
theorem Db.issueSessionCookie_cases {auth : Option Int}
    (h : db.issueSessionCookie signer settings now later did aid ip issuedAt bound expected auth =
      .ok (cookie, db')) :
    (db' = db ∧ issuedAt.getD ⌊now⌋ ≤ ⌊now⌋ ∧ ∃ salt p, p.iat = issuedAt.getD ⌊now⌋ ∧
      cookie = .signed (signer.dumps salt ⌊later⌋ p)) ∨
    (auth.isSome = true ∧ ∃ token pid authAt, cookie = .session token ∧
      db.createSession later pid (.discord did) (some authAt) (some aid) = .ok (token, db')) := by
  obtain ⟨_, htime, h⟩ := bind_eq_ok.mp h
  have htime := (require_eq_ok.mp htime).2.1
  dsimp only at h
  split at h
  · rename_i authAt hauth
    obtain ⟨⟨pid, lv⟩, -, h⟩ := bind_eq_ok.mp h
    obtain ⟨_, -, h⟩ := bind_eq_ok.mp h
    dsimp only at h
    split at h
    · rename_i token db'' hcreate
      cases h
      have hsome : auth.isSome = true := by
        rw [(Option.filter_eq_some_iff.mp hauth).1]
        rfl
      exact Or.inr ⟨hsome, token, pid, _, rfl, hcreate⟩
    · cases h
  · split at h
    · obtain ⟨⟨pid, lv⟩, -, h⟩ := bind_eq_ok.mp h
      obtain ⟨_, -, h⟩ := bind_eq_ok.mp h
      cases h
      exact Or.inl ⟨rfl, htime, .profileSession, _, rfl, rfl⟩
    · cases h
      exact Or.inl ⟨rfl, htime, .session, _, rfl, rfl⟩

theorem Db.checkPayload_old {p : Payload} (hold : sessionAbsMaxAge < ⌊later⌋ - p.iat) :
    db.checkPayload settings later bound p = none := by
  unfold Db.checkPayload
  have hfail : ¬(0 < p.iat ∧ p.iat ≤ ⌊later⌋ ∧ ⌊later⌋ - p.iat ≤ sessionAbsMaxAge) := by
    rintro ⟨-, -, hle⟩
    omega
  rw [guard, if_neg hfail]
  rfl

theorem Db.verify_signed_eq_none (hsigner : signer.Documented) {salt : Salt} {stamp : Int}
    {p : Payload} (hstamp : stamp ≤ ⌊now⌋)
    (hold : sessionIdleMaxAge < ⌊now⌋ - stamp ∨ sessionAbsMaxAge < ⌊later⌋ - p.iat) :
    (db.verifySessionCookie signer settings now later
      (.signed (signer.dumps salt stamp p))).1 = none := by
  have hloads := hsigner.own salt stamp p sessionIdleMaxAge ⌊now⌋ hstamp
  unfold Db.verifySessionCookie
  dsimp only
  cases salt with
  | profileSession =>
    rw [hloads]
    split_ifs with hyoung
    · exact Db.checkPayload_old (hold.resolve_left (by omega))
    · rfl
  | session =>
    rw [hsigner.other .session .profileSession stamp p sessionIdleMaxAge ⌊now⌋ (by decide), hloads]
    split_ifs with hyoung
    · exact Db.checkPayload_old (hold.resolve_left (by omega))
    · rfl

end Issued
end LastSietch.Identity
