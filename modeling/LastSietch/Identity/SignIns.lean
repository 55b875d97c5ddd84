import LastSietch.Identity.Cookies
import LastSietch.Identity.Expiry

/-!
# Chains of cookies

A chain starts with the cookie of one sign-in. Its cookies are verified, and the sessions that
`verify_session_cookie` gives are switched to other accounts, by `portal_select_account` or when an
unlink re-points them; between these the identity database changes in any way that `Action` knows.
-/

namespace LastSietch.Identity

open Accounts (Tied)
open Runs (exec Along exec_invariant)

/-- The cookies that the chain has issued, and the sessions that they have been verified as. -/
structure Chain (τ : Type) where
  db : Db
  clock : ℚ
  cookies : List (Cookie τ)
  sessions : List PortalSession

inductive Visit
  | other (a : Action)
  | verify (settings : Settings) (now later : ℚ) (i : Nat)
  | switch (settings : Settings) (now later : ℚ) (i : Nat) (aid : Nat) (ip : String)

/-- A sign-in: `issue_session_cookie`, or `_create_session` for the other methods. -/
inductive SignIn
  | cookie (settings : Settings) (now later : ℚ) (did : String) (aid : Nat) (ip : String)
      (authenticationTime : Option Int)
  | session (now : ℚ) (profileId : Nat) (credential : Credential) (authAt : Option ℚ)
      (account : Option Nat)

variable {τ : Type}

def SignIn.run (signer : Signer τ) (db : Db) : SignIn → Option (Chain τ × ℚ)
  | cookie settings now later did aid ip auth =>
    match db.issueSessionCookie signer settings now later did aid ip none false none auth with
    | .ok (.signed value, db) => some (⟨db, later, [.signed value], []⟩, now)
    | .ok (.session token, db) => some (⟨db, later, [.session token], []⟩, later)
    | .error _ => none
  | session now profileId credential authAt account =>
    match db.createSession now profileId credential authAt account with
    | .ok (token, db) => some (⟨db, now, [.session token], []⟩, now)
    | .error _ => none

def chainStep (signer : Signer τ) (s : Chain τ) : Visit → Option (Chain τ)
  | .other a => some { s with db := a.run s.db, clock := a.now }
  | .verify settings now later i =>
    s.cookies[i]?.map fun cookie =>
      let (session, db) := s.db.verifySessionCookie signer settings now later cookie
      { s with db, clock := later, sessions := s.sessions ++ session.toList }
  | .switch settings now later i aid ip =>
    s.sessions[i]?.map fun session =>
      match s.db.issueSwitchedSessionCookie signer settings now later session aid ip with
      | .ok (cookie, db) => { s with db, clock := later, cookies := s.cookies ++ [cookie] }
      | .error _ => { s with clock := later }

def Cookie.aged (t now : ℚ) : Cookie τ → Prop
  | .signed _ => sessionAbsMaxAge < ⌊now⌋ - ⌊t⌋
  | .session _ => sessionAbsolute < now - t

def Chain.OnTime (s : Chain τ) : Visit → Prop
  | .other a => s.clock ≤ a.now
  | .verify _ now later _ => s.clock ≤ now ∧ now ≤ later
  | .switch _ now later _ _ _ => s.clock ≤ now ∧ now ≤ later

/-- The re-issue of a session that was signed. It keeps the start when the session is bound or
enforcement is required, and has the start of the sign-in; a new start does no harm in the second of
the sign-in, and none at all while the new signature expires within the age of the sign-in. -/
def Chain.KeepsStart (t : ℚ) (s : Chain τ) : Visit → Prop
  | .other _ | .verify _ _ _ _ => True
  | .switch settings now later i _ _ =>
    match s.sessions[i]? with
    | some (.signed p) =>
      ((s.db.enforcementRequired settings = true ∨ p.pid.isSome = true) ∧ p.iat ≤ ⌊t⌋) ∨
        ⌊now⌋ ≤ ⌊t⌋ ∨ ⌊later⌋ + sessionIdleMaxAge ≤ ⌊t⌋ + sessionAbsMaxAge
    | _ => True

instance (t now : ℚ) : (cookie : Cookie τ) → Decidable (cookie.aged t now)
  | .signed _ => inferInstanceAs (Decidable (_ < _))
  | .session _ => inferInstanceAs (Decidable (_ < _))

instance (s : Chain τ) : (v : Visit) → Decidable (s.OnTime v)
  | .other a => inferInstanceAs (Decidable (s.clock ≤ a.now))
  | .verify _ now later _ => inferInstanceAs (Decidable (s.clock ≤ now ∧ now ≤ later))
  | .switch _ now later _ _ _ => inferInstanceAs (Decidable (s.clock ≤ now ∧ now ≤ later))

instance (t : ℚ) (s : Chain τ) : (v : Visit) → Decidable (s.KeepsStart t v)
  | .other _ | .verify _ _ _ _ => .isTrue trivial
  | .switch settings now later i _ _ =>
    match h : s.sessions[i]? with
    | some (.signed p) => decidable_of_iff
        (((s.db.enforcementRequired settings = true ∨ p.pid.isSome = true) ∧ p.iat ≤ ⌊t⌋) ∨
          ⌊now⌋ ≤ ⌊t⌋ ∨ ⌊later⌋ + sessionIdleMaxAge ≤ ⌊t⌋ + sessionAbsMaxAge)
        (by simp [Chain.KeepsStart, h])
    | some (.server _) => .isTrue (by simp [Chain.KeepsStart, h])
    | none => .isTrue (by simp [Chain.KeepsStart, h])

/-- A cookie that will be refused in time: its start, or the end of its signature, is early enough;
a token ends with its session. -/
inductive Cookie.Bounded (signer : Signer τ) (t : ℚ) (s : Chain τ) : Cookie τ → Prop
  | signed {salt : Salt} {stamp : Int} {p : Payload} (hstamp : stamp ≤ ⌊s.clock⌋)
      (hbound : p.iat ≤ ⌊t⌋ ∨ stamp + sessionIdleMaxAge ≤ ⌊t⌋ + sessionAbsMaxAge) :
      Bounded signer t s (.signed (signer.dumps salt stamp p))
  | session {token : Nat} (hends : s.db.Ends (t + sessionAbsolute) token) :
      Bounded signer t s (.session token)

structure Chain.Inv (signer : Signer τ) (t : ℚ) (s : Chain τ) : Prop where
  tied : Tied False [] s.db.toAccounts
  cookies : ∀ cookie ∈ s.cookies, cookie.Bounded signer t s
  sessions : ∀ current, .server current ∈ s.sessions → s.db.Ends (t + sessionAbsolute) current.sh

variable {signer : Signer τ} {t : ℚ} {s s' : Chain τ}

theorem Chain.Inv.move (h : s.Inv signer t) {db : Db} {clock : ℚ}
    (hcarries : Accounts.Carries False s.db.toAccounts db.toAccounts) (hkeep : s.db.KeepsExpiry db)
    (hclock : s.clock ≤ clock) : Chain.Inv signer t { s with db, clock } := by
  obtain ⟨htied, hgrows⟩ := hcarries h.tied
  refine ⟨htied, fun cookie hcookie => ?_, fun current hcurrent =>
    (h.sessions current hcurrent).keep hkeep hgrows.drawn⟩
  cases h.cookies cookie hcookie with
  | signed hstamp hbound => exact .signed (hstamp.trans (Int.floor_le_floor hclock)) hbound
  | session hends => exact .session (hends.keep hkeep hgrows.drawn)

theorem Chain.Inv.issue (h : s.Inv signer t) {cookie : Cookie τ} (hcookie : cookie.Bounded signer t s) :
    Chain.Inv signer t { s with cookies := s.cookies ++ [cookie] } where
  tied := h.tied
  cookies c hc := by
    have hbounded : c.Bounded signer t s := by
      rcases List.mem_append.mp hc with hc | hc
      · exact h.cookies c hc
      · exact List.mem_singleton.mp hc ▸ hcookie
    cases hbounded with
    | signed hstamp hbound => exact .signed hstamp hbound
    | session hends => exact .session hends
  sessions := h.sessions

theorem Chain.Inv.learn (h : s.Inv signer t) {session : Option PortalSession}
    (hsession : ∀ current, session = some (.server current) →
      s.db.Ends (t + sessionAbsolute) current.sh) :
    Chain.Inv signer t { s with sessions := s.sessions ++ session.toList } where
  tied := h.tied
  cookies c hc := by
    cases h.cookies c hc with
    | signed hstamp hbound => exact .signed hstamp hbound
    | session hends => exact .session hends
  sessions current hcurrent := by
    rcases List.mem_append.mp hcurrent with hcurrent | hcurrent
    · exact h.sessions current hcurrent
    · exact hsession current (Option.mem_toList.mp hcurrent)

/-! ## Steps -/

/-- A signed cookie is verified without a write, and a token by `session`. -/
theorem Db.verify_cases (signer : Signer τ) (settings : Settings) (now later : ℚ) (cookie : Cookie τ)
    (db : Db) :
    (∃ token, cookie = .session token ∧
      db.verifySessionCookie signer settings now later cookie =
        ((db.session now token).1.map .server, (db.session now token).2)) ∨
    ((db.verifySessionCookie signer settings now later cookie).2 = db ∧
      ∀ current, (db.verifySessionCookie signer settings now later cookie).1 ≠
        some (.server current)) := by
  cases cookie with
  | session token => exact Or.inl ⟨token, rfl, rfl⟩
  | signed value =>
    refine Or.inr ?_
    have hcheck : ∀ bound p current,
        db.checkPayload settings later bound p ≠ some (.server current) := by
      intro bound p current h
      obtain ⟨_, -, h⟩ := Option.bind_eq_some_iff.mp h
      obtain ⟨_, -, h⟩ := Option.bind_eq_some_iff.mp h
      split at h
      · obtain ⟨_, -, h⟩ := Option.bind_eq_some_iff.mp h
        obtain ⟨_, -, h⟩ := Option.bind_eq_some_iff.mp h
        cases h
      · cases h
    unfold Db.verifySessionCookie
    dsimp only
    split
    · exact ⟨rfl, hcheck true _⟩
    · exact ⟨rfl, by simp⟩
    · split
      · exact ⟨rfl, hcheck false _⟩
      · exact ⟨rfl, by simp⟩
      · exact ⟨rfl, by simp⟩

variable {now later : ℚ} {settings : Settings}

theorem Chain.Inv.verify (h : s.Inv signer t) {i : Nat}
    (hclock : s.OnTime (.verify settings now later i))
    (hstep : chainStep signer s (.verify settings now later i) = some s') : s'.Inv signer t := by
  obtain ⟨cookie, hcookie, rfl⟩ := Option.map_eq_some_iff.mp hstep
  have hlater : s.clock ≤ later := hclock.1.trans hclock.2
  have hbounded := h.cookies cookie (List.mem_of_getElem? hcookie)
  have hcases := Db.verify_cases signer settings now later cookie s.db
  generalize s.db.verifySessionCookie signer settings now later cookie = verified at hcases ⊢
  rcases hcases with ⟨token, rfl, rfl⟩ | ⟨hdb, hnone⟩
  · have hkeep : s.db.KeepsExpiry (s.db.session now token).2 := Db.session_keepsExpiry token s.db
    have hmoved := h.move (Db.session_sessionsOnly token s.db).same.carries hkeep hlater
    refine hmoved.learn fun current hcurrent => ?_
    obtain ⟨current', hread, hsame⟩ := Option.map_eq_some_iff.mp hcurrent
    cases hsame
    cases hbounded with
    | session hends =>
      rw [Db.session_sh hread]
      exact hends.keep hkeep (Db.session_sessionsOnly token s.db).same.drawn
  · obtain ⟨session, db⟩ := verified
    cases hdb
    have hmoved := h.move (Accounts.Carries.refl _) (.of_sessions rfl) hlater
    exact hmoved.learn fun current hcurrent => absurd hcurrent (hnone current)

theorem Chain.Inv.switch (h : s.Inv signer t) {i aid : Nat}
    {ip : String} (hclock : s.OnTime (.switch settings now later i aid ip))
    (hkeeps : s.KeepsStart t (.switch settings now later i aid ip))
    (hstep : chainStep signer s (.switch settings now later i aid ip) = some s') :
    s'.Inv signer t := by
  obtain ⟨session, hsession, rfl⟩ := Option.map_eq_some_iff.mp hstep
  have hlater : s.clock ≤ later := hclock.1.trans hclock.2
  have hquiet := h.move (Accounts.Carries.refl _) (.of_sessions rfl) hlater
  cases hissue : s.db.issueSwitchedSessionCookie signer settings now later session aid ip with
  | error e => exact hquiet
  | ok issued =>
    obtain ⟨cookie, db⟩ := issued
    cases session with
    | server current =>
      have hends := h.sessions current (List.mem_of_getElem? hsession)
      unfold Db.issueSwitchedSessionCookie at hissue
      dsimp only at hissue
      split at hissue
      · rename_i token db' hswitch
        cases hissue
        have hmoved := h.move (Db.switchSession_sessionsOnly hswitch).same.carries
          (Db.switchSession_keepsExpiry hswitch) hlater
        exact hmoved.issue (.session (hends.switched hswitch))
      · cases hissue
    | signed p =>
      simp only [Chain.KeepsStart, hsession] at hkeeps
      unfold Db.issueSwitchedSessionCookie at hissue
      dsimp only at hissue
      split_ifs at hissue with hbound
      · rcases Db.issueSessionCookie_cases hissue with ⟨rfl, htime, salt, p', hiat, rfl⟩ | ⟨hauth, -⟩
        · refine hquiet.issue (.signed le_rfl ?_)
          rw [hiat, Option.getD_some]
          rcases hkeeps with ⟨-, hstart⟩ | hsecond | hearly
          · exact Or.inl hstart
          · exact Or.inl (htime.trans hsecond)
          · exact Or.inr hearly
        · cases hauth
      · rcases Db.issueSessionCookie_cases hissue with ⟨rfl, htime, salt, p', hiat, rfl⟩ | ⟨hauth, -⟩
        · refine hquiet.issue (.signed le_rfl ?_)
          rw [hiat, Option.getD_none]
          rcases hkeeps with ⟨hkept, -⟩ | hsecond | hearly
          · simp only [Bool.or_eq_true] at hbound
            exact absurd hkept hbound
          · exact Or.inl hsecond
          · exact Or.inr hearly
        · cases hauth

theorem Chain.Inv.step {v : Visit} (h : s.Inv signer t) (hclock : s.OnTime v)
    (hkeeps : s.KeepsStart t v) (hstep : chainStep signer s v = some s') : s'.Inv signer t := by
  cases v with
  | other a =>
    cases hstep
    exact h.move (a.run_carries (w := ⟨s.db, s.clock⟩) (fun hf => hf.elim))
      (a.run_keepsExpiry s.db) hclock
  | verify settings now later i => exact h.verify hclock hstep
  | switch settings now later i aid ip => exact h.switch hclock hkeeps hstep

/-! ## Sign-ins -/

theorem SignIn.run_inv {signIn : SignIn} {db : Db} (htied : Tied False [] db.toAccounts)
    (h : signIn.run signer db = some (s, t)) : s.Inv signer t := by
  cases signIn with
  | cookie settings now later did aid ip auth =>
    simp only [SignIn.run] at h
    split at h
    · rename_i value db' hissue
      cases h
      rcases Db.issueSessionCookie_cases hissue with
        ⟨rfl, -, salt, p, hiat, hvalue⟩ | ⟨-, _, _, _, hvalue, -⟩
      · cases hvalue
        refine ⟨htied, fun cookie hcookie => ?_, by simp⟩
        cases List.mem_singleton.mp hcookie
        exact .signed le_rfl (Or.inl hiat.le)
      · cases hvalue
    · rename_i token db' hissue
      cases h
      rcases Db.issueSessionCookie_cases hissue with
        ⟨-, -, _, _, -, hvalue⟩ | ⟨-, token', pid, authAt, hvalue, hcreate⟩
      · cases hvalue
      · cases hvalue
        have hsame := (Db.createSession_sessionsOnly hcreate).same
        refine ⟨(hsame.carries htied).1, fun cookie hcookie => ?_, by simp⟩
        cases List.mem_singleton.mp hcookie
        exact .session (Db.createSession_ends hcreate)
    · cases h
  | session now profileId credential authAt account =>
    simp only [SignIn.run] at h
    split at h
    · rename_i token db' hcreate
      cases h
      have hsame := (Db.createSession_sessionsOnly hcreate).same
      refine ⟨(hsame.carries htied).1, fun cookie hcookie => ?_, by simp⟩
      cases List.mem_singleton.mp hcookie
      exact .session (Db.createSession_ends hcreate)
    · cases h

theorem Chain.Inv.refused (h : s.Inv signer t) (hsigner : signer.Documented) {cookie : Cookie τ}
    (hcookie : cookie ∈ s.cookies) (hnow : s.clock ≤ now)
    (hlater : now ≤ later) (haged : cookie.aged t now) :
    (s.db.verifySessionCookie signer settings now later cookie).1 = none := by
  cases h.cookies cookie hcookie with
  | @signed salt stamp p hstamp hbound =>
    have haged : sessionAbsMaxAge < ⌊now⌋ - ⌊t⌋ := haged
    have hfloor : ⌊now⌋ ≤ ⌊later⌋ := Int.floor_le_floor hlater
    refine Db.verify_signed_eq_none hsigner (hstamp.trans (Int.floor_le_floor hnow)) ?_
    omega
  | @session token hends =>
    have haged : sessionAbsolute < now - t := haged
    have hpast : t + sessionAbsolute < now := by linarith
    show Option.map _ (s.db.session now token).1 = none
    rw [hends.refused hpast]
    rfl

/-- Sign-ins end: in every chain whose re-issues keep the start, every cookie is refused once the
absolute age has passed since the sign-in. -/
theorem sign_in_ends (hsigner : signer.Documented) {links : Links} {db : Db} {clock : ℚ}
    (hstart : backfilled links = .ok db) {as : List Action} {w : World}
    (hbefore : exec step ⟨db, clock⟩ as = some w) {signIn : SignIn}
    (hsign : signIn.run signer w.db = some (s, t)) {visits : List Visit}
    (hguard : Along (chainStep signer) (fun s v => s.OnTime v ∧ s.KeepsStart t v) s visits)
    (hrun : exec (chainStep signer) s visits = some s') {cookie : Cookie τ}
    (hcookie : cookie ∈ s'.cookies) {settings : Settings} {now later : ℚ} (hnow : s'.clock ≤ now)
    (hlater : now ≤ later) (haged : cookie.aged t now) :
    (s'.db.verifySessionCookie signer settings now later cookie).1 = none := by
  have htied : Tied False [] w.db.toAccounts :=
    run_tied (backfilled_tied hstart) (fun h => h.elim) hbefore
  have hinv : s'.Inv signer t :=
    exec_invariant (fun _ _ _ h hg hstep => h.step hg.1 hg.2 hstep) (SignIn.run_inv htied hsign)
      hguard hrun
  exact hinv.refused hsigner hcookie hnow hlater haged

/-! ## Six days apart -/

def plainSigner : Signer (Salt × Int × Payload) where
  dumps salt stamp p := (salt, stamp, p)
  loads salt maxAge now value :=
    if value.1 ≠ salt then .badSignature
    else if now - value.2.1 ≤ maxAge then .payload value.2.2 else .signatureExpired

theorem plainSigner_documented : plainSigner.Documented where
  own salt stamp p maxAge now _ := by simp [plainSigner]
  other salt salt' stamp p maxAge now hne := by simp [plainSigner, hne]

def onDay (n : Nat) : ℚ := 100 + 86400 * n

def discordSignIn (settings : Settings) : SignIn :=
  .cookie settings (onDay 0) (onDay 0) "4815162342" 1001 "" (some 95)

def switchOn (settings : Settings) (n i : Nat) : List Visit :=
  [.verify settings (onDay n) (onDay n) i, .switch settings (onDay n) (onDay n) i 1001 ""]

def fourSwitches (settings : Settings) : List Visit :=
  switchOn settings 6 0 ++ switchOn settings 12 1 ++ switchOn settings 18 2 ++
    switchOn settings 24 3

def unbound : Settings := ⟨false, false⟩

def enforced : Settings := ⟨true, false⟩

/-- The cookie of the fourth switch is verified on day 31. -/
theorem unbound_outlives :
    plainSigner.Documented ∧ backfilled oneLink = .ok startDb ∧
      ∃ s t s', (discordSignIn unbound).run plainSigner startDb = some (s, t) ∧
        Along (chainStep plainSigner) Chain.OnTime s (fourSwitches unbound) ∧
        exec (chainStep plainSigner) s (fourSwitches unbound) = some s' ∧ s'.clock ≤ onDay 31 ∧
        ∃ cookie ∈ s'.cookies, cookie.aged t (onDay 31) ∧
          (s'.db.verifySessionCookie plainSigner unbound (onDay 31) (onDay 31) cookie).1 ≠ none := by
  have hruns : ((discordSignIn unbound).run plainSigner startDb).any (fun p =>
      Along (chainStep plainSigner) Chain.OnTime p.1 (fourSwitches unbound) ∧
      (exec (chainStep plainSigner) p.1 (fourSwitches unbound)).any (fun s' =>
        s'.clock ≤ onDay 31 ∧ ∃ cookie ∈ s'.cookies, cookie.aged p.2 (onDay 31) ∧
          (s'.db.verifySessionCookie plainSigner unbound (onDay 31) (onDay 31) cookie).1 ≠
            none) = true) = true := by
    decide +kernel
  obtain ⟨⟨s, t⟩, hsign, hruns⟩ := (Option.any_eq_true _ _).mp hruns
  obtain ⟨hclock, hruns⟩ := of_decide_eq_true hruns
  obtain ⟨s', hs', hlast⟩ := (Option.any_eq_true _ _).mp hruns
  obtain ⟨hlater, hcookie⟩ := of_decide_eq_true hlast
  exact ⟨plainSigner_documented, backfilled_oneLink, s, t, s', hsign, hclock, hs', hlater, hcookie⟩

/-- With enforcement the start survives the four switches, and all five cookies are refused. -/
theorem sign_in_ends_enforced :
    ∃ s t s', (discordSignIn enforced).run plainSigner startDb = some (s, t) ∧
      exec (chainStep plainSigner) s (fourSwitches enforced) = some s' ∧ s'.cookies.length = 5 ∧
      ∀ cookie ∈ s'.cookies, (s'.db.verifySessionCookie plainSigner enforced (onDay 31) (onDay 31)
        cookie).1 = none := by
  have hruns : ((discordSignIn enforced).run plainSigner startDb).any (fun p =>
      Along (chainStep plainSigner) (fun s v => s.OnTime v ∧ s.KeepsStart p.2 v) p.1
        (fourSwitches enforced) ∧
      (exec (chainStep plainSigner) p.1 (fourSwitches enforced)).any (fun s' =>
        s'.clock ≤ onDay 31 ∧ s'.cookies.length = 5 ∧
          ∀ cookie ∈ s'.cookies, cookie.aged p.2 (onDay 31)) = true) = true := by
    decide +kernel
  obtain ⟨⟨s, t⟩, hsign, hruns⟩ := (Option.any_eq_true _ _).mp hruns
  obtain ⟨hguard, hruns⟩ := of_decide_eq_true hruns
  obtain ⟨s', hs', hlast⟩ := (Option.any_eq_true _ _).mp hruns
  obtain ⟨hlater, hlength, haged⟩ := of_decide_eq_true hlast
  have hbefore : exec step ⟨startDb, 0⟩ [] = some ⟨startDb, 0⟩ := rfl
  refine ⟨s, t, s', hsign, hs', hlength, fun cookie hcookie => ?_⟩
  exact sign_in_ends plainSigner_documented backfilled_oneLink hbefore hsign hguard hs' hcookie hlater
    le_rfl (haged cookie hcookie)

end LastSietch.Identity
