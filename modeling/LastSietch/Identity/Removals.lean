import LastSietch.Identity.Dead

/-!
# Removing a sign-in method

`revoke_method` refuses to remove the last method of a profile. With Discord it takes the versions
of the profile's bindings one up, and with them those sessions that are on the version of their
binding.

* `accountContext_bumped`: what the view shows of an account after that.
* `revokeMethod_cleared`: the sessions of the method are ended, and every other session answers as
  before.
* `Action.run_keepsMethods`: no operation takes the last method of a profile.
-/

namespace LastSietch.Identity

open Runs (exec exec_invariant')

namespace Db

variable {db db' mid : Db} {now t : ℚ} {linkStamp stamp : Stamp} {current : Current} {p : Nat}
  {s : Session}

/-! ## Methods of a profile -/

def HasMethod (db : Db) (p : Nat) : Prop := ∃ c, db.credentialActive p c

theorem activeSubject_isSome : (db.activeSubject p).isSome = true ↔
    ∃ d, db.credentialActive p (.discord d) := by
  unfold activeSubject
  rw [Option.isSome_map, List.find?_isSome]
  constructor
  · rintro ⟨v, hv, hactive⟩
    exact ⟨v.subject, v, Indexed.get?_eq_some.mpr ⟨hv, rfl⟩, of_decide_eq_true hactive⟩
  · rintro ⟨d, v, hv, hactive⟩
    exact ⟨v, Indexed.mem_of_get? hv, decide_eq_true hactive⟩

theorem passkeys_pos : 0 < (db.passkeys.rows.filter
      (fun k => k.profileId = p ∧ k.revokedAt = none)).length ↔
    ∃ id, db.credentialActive p (.passkey id) := by
  rw [List.length_pos_iff_exists_mem]
  constructor
  · rintro ⟨k, hk⟩
    obtain ⟨hmem, hactive⟩ := List.mem_filter.mp hk
    exact ⟨k.id, k, Table.get?_eq_some.mpr ⟨hmem, rfl⟩, of_decide_eq_true hactive⟩
  · rintro ⟨id, k, hk, hactive⟩
    exact ⟨k, List.mem_filter.mpr ⟨Table.mem_of_get? hk, decide_eq_true hactive⟩⟩

theorem usableMethods_pos : 0 < db.usableMethods p ↔ db.HasMethod p := by
  unfold usableMethods
  constructor
  · intro h
    by_cases hpassword : ∃ r ∈ db.passwords.get? p, r.revokedAt = none
    · obtain ⟨r, hr, hactive⟩ := hpassword
      exact ⟨.password r.version, r, hr, rfl, hactive⟩
    · by_cases hdiscord : (db.activeSubject p).isSome = true
      · obtain ⟨d, hd⟩ := activeSubject_isSome.mp hdiscord
        exact ⟨_, hd⟩
      · rw [if_neg hpassword, if_neg hdiscord, Nat.zero_add, Nat.add_zero] at h
        obtain ⟨id, hid⟩ := passkeys_pos.mp h
        exact ⟨_, hid⟩
  · rintro ⟨c, hc⟩
    cases c with
    | discord d =>
      rw [if_pos (activeSubject_isSome.mpr ⟨d, hc⟩)]
      exact Nat.succ_pos _
    | password version =>
      obtain ⟨r, hr, -, hactive⟩ := hc
      rw [if_pos ⟨r, hr, hactive⟩]
      omega
    | passkey id =>
      have hkeys := passkeys_pos.mpr ⟨id, hc⟩
      omega

variable {r : Removal}

theorem password_uncovered (hr : r ≠ .password)
    (h : ∃ q ∈ db.passwords.get? p, q.revokedAt = none) :
    ∃ c, db.credentialActive p c ∧ r.covers c = false := by
  obtain ⟨q, hq, hactive⟩ := h
  refine ⟨.password q.version, ⟨q, hq, rfl, hactive⟩, ?_⟩
  cases r with
  | password => exact absurd rfl hr
  | passkey id => rfl
  | discord => rfl

theorem discord_uncovered (hr : r ≠ .discord) (h : (db.activeSubject p).isSome = true) :
    ∃ c, db.credentialActive p c ∧ r.covers c = false := by
  obtain ⟨d, hd⟩ := activeSubject_isSome.mp h
  refine ⟨.discord d, hd, ?_⟩
  cases r with
  | discord => exact absurd rfl hr
  | password => rfl
  | passkey id => rfl

theorem passkey_uncovered {id : Nat} (h : 1 < (db.passkeys.rows.filter
    (fun k => k.profileId = p ∧ k.revokedAt = none)).length) :
    ∃ c, db.credentialActive p c ∧ (Removal.passkey id).covers c = false := by
  by_contra hnone
  refine absurd h (Nat.not_lt.mpr (Table.length_filter_le_one db.passkeys (k := id) ?_))
  intro k hk hactive
  by_contra hne
  refine hnone ⟨.passkey k.id, ⟨k, Table.get?_eq_some.mpr ⟨hk, rfl⟩, of_decide_eq_true hactive⟩, ?_⟩
  exact decide_eq_false hne

theorem exists_uncovered (h : 1 < db.usableMethods p) :
    ∃ c, db.credentialActive p c ∧ r.covers c = false := by
  unfold usableMethods at h
  by_cases hpassword : ∃ q ∈ db.passwords.get? p, q.revokedAt = none
  · by_cases hr : r = .password
    · subst hr
      rw [if_pos hpassword] at h
      by_cases hdiscord : (db.activeSubject p).isSome = true
      · exact discord_uncovered (by decide) hdiscord
      · rw [if_neg hdiscord] at h
        have hkey : ∃ id, db.credentialActive p (.passkey id) := passkeys_pos.mp (by omega)
        obtain ⟨id, hid⟩ := hkey
        exact ⟨_, hid, rfl⟩
    · exact password_uncovered hr hpassword
  · rw [if_neg hpassword] at h
    by_cases hdiscord : (db.activeSubject p).isSome = true
    · by_cases hr : r = .discord
      · subst hr
        rw [if_pos hdiscord] at h
        have hkey : ∃ id, db.credentialActive p (.passkey id) := passkeys_pos.mp (by omega)
        obtain ⟨id, hid⟩ := hkey
        exact ⟨_, hid, rfl⟩
      · exact discord_uncovered hr hdiscord
    · rw [if_neg hdiscord] at h
      cases r with
      | passkey id => exact passkey_uncovered (by omega)
      | password | discord =>
        have hkey : ∃ id, db.credentialActive p (.passkey id) := passkeys_pos.mp (by omega)
        obtain ⟨id, hid⟩ := hkey
        exact ⟨_, hid, rfl⟩

/-! ## What the operations keep -/

def KeepsMethods (db db' : Db) : Prop := ∀ p, db.HasMethod p → db'.HasMethod p

theorem KeepsCredentials.methods (h : db.KeepsCredentials db') : db.KeepsMethods db' := by
  rintro p ⟨c, hc⟩
  exact ⟨c, h p c hc⟩

theorem after_keeps {r : Except Refusal Db} (h : ∀ db', r = .ok db' → db.KeepsMethods db') :
    db.KeepsMethods (db.after r) := by
  cases r with
  | error e => exact fun _ hp => hp
  | ok db' => exact h db' rfl

theorem afterWith_keeps {α : Type} {r : Except Refusal (α × Db)}
    (h : ∀ x db', r = .ok (x, db') → db.KeepsMethods db') : db.KeepsMethods (db.afterWith r) := by
  cases r with
  | error e => exact fun _ hp => hp
  | ok q => exact h q.1 q.2 rfl

theorem settle_keeps {α : Type} {r : Except Refusal (α × Db)} (hmid : db.KeepsCredentials mid)
    (h : ∀ x db', r = .ok (x, db') → db.KeepsCredentials db') :
    db.KeepsCredentials (settle r mid).2 := by
  cases r with
  | error e => exact hmid
  | ok q => exact h q.1 q.2 rfl

variable {profileId accountId token : Nat}

theorem finishAuthentication_keeps (binding : String) (identifier : Nat) (profileId : Option Nat)
    (keyId : Nat) (verified : Option Nat) : db.KeepsCredentials
      (db.finishAuthentication now binding identifier profileId keyId verified).2 := by
  unfold finishAuthentication
  split
  · exact fun _ _ hc => hc
  · rename_i c mid hconsumed
    cases consumeChallenge_same hconsumed
    refine settle_keeps (fun _ _ hc => hc) (fun token db' h => ?_)
    obtain ⟨_, _, h⟩ := bind_eq_ok.mp h
    obtain ⟨k, _, h⟩ := bind_eq_ok.mp h
    obtain ⟨_, _, h⟩ := bind_eq_ok.mp h
    obtain ⟨signCount, _, h⟩ := bind_eq_ok.mp h
    have hcounted := signCount_keeps k.id signCount (db.markConsumed now identifier)
    exact hcounted.trans (createSession_sessionsOnly h).keeps

theorem bootstrapPassword_keeps {identifier : Nat} {binding name password : String}
    (h : db.bootstrapPassword now stamp identifier binding name password = .ok (token, db')) :
    db.KeepsCredentials db' := by
  obtain ⟨⟨ticket, context⟩, _, h⟩ := bind_eq_ok.mp h
  obtain ⟨begun, hbegun, h⟩ := bind_eq_ok.mp h
  obtain ⟨passwords, hins, h⟩ := bind_eq_ok.mp h
  have hkeeps : begun.KeepsCredentials { begun with passwords } :=
    keepsCredentials (fun _ _ h => h)
      (fun _ _ hr => Table.insert?_keeps (orRaise_eq_ok.mp hins) hr)
      (fun _ r hr => ⟨r, hr, rfl, rfl⟩)
  exact (bootstrapProfile_keeps hbegun).1.trans (hkeeps.trans (createSession_sessionsOnly h).keeps)

theorem bootstrapPasskey_keeps (binding : String) (identifier : Nat) (verified : Option Nat) :
    db.KeepsCredentials (db.bootstrapPasskey now stamp identifier binding verified).2 := by
  unfold bootstrapPasskey
  dsimp only
  split
  · exact fun _ _ hc => hc
  · rename_i c mid hconsumed
    obtain ⟨_, _, hconsumed⟩ := bind_eq_ok.mp hconsumed
    cases consumeChallenge_same hconsumed
    split
    · refine settle_keeps (fun _ _ hc => hc) (fun token db' h => ?_)
      obtain ⟨key, _, h⟩ := bind_eq_ok.mp h
      obtain ⟨⟨ticket, original⟩, _, h⟩ := bind_eq_ok.mp h
      obtain ⟨_, _, h⟩ := bind_eq_ok.mp h
      obtain ⟨begun, hbegun, h⟩ := bind_eq_ok.mp h
      obtain ⟨stored, hstored, h⟩ := bind_eq_ok.mp h
      have hbegun := (bootstrapProfile_keeps hbegun).1
      exact hbegun.trans ((storePasskey_keeps hstored).trans (createSession_sessionsOnly h).keeps)
    · exact fun _ _ hc => hc

theorem finishRegistration_keeps (binding : String) (identifier : Nat) (verified : Option Nat) :
    db.KeepsCredentials (db.finishRegistration now current binding identifier verified).2 := by
  unfold finishRegistration
  dsimp only
  split
  · exact fun _ _ hc => hc
  · rename_i c mid hconsumed
    obtain ⟨_, _, hconsumed⟩ := bind_eq_ok.mp hconsumed
    cases consumeChallenge_same hconsumed
    refine settle_keeps (fun _ _ hc => hc) (fun token db' h => ?_)
    obtain ⟨_, _, h⟩ := bind_eq_ok.mp h
    obtain ⟨key, _, h⟩ := bind_eq_ok.mp h
    obtain ⟨passkeys, hins, hsessions⟩ := registerPasskey_sessionsOnly h
    have hstored : db.KeepsCredentials { db with passkeys } :=
      keepsCredentials (fun _ _ h => h) (fun _ _ h => h)
        (fun k r hr => ⟨r, Table.insert?_keeps hins hr, rfl, rfl⟩)
    exact hstored.trans hsessions.keeps

theorem linkVerifiedGame_keeps {identifier : Nat} {binding : String}
    (h : db.linkVerifiedGame now linkStamp stamp current identifier binding = .ok db') :
    db.KeepsCredentials db' := by
  obtain ⟨ticket, context, links, bindings, owners, sessions, -, -, rfl, -, -⟩ :=
    linkVerifiedGame_spec h
  exact fun _ _ hc => hc

theorem unlinkAccount_keeps (h : db.unlinkAccount now linkStamp stamp current accountId = .ok db') :
    db.KeepsCredentials db' := by
  obtain ⟨b, bindings, -, -, -, rfl⟩ := unlinkAccount_spec h
  obtain ⟨_, hseat⟩ := reseatSession_spec current accountId _
  rw [hseat]
  exact fun _ _ hc => hc

theorem applyItem_keeps {item : RelinkItem} (h : db.applyItem stamp item = .ok db') :
    db.KeepsCredentials db' := by
  obtain ⟨change, acc, -, hfinish, hdb⟩ := applyItem_spec h
  have hproviders := Accounts.finishLegacyLinks_providers hfinish
  have hcred : db.KeepsCredentials { db with toAccounts := acc } :=
    keepsCredentials hproviders (fun _ _ h => h) (fun _ r hr => ⟨r, hr, rfl, rfl⟩)
  rcases hdb with rfl | ⟨b, -, rfl⟩ <;> exact hcred

theorem install_keeps (db : Db) : db.KeepsCredentials db.install := by
  unfold install
  split <;> exact fun _ _ hc => hc

/-- `set_password`: whatever the profile had, it has the password. -/
theorem setPassword_keeps {name password : String}
    (h : db.setPassword now profileId current name password = .ok (token, db')) :
    db.KeepsMethods db' := by
  obtain ⟨_, _, h⟩ := bind_eq_ok.mp h
  obtain ⟨users, _, h⟩ := bind_eq_ok.mp h
  obtain ⟨sessions, rfl, -⟩ := rotate_spec h
  rintro p ⟨c, hc⟩
  by_cases hp : p = profileId
  · subst hp
    exact ⟨.password _, _, (Table.get?_put _ _ _).trans (if_pos rfl), rfl, rfl⟩
  · refine ⟨c, credentialActive_of_get? hc (fun _ _ h _ _ => h) (fun r hr _ => ?_)
      (fun _ r hr _ _ => ⟨r, hr, rfl, rfl⟩)⟩
    exact (Table.get?_put _ _ _).trans ((if_neg (Ne.symm hp)).trans hr)

/-! ## The versions that Discord takes with it -/

/-- A binding of the profile `p` after `bumpVersions p`. -/
def bumped (p : Nat) (b : Binding) : Binding :=
  if b.profileId = p ∧ b.revokedAt = none then { b with sessionVersion := b.sessionVersion + 1 }
  else b

theorem identityLink?_version (db : Db) (b : Binding) (version : Nat) :
    db.identityLink? { b with sessionVersion := version } =
      (db.identityLink? b).map (fun row => { row with sessionVersion := version }) := by
  unfold identityLink?
  dsimp only
  cases db.profiles.get? b.profileId with
  | none => rfl
  | some q =>
    dsimp only [Option.bind_some]
    by_cases hshown : q.disabledAt = none ∧ b.revokedAt = none ∧
        (b.legacyLinkId = none ∨ ∃ l ∈ db.legacyLink? b, db.linkShown q b l)
    · rw [if_pos hshown]
      exact if_pos hshown
    · rw [if_neg hshown]
      exact if_neg hshown

theorem bumped_version (p : Nat) {b : Binding} (hactive : b.revokedAt = none) :
    (bumped p b).sessionVersion =
      if b.profileId = p then b.sessionVersion + 1 else b.sessionVersion := by
  unfold bumped
  by_cases hp : b.profileId = p
  · rw [if_pos ⟨hp, hactive⟩, if_pos hp]
  · rw [if_neg (fun h => hp h.1), if_neg hp]

theorem identityLink?_bumped (db : Db) (p : Nat) (providers : Providers) (b : Binding) :
    (bumpVersions p { db with providers }).identityLink? (bumped p b) =
      (db.identityLink? b).map (fun row =>
        { row with sessionVersion := (bumped p b).sessionVersion }) := by
  have hversion : bumped p b = { b with sessionVersion := (bumped p b).sessionVersion } := by
    unfold bumped
    split <;> rfl
  have hview := identityLink?_version db b (bumped p b).sessionVersion
  rw [← hversion] at hview
  exact hview

theorem accountContext_bumped (db : Db) (p : Nat) (providers : Providers) (q accountId : Nat) :
    (bumpVersions p { db with providers }).accountContext q accountId =
      (db.accountContext q accountId).map (fun c =>
        { c with lv := if q = p then c.lv + 1 else c.lv
                 did := ((bumpVersions p { db with providers }).discordForIdentity
                   c.identity).getD "" }) := by
  have howners : (bumpVersions p { db with providers }).owners = db.owners := rfl
  unfold accountContext
  rw [howners, get?_bumpVersions]
  cases db.owners.get? accountId with
  | none => rfl
  | some owner =>
    dsimp only [Option.bind_some]
    by_cases howner : owner.profileId = some q
    · rw [if_pos howner, if_pos howner]
      cases hb : db.bindings.get? (q, accountId) with
      | none => rfl
      | some b =>
        refine (congrArg (Option.map _) (identityLink?_bumped db p providers b)).trans ?_
        dsimp only [Option.bind_some]
        cases hrow : db.identityLink? b with
        | none => rfl
        | some row =>
          obtain ⟨-, hactive, -, -, hversion⟩ := identityLink?_spec hrow
          have hprofile : b.profileId = q := congrArg Prod.fst (Indexed.get?_eq_some.mp hb).2
          have hlv : (bumped p b).sessionVersion =
              if q = p then row.sessionVersion + 1 else row.sessionVersion := by
            rw [bumped_version p hactive, hprofile, hversion]
          dsimp only [Option.map_some]
          rw [hlv]
    · rw [if_neg howner, if_neg howner]
      rfl

/-! ## One removal -/

theorem sessionCurrent_of_context {c : AccountContext}
    (hc : db.accountContext s.profileId s.accountId = some c) (hversion : c.lv = s.linkVersion) :
    db.sessionCurrent s := by
  obtain ⟨-, b, hb, hactive, hlv, -⟩ := accountContext_spec hc
  exact ⟨b, hb, hactive, hversion.symm.trans hlv⟩

theorem bumped_row (db : Db) (p : Nat) (hs : s ∈ db.sessions) (hrevoked : s.revokedAt = none)
    (hcurrent : s.accountId ≠ 0 → db.sessionCurrent s) :
    ∃ version, { s with linkVersion := version } ∈ (db.bumpVersions p).sessions ∧
      (s.accountId ≠ 0 →
        version = if s.profileId = p then s.linkVersion + 1 else s.linkVersion) := by
  by_cases hbumped : s.profileId = p ∧ s.revokedAt = none ∧ db.sessionCurrent s
  · refine ⟨s.linkVersion + 1, mem_bumpVersions_sessions.mpr ⟨s, hs, (if_pos hbumped).symm⟩, ?_⟩
    exact fun _ => (if_pos hbumped.1).symm
  · refine ⟨s.linkVersion, mem_bumpVersions_sessions.mpr ⟨s, hs, (if_neg hbumped).symm⟩, ?_⟩
    exact fun hne => (if_neg (fun hp => hbumped ⟨hp, hrevoked, hcurrent hne⟩)).symm

theorem currentOf_context {c : AccountContext} (hne : s.accountId ≠ 0)
    (hc : db.accountContext s.profileId s.accountId = some c) :
    db.currentOf s = ⟨c.pid, c.aid, c.identity, c.lv, c.characterName, c.displayHandle, c.did, s.id,
      s.tokenHash, ⌊s.createdAt⌋, s.authAt, s.credential⟩ := by
  unfold currentOf
  rw [if_neg hne, hc]
  rfl

/-- A session that answers at the time `t` goes on to: the answer is the same but for the version
and the Discord id. -/
structure Answers (db db' : Db) (t : ℚ) (s s' : Session) : Prop where
  token : s'.tokenHash = s.tokenHash
  profile : s'.profileId = s.profileId
  credential : s'.credential = s.credential
  live : db'.live t s'
  same : ∃ lv did, db'.currentOf s' = { db.currentOf s with lv, did }

theorem answers_bumped (p : Nat) (providers : Providers) (hs : s ∈ db.sessions)
    (hcredential : db.credentialActive s.profileId s.credential →
      { db with providers }.credentialActive s.profileId s.credential) (hlive : db.live t s) :
    ∃ s' ∈ (bumpVersions p { db with providers }).sessions,
      db.Answers (bumpVersions p { db with providers }) t s s' := by
  obtain ⟨htime, hprofile, hactive, hlink⟩ := hlive
  have hcurrent : s.accountId ≠ 0 → db.sessionCurrent s := by
    intro hne
    obtain ⟨c, hc, hversion⟩ := hlink.resolve_left hne
    exact sessionCurrent_of_context hc hversion
  obtain ⟨version, hrow, hversion⟩ := bumped_row { db with providers } p hs htime.1 hcurrent
  by_cases hzero : s.accountId = 0
  · refine ⟨_, hrow, rfl, rfl, rfl, ⟨htime, hprofile, hcredential hactive, Or.inl hzero⟩, ?_⟩
    unfold currentOf
    dsimp only
    rw [if_pos hzero, if_pos hzero]
    exact ⟨_, _, rfl⟩
  · obtain ⟨c, hc, hlv⟩ := hlink.resolve_left hzero
    have hnew := accountContext_bumped db p providers s.profileId s.accountId
    rw [hc, Option.map_some] at hnew
    refine ⟨_, hrow, rfl, rfl, rfl, ⟨htime, hprofile, hcredential hactive, Or.inr ?_⟩, ?_⟩
    · refine ⟨_, hnew, ?_⟩
      dsimp only
      rw [hversion hzero, hlv]
    · have hafter := currentOf_context (s := { s with linkVersion := version }) hzero hnew
      rw [hafter, currentOf_context hzero hc]
      exact ⟨_, _, rfl⟩

theorem dropCredential_answers (h : db.dropCredential now p r = .ok mid)
    (hs : s ∈ db.sessions) (hother : ¬ (s.profileId = p ∧ r.covers s.credential = true))
    (hlive : db.live t s) : ∃ s' ∈ mid.sessions, db.Answers mid t s s' := by
  have hkeeps : db.credentialActive s.profileId s.credential →
      mid.credentialActive s.profileId s.credential := dropCredential_keeps h hother
  obtain ⟨-, rfl⟩ | ⟨id, -, rfl⟩ | ⟨-, providers, -, rfl⟩ := dropCredential_spec h
  · obtain ⟨htime, hprofile, hactive, hlink⟩ := hlive
    exact ⟨s, hs, rfl, rfl, rfl, ⟨htime, hprofile, hkeeps hactive, hlink⟩, _, _, rfl⟩
  · obtain ⟨htime, hprofile, hactive, hlink⟩ := hlive
    exact ⟨s, hs, rfl, rfl, rfl, ⟨htime, hprofile, hkeeps hactive, hlink⟩, _, _, rfl⟩
  · exact answers_bumped p providers hs hkeeps hlive

theorem dropCredential_row (h : db.dropCredential now p r = .ok mid)
    (hs : s ∈ db.sessions) {s' : Session} (hs' : s' ∈ mid.sessions)
    (htoken : s'.tokenHash = s.tokenHash) :
    s'.profileId = s.profileId ∧ s'.credential = s.credential := by
  obtain ⟨s₀, hs₀, hrow⟩ := dropCredential_sessions h hs'
  obtain ⟨htoken₀, hprofile, hcredential⟩ : s'.tokenHash = s₀.tokenHash ∧
      s'.profileId = s₀.profileId ∧ s'.credential = s₀.credential := by
    rcases hrow with rfl | ⟨-, -, -, rfl⟩ <;> exact ⟨rfl, rfl, rfl⟩
  have hsame : s₀ = s := Indexed.eq_of_entry (e := s.tokenHash) hs₀ hs
    (by simp [← htoken₀, htoken]) (by simp)
  rw [← hsame]
  exact ⟨hprofile, hcredential⟩

theorem session_eq_some (hs : s ∈ db.sessions) {c : Current} :
    (db.session t s.tokenHash).1 = some c ↔ db.live t s ∧ c = db.currentOf s := by
  unfold session
  rw [sessionByToken?_eq_some.mpr ⟨hs, rfl⟩]
  dsimp only
  by_cases hlive : db.live t s
  · rw [if_pos hlive]
    exact ⟨fun h => ⟨hlive, (Option.some.inj h).symm⟩, fun h => congrArg some h.2.symm⟩
  · rw [if_neg hlive]
    constructor
    · intro h
      cases h
    · intro h
      exact absurd h.1 hlive

end Db

open Db

/-- What the removal of a method leaves of a profile: a method, no session of the removed one, and
the answers of all other sessions, but for the version and the Discord id. -/
structure Removal.Cleared (r : Removal) (p : Nat) (db db' : Db) : Prop where
  usable : 0 < db'.usableMethods p
  ended : ∀ s ∈ db.sessions, s.profileId = p → r.covers s.credential = true →
    ∀ t, (db'.session t s.tokenHash).1 = none
  kept : ∀ s ∈ db.sessions, ¬ (s.profileId = p ∧ r.covers s.credential = true) →
    ∀ t c, (db.session t s.tokenHash).1 = some c →
      ∃ lv did, (db'.session t s.tokenHash).1 = some { c with lv, did }

theorem Db.revokeMethod_keeps {db db' : Db} {now : ℚ} {profileId : Nat} {current : Current}
    {method : Option Removal} (h : db.revokeMethod now profileId current method = .ok db') :
    db.KeepsMethods db' := by
  obtain ⟨r, mid, -, hcount, hmid, rfl⟩ := revokeMethod_spec h
  rintro p ⟨c, hc⟩
  by_cases hp : p = profileId
  · subst hp
    obtain ⟨c, hc, hother⟩ := exists_uncovered (r := r) hcount
    have huncovered : ¬ (p = p ∧ r.covers c = true) := fun h => by simp [hother] at h
    have hkept := dropCredential_keeps hmid huncovered hc
    exact ⟨c, hkept⟩
  · have hkept := dropCredential_keeps hmid (fun h => hp h.1) hc
    exact ⟨c, hkept⟩

theorem revokeMethod_cleared {db db' : Db} {now : ℚ} {p : Nat} {current : Current}
    {method : Option Removal} (h : db.revokeMethod now p current method = .ok db') :
    ∃ r, method = some r ∧ r.Cleared p db db' := by
  have hkeeps := revokeMethod_keeps h
  obtain ⟨r, mid, hr, hcount, hmid, rfl⟩ := revokeMethod_spec h
  refine ⟨r, hr, ?_, fun s hs hp hcovers t => ?_, fun s hs hother t c hc => ?_⟩
  · have hbefore : 0 < db.usableMethods p := Nat.lt_of_succ_lt hcount
    exact usableMethods_pos.mpr (hkeeps p (usableMethods_pos.mp hbefore))
  · rw [session_eq_none]
    intro s'' hs'' htoken hlive
    obtain ⟨s', hs', hrevoked⟩ := mem_revokeSessions.mp hs''
    obtain ⟨hprofile, hcredential⟩ := dropCredential_row hmid hs hs' (by
      rw [← htoken, hrevoked]
      split <;> rfl)
    by_cases hactive : s'.revokedAt = none
    · rw [if_pos ⟨hprofile.trans hp, hcredential ▸ hcovers, hactive⟩] at hrevoked
      rw [hrevoked] at hlive
      cases hlive.1.1
    · rw [if_neg (fun h => hactive h.2.2)] at hrevoked
      exact hactive (hrevoked ▸ hlive.1.1)
  · obtain ⟨hlive, rfl⟩ := (session_eq_some hs).mp hc
    obtain ⟨s', hs', hanswers⟩ := dropCredential_answers hmid hs hother hlive
    have hrow : s' ∈ (mid.revokeSessions now p (fun s => r.covers s.credential)).sessions := by
      refine mem_revokeSessions.mpr ⟨s', hs', (if_neg (fun hended => hother ?_)).symm⟩
      exact ⟨hanswers.profile.symm.trans hended.1, hanswers.credential ▸ hended.2.1⟩
    obtain ⟨lv, did, hsame⟩ := hanswers.same
    refine ⟨lv, did, ?_⟩
    rw [← hanswers.token]
    exact (session_eq_some hrow).mpr ⟨hanswers.live, hsame.symm⟩

/-! ## Runs -/

theorem AuthOp.run_keepsMethods (now : ℚ) (linkStamp stamp : Stamp) (db : Db) (op : AuthOp) :
    db.KeepsMethods (op.run now linkStamp stamp db) := by
  cases op with
  | newChallenge purpose binding profileId context code =>
    refine afterWith_keeps (fun x db' h => ?_)
    obtain ⟨challenges, rfl⟩ := newChallenge_same h
    exact fun _ hm => hm
  | verifyGameCode identifier binding code purpose profileId =>
    refine afterWith_keeps (fun x db' h => ?_)
    obtain ⟨challenges, rfl⟩ := verifyGameCode_same h
    exact fun _ hm => hm
  | session token => exact (session_sessionsOnly token db).keeps.methods
  | discordLogin discordId profileId accountId =>
    exact afterWith_keeps (fun x db' h => (discordLogin_sessionsOnly h).keeps.methods)
  | passwordLogin name password profileId =>
    exact afterWith_keeps (fun x db' h => (passwordLogin_sessionsOnly h).keeps.methods)
  | finishAuthentication binding identifier profileId keyId verified =>
    exact (finishAuthentication_keeps binding identifier profileId keyId verified).methods
  | bootstrapPassword identifier binding name password =>
    exact afterWith_keeps (fun x db' h => (bootstrapPassword_keeps h).methods)
  | bootstrapPasskey identifier binding verified =>
    exact (bootstrapPasskey_keeps binding identifier verified).methods
  | setPassword profileId current name password =>
    exact afterWith_keeps (fun x db' h => setPassword_keeps h)
  | finishRegistration current binding identifier verified =>
    exact (finishRegistration_keeps binding identifier verified).methods
  | revokeMethod profileId current method =>
    exact after_keeps (fun db' h => revokeMethod_keeps h)
  | switchSession current accountId =>
    exact afterWith_keeps (fun x db' h => (switchSession_sessionsOnly h).keeps.methods)
  | revokeSession profileId current targetId =>
    exact after_keeps (fun db' h => (revokeSession_sessionsOnly h).keeps.methods)
  | linkVerifiedGame current identifier binding =>
    exact after_keeps (fun db' h => (linkVerifiedGame_keeps h).methods)
  | unlinkAccount current accountId =>
    exact after_keeps (fun db' h => (unlinkAccount_keeps h).methods)
  | linkDiscord current discordId =>
    exact after_keeps (fun db' h => (linkDiscord_keeps h).methods)

theorem Action.run_keepsMethods (a : Action) (db : Db) : db.KeepsMethods (a.run db) := by
  unfold Action.run
  split
  · refine after_keeps (fun db' h => ?_)
    obtain ⟨acc, hchange, rfl⟩ := map_eq_ok.mp h
    have hproviders := Accounts.legacyChange_providers hchange
    have hcred : db.KeepsCredentials { db with toAccounts := acc } :=
      keepsCredentials hproviders (fun _ _ h => h) (fun _ r hr => ⟨r, hr, rfl, rfl⟩)
    exact hcred.methods
  · exact after_keeps (fun db' h => (applyItem_keeps h).methods)
  · exact (install_keeps db).methods
  · split
    · exact AuthOp.run_keepsMethods a.now a.linkStamp a.stamp db _
    · exact fun _ hm => hm

theorem run_hasMethod {p : Nat} {as : List Action} {w w' : World} (hm : w.db.HasMethod p)
    (hrun : exec step w as = some w') : w'.db.HasMethod p := by
  refine exec_invariant' (I := fun w => w.db.HasMethod p) ?_ hm hrun
  intro w a w' hm hstep
  cases hstep
  exact a.run_keepsMethods w.db p hm

/-- A removal raises and changes nothing, or leaves a method, ends the sessions of the removed one
and lets every other session answer as before; and no run of the operations takes the last method
of a profile. -/
theorem revoke_method_keeps_one :
    (∀ (db : Db) (now : ℚ) (p : Nat) (current : Current) (method : Option Removal),
      (∃ e, db.revokeMethod now p current method = .error e ∧
        db.after (db.revokeMethod now p current method) = db) ∨
      ∃ r db', method = some r ∧ db.revokeMethod now p current method = .ok db' ∧
        r.Cleared p db db') ∧
    ∀ (w w' : World) (as : List Action) (p : Nat), 0 < w.db.usableMethods p →
      exec step w as = some w' → 0 < w'.db.usableMethods p := by
  refine ⟨fun db now p current method => ?_, fun w w' as p hm hrun => ?_⟩
  · cases h : db.revokeMethod now p current method with
    | error e => exact Or.inl ⟨e, rfl, rfl⟩
    | ok db' =>
      obtain ⟨r, hr, hcleared⟩ := revokeMethod_cleared h
      exact Or.inr ⟨r, db', hr, rfl, hcleared⟩
  · exact usableMethods_pos.mpr (run_hasMethod (usableMethods_pos.mp hm) hrun)

def twoMethods : List Action :=
  signIn ++ [⟨110, 110, 110, .auth (.setPassword 0 paul "muaddib" "usul-of-the-sietch")⟩,
    ⟨120, 120, 120, .auth (.discordLogin "4815162342" none none)⟩]

def dropDiscord : Action :=
  ⟨130, 130, 130, .auth (.revokeMethod 0
    { paul with sh := 3, authAt := 110, credential := .password 1 } (some .discord))⟩

theorem twoMethods_goes : (exec step ⟨startDb, 0⟩ twoMethods).isSome = true := rfl

theorem revoke_method_keeps_one_discord :
    let w := (exec step ⟨startDb, 0⟩ twoMethods).get twoMethods_goes
    let w' : World := ⟨dropDiscord.run w.db, 130⟩
    w.db.usableMethods 0 = 2 ∧ (w.db.session 140 5).1.map (·.aid) = some 1001 ∧
      (w'.db.session 140 5).1 = none ∧
      (w'.db.session 140 3).1.map (fun c => (c.aid, c.lv)) = some (1001, 2) ∧
      0 < w'.db.usableMethods 0 :=
  ⟨by decide +kernel, by decide +kernel, by decide +kernel, by decide +kernel,
    revoke_method_keeps_one.2 _ _ [dropDiscord] 0 (by decide +kernel) rfl⟩

end LastSietch.Identity
