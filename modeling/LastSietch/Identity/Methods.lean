import LastSietch.Identity.Rows

/-!
# Sessions and the sign-in methods

What every operation that leaves the accounts of the sessions alone does to the rows: it makes a
session, it takes a new token for one, or it ends some, those of a method with the method.

* `createSession_plain`, `setPassword_plain`, `registerPasskey_plain`, `switchSession_plain`: new
  tokens.
* `revokeMethod_step`: a method that is removed.
* `session_step`: the one column that reading a session writes.
-/

namespace LastSietch.Identity

namespace Accounts

variable {acc acc' acc'' : Accounts}

def KeepsProviders (acc acc' : Accounts) : Prop :=
  ∀ d v, acc.providers.get? d = some v → acc'.providers.get? d = some v

theorem openProfile_providers {discordId : String} {e : Refusal} {id : Nat}
    (h : acc.openProfile discordId e = .ok (id, acc')) : KeepsProviders acc acc' := by
  obtain ⟨profiles, -, h⟩ := bind_eq_ok.mp h
  obtain ⟨providers, hins, h⟩ := bind_eq_ok.mp h
  cases pure_eq_ok.mp h
  exact fun d v hv => Indexed.insert?_keeps (orRaise_eq_ok.mp hins) hv

variable {change : LegacyChange}

theorem changeProfile_providers {granting : Bool} {id : Nat}
    (h : acc.changeProfile change granting = .ok (id, acc')) : KeepsProviders acc acc' := by
  unfold changeProfile at h
  split at h
  · obtain ⟨_, -, h⟩ := bind_eq_ok.mp h
    obtain ⟨_, -, h⟩ := bind_eq_ok.mp h
    exact openProfile_providers h
  · rename_i p hp
    have hsame : (p.id, acc) = (id, acc') := by
      split at h
      · obtain ⟨_, -, h⟩ := bind_eq_ok.mp h
        obtain ⟨_, -, h⟩ := bind_eq_ok.mp h
        exact pure_eq_ok.mp h
      · exact pure_eq_ok.mp h
    cases hsame
    exact fun _ _ hv => hv

theorem placeBinding_providers {profileId : Nat} {l : SourceLink}
    {found : List Binding} (h : acc.placeBinding change profileId l found = .ok acc') :
    acc'.providers = acc.providers := by
  unfold placeBinding at h
  split at h
  · obtain ⟨_, -, h⟩ := bind_eq_ok.mp h
    cases pure_eq_ok.mp h
    rfl
  · cases h
  · obtain ⟨_, -, h⟩ := bind_eq_ok.mp h
    obtain ⟨_, -, h⟩ := bind_eq_ok.mp h
    obtain ⟨_, -, h⟩ := bind_eq_ok.mp h
    cases pure_eq_ok.mp h
    rfl
  · cases h

theorem followLink_providers {profileId : Nat} {l : SourceLink}
    (h : acc.followLink change profileId l = .ok acc') : acc'.providers = acc.providers := by
  obtain ⟨settled, hsettled, h⟩ := bind_eq_ok.mp h
  rw [placeBinding_providers h]
  unfold settleOwner at hsettled
  split at hsettled
  · obtain ⟨owners, rfl, -, -⟩ := claimAccount_spec hsettled
    rfl
  · cases pure_eq_ok.mp hsettled
    rfl

theorem finishLegacyLinks_providers
    (h : finishLegacyLinks change acc = .ok acc') : KeepsProviders acc acc' := by
  obtain ⟨_, -, h⟩ := bind_eq_ok.mp h
  obtain ⟨_, -, h⟩ := bind_eq_ok.mp h
  dsimp only at h
  split at h
  · cases pure_eq_ok.mp h
    exact fun _ _ hv => hv
  · obtain ⟨_, -, h⟩ := bind_eq_ok.mp h
    obtain ⟨⟨id, mid⟩, hprofile, h⟩ := bind_eq_ok.mp h
    have hsame : acc'.providers = mid.providers := by
      refine foldlM_rule (I := fun _ a => a.providers = mid.providers) ?_ rfl h
      intro l rest a a' ha hstep
      exact (followLink_providers hstep).trans ha
    intro d v hv
    rw [hsame]
    exact changeProfile_providers hprofile d v hv

theorem legacyChange_providers {discordId : String} {allowGrant : Bool} {edit : Links → Links}
    (h : acc.legacyChange discordId allowGrant edit = .ok acc') : KeepsProviders acc acc' := by
  obtain ⟨change, -, h⟩ := bind_eq_ok.mp h
  have hkept := finishLegacyLinks_providers h
  exact hkept

end Accounts

namespace Db

open Accounts (KeepsProviders Tied)

variable {db db' mid : Db} {now clock : ℚ} {linkStamp stamp : Stamp} {current : Current}

theorem credentialActive_of_get? {p : Nat} {c : Credential} (h : db.credentialActive p c)
    (hproviders : ∀ d v, db.providers.get? d = some v → v.profileId = p →
      c = .discord d → db'.providers.get? d = some v)
    (hpasswords : ∀ r, db.passwords.get? p = some r → c = .password r.version →
      db'.passwords.get? p = some r)
    (hpasskeys : ∀ k r, db.passkeys.get? k = some r → r.profileId = p → c = .passkey k →
      ∃ r', db'.passkeys.get? k = some r' ∧ r'.profileId = r.profileId ∧
        r'.revokedAt = r.revokedAt) : db'.credentialActive p c := by
  cases c with
  | discord d =>
    obtain ⟨v, hv, hp, hr⟩ := h
    exact ⟨v, hproviders d v hv hp rfl, hp, hr⟩
  | password version =>
    obtain ⟨r, hr, hversion, hactive⟩ := h
    exact ⟨r, hpasswords r hr (congrArg _ hversion.symm), hversion, hactive⟩
  | passkey k =>
    obtain ⟨r, hr, hp, hactive⟩ := h
    obtain ⟨r', hr', hp', hactive'⟩ := hpasskeys k r hr hp rfl
    exact ⟨r', hr', hp'.trans hp, hactive'.trans hactive⟩

theorem keepsCredentials (hproviders : KeepsProviders db.toAccounts db'.toAccounts)
    (hpasswords : ∀ p r, db.passwords.get? p = some r → db'.passwords.get? p = some r)
    (hpasskeys : ∀ k r, db.passkeys.get? k = some r → ∃ r', db'.passkeys.get? k = some r' ∧
      r'.profileId = r.profileId ∧ r'.revokedAt = r.revokedAt) : db.KeepsCredentials db' :=
  fun p _ hc => credentialActive_of_get? hc (fun d v hv _ _ => hproviders d v hv)
    (fun r hr _ => hpasswords p r hr) (fun k r hr _ _ => hpasskeys k r hr)

variable {profileId key token : Nat}

theorem storePasskey_keeps {e : Refusal}
    (h : db.storePasskey profileId key e = .ok db') : db.KeepsCredentials db' := by
  obtain ⟨passkeys, hins, rfl⟩ := storePasskey_same h
  exact keepsCredentials (fun _ _ h => h) (fun _ _ h => h)
    (fun k r hr => ⟨r, Table.insert?_keeps hins hr, rfl, rfl⟩)

/-! ## New sessions -/

theorem insertSession_spec {accountId linkVersion : Nat} {credential : Credential} {authAt : ℚ}
    (h : db.insertSession now profileId credential authAt accountId linkVersion = .ok (token, db')) :
    ∃ sessions : Sessions, db' = { db with sessions, drawn := db.drawn + 2 } ∧
      ∀ s ∈ sessions, s ∈ db.sessions ∨ s.tokenHash = db.drawn + 1 ∧ s.profileId = profileId ∧
        s.credential = credential ∧ s.accountId = accountId ∧ s.linkVersion = linkVersion ∧
        s.lastSeen = now := by
  obtain ⟨sessions, hins, h⟩ := bind_eq_ok.mp h
  cases pure_eq_ok.mp h
  refine ⟨sessions, rfl, fun s hs => ?_⟩
  rcases ((Indexed.insert?_spec (orRaise_eq_ok.mp hins)).1 s).mp hs with rfl | hs
  · exact Or.inr ⟨rfl, rfl, rfl, rfl, rfl, rfl⟩
  · exact Or.inl hs

theorem createSession_plain {credential : Credential} {authAt : Option ℚ} {accountId : Option Nat}
    (h : db.createSession now profileId credential authAt accountId = .ok (token, db')) :
    db.Plain now db' := by
  obtain ⟨_, hprofile, h⟩ := bind_eq_ok.mp h
  obtain ⟨_, hcredential, h⟩ := bind_eq_ok.mp h
  obtain ⟨mid, hmid, h⟩ := bind_eq_ok.mp h
  obtain ⟨users, rfl⟩ := ensureUser_same hmid
  have hprofile := require_eq_ok.mp hprofile
  have hcredential := require_eq_ok.mp hcredential
  dsimp only at h
  obtain ⟨account, version, hlink, h⟩ : ∃ account version,
      (account ≠ 0 → ∃ c, accountContext { db with users } profileId account = some c ∧
        c.lv = version) ∧
      ∃ authAt, insertSession now profileId credential authAt account version { db with users } =
        .ok (token, db') := by
    split at h
    · exact ⟨0, 0, fun hne => absurd rfl hne, _, h⟩
    · obtain ⟨context, hcontext, h⟩ := bind_eq_ok.mp h
      exact ⟨_, _, fun _ => ⟨context, orRaise_eq_ok.mp hcontext, rfl⟩, _, h⟩
  obtain ⟨authAt, h⟩ := h
  obtain ⟨sessions, rfl, hrows⟩ := insertSession_spec h
  refine KeepsCredentials.plain (fun _ _ h => h) (fun s hs => ?_)
  rcases hrows s hs with hold | ⟨htoken, hp, hc, ha, hv, hseen⟩
  · exact Or.inl hold
  · refine Or.inr ⟨htoken ▸ Nat.le_succ _, ?_, hp ▸ hprofile, fun _ => hp ▸ hc ▸ hcredential,
      fun hne => ?_, hseen.le⟩
    · exact htoken ▸ Nat.lt_succ_self _
    · obtain ⟨c, hcontext, hversion⟩ := hlink (ha ▸ hne)
      obtain ⟨howner, b, hb, hactive, hlv, -⟩ := accountContext_spec hcontext
      subst hp ha hv
      refine ⟨howner, b, hb, (hversion.symm.trans hlv).le, fun hr => absurd hactive hr⟩

variable {discordId name password : String}

theorem discordLogin_plain {profileId accountId : Option Nat}
    (h : db.discordLogin now discordId profileId accountId = .ok (token, db')) :
    db.Plain now db' := by
  obtain ⟨_, -, h⟩ := bind_eq_ok.mp h
  obtain ⟨_, -, h⟩ := bind_eq_ok.mp h
  exact createSession_plain h

theorem passwordLogin_plain {profileId : Option Nat}
    (h : db.passwordLogin now name password profileId = .ok (token, db')) : db.Plain now db' := by
  obtain ⟨_, -, h⟩ := bind_eq_ok.mp h
  obtain ⟨_, -, h⟩ := bind_eq_ok.mp h
  obtain ⟨_, -, h⟩ := bind_eq_ok.mp h
  obtain ⟨_, -, h⟩ := bind_eq_ok.mp h
  exact createSession_plain h

theorem signCount_keeps (id signCount : Nat) (db : Db) : db.KeepsCredentials
    { db with passkeys := db.passkeys.update (fun r => r.id = id)
                (fun r => { r with signCount := signCount }) } := by
  refine keepsCredentials (fun _ _ h => h) (fun _ _ h => h) (fun i r hr => ?_)
  refine ⟨_, (Table.get?_update db.passkeys (fun r => r.id = id)
    (fun r => { r with signCount := signCount }) (fun _ => rfl) i).trans (congrArg _ hr), ?_, ?_⟩
  · dsimp only
    split <;> rfl
  · dsimp only
    split <;> rfl

theorem usePasskey_plain {k : Passkey} {signCount : Nat}
    (h : db.usePasskey now k signCount = .ok (token, db')) : db.Plain now db' := by
  unfold usePasskey at h
  exact (createSession_plain h).after (signCount_keeps k.id signCount db) rfl le_rfl

theorem bootstrapProfile_keeps {ticket : Challenge} {context : GameContext}
    (h : db.bootstrapProfile now stamp ticket context name = .ok db') :
    db.KeepsCredentials db' ∧ db'.sessions = db.sessions ∧ db'.drawn = db.drawn := by
  obtain ⟨_, _, _, _, -, -, -, rfl⟩ := bootstrapProfile_spec h
  exact ⟨fun _ _ h => h, rfl, rfl⟩

theorem bootstrapPassword_plain {identifier : Nat} {binding : String}
    (h : db.bootstrapPassword now stamp identifier binding name password = .ok (token, db')) :
    db.Plain now db' := by
  obtain ⟨⟨ticket, context⟩, -, h⟩ := bind_eq_ok.mp h
  obtain ⟨begun, hbegun, h⟩ := bind_eq_ok.mp h
  obtain ⟨passwords, hins, h⟩ := bind_eq_ok.mp h
  obtain ⟨hcred, hsessions, hdrawn⟩ := bootstrapProfile_keeps hbegun
  have hkeeps : begun.KeepsCredentials { begun with passwords } :=
    keepsCredentials (fun _ _ h => h)
      (fun _ _ hr => Table.insert?_keeps (orRaise_eq_ok.mp hins) hr)
      (fun _ r hr => ⟨r, hr, rfl, rfl⟩)
  have hplain := createSession_plain h
  exact hplain.after (fun p c hc => hkeeps p c (hcred p c hc)) hsessions hdrawn.ge

theorem bootstrapWithKey_plain {binding : String} {context : GameContext} {gameTicket : Nat}
    (h : db.bootstrapWithKey now stamp binding context name gameTicket key = .ok (token, db')) :
    db.Plain now db' := by
  obtain ⟨⟨ticket, original⟩, -, h⟩ := bind_eq_ok.mp h
  obtain ⟨_, -, h⟩ := bind_eq_ok.mp h
  obtain ⟨begun, hbegun, h⟩ := bind_eq_ok.mp h
  obtain ⟨stored, hstored, h⟩ := bind_eq_ok.mp h
  obtain ⟨hcred, hsessions, hdrawn⟩ := bootstrapProfile_keeps hbegun
  have hkeeps := storePasskey_keeps hstored
  obtain ⟨passkeys, -, rfl⟩ := storePasskey_same hstored
  have hplain := createSession_plain h
  exact hplain.after (fun p c hc => hkeeps p c (hcred p c hc)) hsessions hdrawn.ge

theorem settle_plain {α : Type} {r : Except Refusal (α × Db)} (hmid : db.Plain now mid)
    (h : ∀ x db', r = .ok (x, db') → db.Plain now db') : db.Plain now (settle r mid).2 := by
  cases r with
  | error e => exact hmid
  | ok p => exact h p.1 p.2 rfl

theorem finishAuthentication_plain (binding : String) (identifier : Nat) (profileId : Option Nat)
    (keyId : Nat) (verified : Option Nat) : db.Plain now
      (db.finishAuthentication now binding identifier profileId keyId verified).2 := by
  unfold finishAuthentication
  split
  · exact KeepsCredentials.quiet (fun _ _ h => h) rfl
  · rename_i c mid hconsumed
    cases consumeChallenge_same hconsumed
    refine settle_plain (KeepsCredentials.quiet (fun _ _ h => h) rfl) (fun token db' h => ?_)
    obtain ⟨_, -, h⟩ := bind_eq_ok.mp h
    obtain ⟨k, -, h⟩ := bind_eq_ok.mp h
    obtain ⟨_, -, h⟩ := bind_eq_ok.mp h
    obtain ⟨_, -, h⟩ := bind_eq_ok.mp h
    have hplain := usePasskey_plain h
    exact hplain.after (fun _ _ h => h) rfl le_rfl

/-! ## New tokens for a session -/

theorem requireRecent_spec {u : Unit} (h : db.requireRecent now profileId current = .ok u) :
    current.pid = profileId ∧ ∃ s ∈ db.sessions, s.id = current.sid ∧ s.profileId = profileId ∧
      s.revokedAt = none := by
  obtain ⟨_, hpid, h⟩ := bind_eq_ok.mp h
  obtain ⟨s, hs, -⟩ := bind_eq_ok.mp h
  have hs := orRaise_eq_ok.mp hs
  have hfound := List.find?_some hs
  simp only [decide_eq_true_eq] at hfound
  exact ⟨require_eq_ok.mp hpid, s, List.mem_of_find?_eq_some hs, hfound.1, hfound.2.2.1,
    hfound.2.2.2.1⟩

theorem rotate_spec {id : Nat} {f : Session → Session} {hf : ∀ s, (f s).id = s.id}
    (h : db.rotate id f hf = .ok (token, db')) :
    ∃ sessions : Sessions, db' = { db with sessions, drawn := db.drawn + 1 } ∧
      ∀ s' ∈ sessions, ∃ s ∈ db.sessions,
        s' = if s.id = id then { f s with tokenHash := db.drawn } else s := by
  obtain ⟨sessions, hupd, h⟩ := bind_eq_ok.mp h
  cases pure_eq_ok.mp h
  refine ⟨sessions, rfl, fun s' hs' => ?_⟩
  obtain ⟨s, hs, rfl⟩ := (Indexed.update?_spec (orRaise_eq_ok.mp hupd) s').mp hs'
  refine ⟨s, hs, ?_⟩
  simp only [decide_eq_true_eq]

theorem mem_revokeSessions {p : Session → Bool} {s' : Session} :
    s' ∈ (db.revokeSessions now profileId p).sessions ↔ ∃ s ∈ db.sessions,
      s' = if s.profileId = profileId ∧ p s = true ∧ s.revokedAt = none
        then { s with revokedAt := some now } else s := by
  unfold revokeSessions
  dsimp only
  rw [Indexed.mem_update]
  simp only [Bool.and_eq_true, decide_eq_true_eq, and_assoc]

theorem switchSession_plain {accountId : Nat} (hclock : clock ≤ now)
    (hs : ∀ s ∈ db.sessions, db.Sound clock s)
    (h : db.switchSession now current accountId = .ok (token, db')) : db.Plain now db' := by
  obtain ⟨r, hr, h⟩ := bind_eq_ok.mp h
  obtain ⟨context, hcontext, h⟩ := bind_eq_ok.mp h
  obtain ⟨_, -, h⟩ := bind_eq_ok.mp h
  obtain ⟨sessions, rfl, hrows⟩ := rotate_spec h
  have hr := orRaise_eq_ok.mp hr
  have hmem : r ∈ db.sessions := List.mem_of_find?_eq_some hr
  have hfound := List.find?_some hr
  simp only [decide_eq_true_eq] at hfound
  obtain ⟨hid, -, hpid, -⟩ := hfound
  obtain ⟨howner, b, hb, hactive, hlv, -⟩ := accountContext_spec (orRaise_eq_ok.mp hcontext)
  refine KeepsCredentials.plain (fun _ _ h => h) (fun s' hs' => ?_)
  obtain ⟨s, hsmem, rfl⟩ := hrows s' hs'
  by_cases hsid : s.id = current.sid
  · rw [if_pos hsid]
    have hsr : s = r := Indexed.eq_of_key_eq hsmem hmem (hsid.trans hid.symm)
    have hsound := hs s hsmem
    have hsp : s.profileId = current.pid := hsr ▸ hpid
    refine Or.inr ⟨le_rfl, Nat.lt_succ_self _, hsound.profile, hsound.credential, fun _ => ?_,
      hsound.seen.trans hclock⟩
    unfold Accounts.LinkSound
    dsimp only
    rw [hsp]
    exact ⟨howner, b, hb, hlv.le, fun hrev => absurd hactive hrev⟩
  · rw [if_neg hsid]
    exact Or.inl hsmem

/-- The session `current` gets a new token, and the others of the profile are ended. -/
theorem rotated_plain {f : Session → Session} {hid : ∀ s, (f s).id = s.id}
    (hclock : clock ≤ now) (hs : ∀ s ∈ db.sessions, db.Sound clock s)
    (hcurrent : ∃ s ∈ db.sessions, s.id = current.sid ∧ s.profileId = profileId ∧
      s.revokedAt = none)
    (haccounts : mid.toAccounts = db.toAccounts) (hsessions : mid.sessions = db.sessions)
    (hf : ∀ s, (f s).profileId = s.profileId ∧ (f s).accountId = s.accountId ∧
      (f s).linkVersion = s.linkVersion ∧ (f s).lastSeen = s.lastSeen)
    (hnew : ∀ s ∈ db.sessions, s.profileId = profileId → s.revokedAt = none →
      mid.credentialActive profileId (f s).credential)
    (hother : ∀ p c, p ≠ profileId → db.credentialActive p c → mid.credentialActive p c)
    (h : (mid.revokeSessions now profileId (fun s => s.id ≠ current.sid)).rotate current.sid f hid =
      .ok (token, db')) : db.Plain now db' := by
  obtain ⟨sessions, rfl, hrows⟩ := rotate_spec h
  obtain ⟨r, hr, hrid, hprofile, hactive⟩ := hcurrent
  intro s' hs'
  obtain ⟨m, hm, rfl⟩ := hrows s' hs'
  obtain ⟨s, hmem, rfl⟩ := mem_revokeSessions.mp hm
  have hmem : s ∈ db.sessions := hsessions ▸ hmem
  have hdrawn : mid.drawn = db.drawn := congrArg Accounts.drawn haccounts
  have hsound := hs s hmem
  obtain ⟨hfp, hfa, hfv, hfs⟩ := hf s
  by_cases hsid : s.id = current.sid
  · have hsr : s = r := Indexed.eq_of_key_eq hmem hr (hsid.trans hrid.symm)
    have hkept : ¬ (s.profileId = profileId ∧ decide (s.id ≠ current.sid) = true ∧
        s.revokedAt = none) := fun hended => of_decide_eq_true hended.2.1 hsid
    rw [if_neg hkept, if_pos hsid]
    refine Or.inl ⟨hdrawn.ge, Nat.lt_succ_self _, ?_, fun _ => ?_, fun hne => ?_, ?_⟩
    · obtain ⟨p, hp, henabled⟩ := hsound.profile
      refine ⟨p, ?_, henabled⟩
      have hprofiles : mid.profiles = db.profiles := congrArg Accounts.profiles haccounts
      exact hprofiles ▸ hfp ▸ hp
    · have hnew := hnew s hmem (hsr ▸ hprofile) (hsr ▸ hactive)
      have hsp : s.profileId = profileId := hsr ▸ hprofile
      exact (hfp.trans hsp) ▸ hnew
    · have hlink := hsound.link (hfa ▸ hne)
      rw [← haccounts] at hlink
      unfold Accounts.LinkSound at hlink ⊢
      dsimp only
      rw [hfp, hfa, hfv]
      exact hlink
    · exact hfs.le.trans (hsound.seen.trans hclock)
  · refine Or.inr ⟨s, hmem, ?_⟩
    by_cases hended : s.profileId = profileId ∧ s.revokedAt = none
    · have hrevoked : s.profileId = profileId ∧ decide (s.id ≠ current.sid) = true ∧
          s.revokedAt = none := ⟨hended.1, decide_eq_true hsid, hended.2⟩
      rw [if_pos hrevoked]
      dsimp only
      rw [if_neg hsid]
      exact ⟨some now, rfl, fun hn => by cases hn⟩
    · have hkept : ¬ (s.profileId = profileId ∧ decide (s.id ≠ current.sid) = true ∧
          s.revokedAt = none) := fun hall => hended ⟨hall.1, hall.2.2⟩
      rw [if_neg hkept, if_neg hsid]
      exact ⟨s.revokedAt, rfl, fun hn => ⟨hn, hother _ _ (fun hp => hended ⟨hp, hn⟩)⟩⟩

theorem setPassword_plain (hclock : clock ≤ now) (hs : ∀ s ∈ db.sessions, db.Sound clock s)
    (h : db.setPassword now profileId current name password = .ok (token, db')) :
    db.Plain now db' := by
  obtain ⟨_, hrecent, h⟩ := bind_eq_ok.mp h
  obtain ⟨users, -, h⟩ := bind_eq_ok.mp h
  dsimp only at h
  refine rotated_plain hclock hs (requireRecent_spec hrecent).2 ?_ ?_ ?_ ?_ ?_ h
  · rfl
  · rfl
  · exact fun s => ⟨rfl, rfl, rfl, rfl⟩
  · exact fun s _ _ _ => ⟨_, (Table.get?_put _ _ _).trans (if_pos rfl), rfl, rfl⟩
  · intro p c hne hc
    refine credentialActive_of_get? hc (fun _ _ h _ _ => h) (fun r hr _ => ?_)
      (fun _ r hr _ _ => ⟨r, hr, rfl, rfl⟩)
    exact (Table.get?_put _ _ _).trans ((if_neg (Ne.symm hne)).trans hr)

theorem registerPasskey_plain (hclock : clock ≤ now) (hs : ∀ s ∈ db.sessions, db.Sound clock s)
    (h : db.registerPasskey now current key = .ok (token, db')) : db.Plain now db' := by
  obtain ⟨_, hrecent, h⟩ := bind_eq_ok.mp h
  obtain ⟨mid, hmid, h⟩ := bind_eq_ok.mp h
  have hkeeps := storePasskey_keeps hmid
  obtain ⟨passkeys, -, rfl⟩ := storePasskey_same hmid
  dsimp only at h
  refine rotated_plain hclock hs (requireRecent_spec hrecent).2 ?_ ?_ ?_ ?_ ?_ h
  · rfl
  · rfl
  · exact fun s => ⟨rfl, rfl, rfl, rfl⟩
  · exact fun s hmem hp hactive => hkeeps _ _ (hp ▸ (hs s hmem).credential hactive)
  · exact fun p c _ hc => hkeeps p c hc

theorem finishRegistration_plain (hclock : clock ≤ now) (hs : ∀ s ∈ db.sessions, db.Sound clock s)
    (binding : String) (identifier : Nat) (verified : Option Nat) :
    db.Plain now (db.finishRegistration now current binding identifier verified).2 := by
  unfold finishRegistration
  dsimp only
  split
  · exact KeepsCredentials.quiet (fun _ _ h => h) rfl
  · rename_i c mid hconsumed
    obtain ⟨_, -, hconsumed⟩ := bind_eq_ok.mp hconsumed
    cases consumeChallenge_same hconsumed
    refine settle_plain (KeepsCredentials.quiet (fun _ _ h => h) rfl) (fun token db' h => ?_)
    obtain ⟨_, -, h⟩ := bind_eq_ok.mp h
    obtain ⟨_, -, h⟩ := bind_eq_ok.mp h
    have hsound : ∀ s ∈ (db.markConsumed now identifier).sessions,
        (db.markConsumed now identifier).Sound clock s :=
      fun s hmem => ⟨(hs s hmem).token, (hs s hmem).profile, (hs s hmem).credential,
        (hs s hmem).link, (hs s hmem).seen⟩
    have hplain := registerPasskey_plain hclock hsound h
    exact hplain.after (fun _ _ h => h) rfl le_rfl

theorem bootstrapPasskey_plain (binding : String) (identifier : Nat) (verified : Option Nat) :
    db.Plain now (db.bootstrapPasskey now stamp identifier binding verified).2 := by
  unfold bootstrapPasskey
  dsimp only
  split
  · exact KeepsCredentials.quiet (fun _ _ h => h) rfl
  · rename_i c mid hconsumed
    obtain ⟨_, -, hconsumed⟩ := bind_eq_ok.mp hconsumed
    cases consumeChallenge_same hconsumed
    split
    · refine settle_plain (KeepsCredentials.quiet (fun _ _ h => h) rfl) (fun token db' h => ?_)
      obtain ⟨_, -, h⟩ := bind_eq_ok.mp h
      have hplain := bootstrapWithKey_plain h
      exact hplain.after (fun _ _ h => h) rfl le_rfl
    · exact KeepsCredentials.quiet (fun _ _ h => h) rfl

/-! ## Sessions and methods that end -/

theorem revokeSession_plain {targetId : Nat}
    (h : db.revokeSession now profileId current targetId = .ok db') : db.Plain now db' := by
  obtain ⟨_, -, h⟩ := bind_eq_ok.mp h
  obtain ⟨_, -, h⟩ := bind_eq_ok.mp h
  cases pure_eq_ok.mp h
  intro s' hs'
  obtain ⟨s, hmem, rfl⟩ := mem_revokeSessions.mp hs'
  refine Or.inr ⟨s, hmem, ?_⟩
  split
  · exact ⟨some now, rfl, fun hn => by cases hn⟩
  · exact ⟨s.revokedAt, rfl, fun hn => ⟨hn, fun hc => hc⟩⟩

theorem linkDiscord_keeps
    (h : db.linkDiscord now current discordId = .ok db') : db.KeepsCredentials db' := by
  obtain ⟨_, _, h⟩ := bind_eq_ok.mp h
  obtain ⟨_, _, h⟩ := bind_eq_ok.mp h
  obtain ⟨_, _, h⟩ := bind_eq_ok.mp h
  obtain ⟨_, _, h⟩ := bind_eq_ok.mp h
  obtain ⟨providers, hproviders, h⟩ := bind_eq_ok.mp h
  cases pure_eq_ok.mp h
  have hproviders := orRaise_eq_ok.mp hproviders
  intro p c hc
  cases c with
  | password version => exact hc
  | passkey k => exact hc
  | discord d =>
    obtain ⟨v, hv, hp, hr⟩ := hc
    split at hproviders
    · exact ⟨v, Indexed.insert?_keeps hproviders hv, hp, hr⟩
    · refine ⟨_, (Indexed.get?_update? hproviders d).trans (congrArg _ hv), ?_⟩
      dsimp only
      split
      · exact ⟨hp, rfl⟩
      · exact ⟨hp, hr⟩

theorem linkDiscord_plain
    (h : db.linkDiscord now current discordId = .ok db') : db.Plain now db' := by
  have hkeeps := linkDiscord_keeps h
  obtain ⟨providers, rfl⟩ := linkDiscord_same h
  exact hkeeps.quiet rfl

theorem dropCredential_keeps {method : Removal}
    (h : db.dropCredential now profileId method = .ok db') {p : Nat} {c : Credential}
    (hother : ¬ (p = profileId ∧ method.covers c = true)) (hc : db.credentialActive p c) :
    db'.credentialActive p c := by
  obtain ⟨rfl, rfl⟩ | ⟨id, rfl, rfl⟩ | ⟨rfl, providers, hupd, rfl⟩ := dropCredential_spec h
  · refine credentialActive_of_get? hc (fun _ _ h _ _ => h) (fun r hr hpw => ?_)
      (fun _ r hr _ _ => ⟨r, hr, rfl, rfl⟩)
    have hp : r.profileId ≠ profileId := by
      rintro rfl
      exact hother ⟨(Table.get?_eq_some.mp hr).2.symm, by rw [hpw]; rfl⟩
    rw [Table.get?_update, hr]
    simp [hp]
  · refine credentialActive_of_get? hc (fun _ _ h _ _ => h) (fun _ h _ => h)
      (fun k r hr hp hk => ⟨r, ?_, rfl, rfl⟩)
    have hne : ¬ (r.profileId = profileId ∧ r.id = id ∧ r.revokedAt = none) := by
      rintro ⟨hrp, rfl, -⟩
      refine hother ⟨hp.symm.trans hrp, ?_⟩
      rw [hk, ← (Table.get?_eq_some.mp hr).2]
      exact decide_eq_true rfl
    rw [Table.get?_update, hr]
    simp [hne]
  · refine credentialActive_of_get? hc (fun d v hv hp hd => ?_) (fun _ h _ => h)
      (fun _ r hr _ _ => ⟨r, hr, rfl, rfl⟩)
    have hne : v.profileId ≠ profileId := by
      intro hvp
      exact hother ⟨hp.symm.trans hvp, by rw [hd]; rfl⟩
    refine (Indexed.get?_update? hupd d).trans ?_
    rw [hv]
    simp [hne]

theorem mem_bumpVersions_sessions {s' : Session} :
    s' ∈ (db.bumpVersions profileId).sessions ↔ ∃ s ∈ db.sessions,
      s' = if s.profileId = profileId ∧ s.revokedAt = none ∧ db.sessionCurrent s
        then { s with linkVersion := s.linkVersion + 1 } else s := by
  unfold bumpVersions
  dsimp only
  rw [Indexed.mem_update]
  simp only [decide_eq_true_eq]

theorem dropCredential_sessions {method : Removal}
    (h : db.dropCredential now profileId method = .ok db') {s' : Session}
    (hs' : s' ∈ db'.sessions) : ∃ s ∈ db.sessions, s' = s ∨ db.sessionCurrent s ∧
      db'.sessionCurrent s' ∧ db'.owners = db.owners ∧
        s' = { s with linkVersion := s.linkVersion + 1 } := by
  obtain ⟨-, rfl⟩ | ⟨id, -, rfl⟩ | ⟨-, providers, -, rfl⟩ := dropCredential_spec h
  · exact ⟨s', hs', Or.inl rfl⟩
  · exact ⟨s', hs', Or.inl rfl⟩
  · obtain ⟨s, hs, rfl⟩ := mem_bumpVersions_sessions.mp hs'
    refine ⟨s, hs, ?_⟩
    split
    · rename_i hbumped
      obtain ⟨hprofile, -, b, hb, hactive, hversion⟩ := hbumped
      have hbp : b.profileId = profileId :=
        (congrArg Prod.fst (Indexed.get?_eq_some.mp hb).2).trans hprofile
      have hbumped := get?_bumpVersions profileId { db with providers } (s.profileId, s.accountId)
      rw [hb, Option.map_some, if_pos ⟨hbp, hactive⟩] at hbumped
      exact Or.inr ⟨⟨b, hb, hactive, hversion⟩,
        ⟨_, hbumped, hactive, congrArg (· + 1) hversion⟩, rfl, rfl⟩
    · exact Or.inl rfl

end Db

end LastSietch.Identity
