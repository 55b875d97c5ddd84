import LastSietch.Identity.Methods

/-!
# The account of a session

The operations that give a session another account or another version of it. `revoke_method` takes
only the sessions with it that are on the version of their binding; `apply_item`,
`link_verified_game` and `unlink_account` write the version of the new binding whatever the session
had (`Op.reseats`).
-/

namespace LastSietch.Identity

open Accounts (Tied Grows)

def Op.reseats (db : Db) (s : Session) : Op → Prop
  | applyItem item => s.accountId = item.old ∧
      ∃ p ∈ db.profiles.get? s.profileId, p.legacyDiscordId = some item.discordId
  | auth (.linkVerifiedGame current _ _) =>
      current.aid = 0 ∧ s.id = current.sid ∧ s.tokenHash = current.sh
  | auth (.unlinkAccount current account) => current.aid = account ∧ s.id = current.sid
  | _ => False

instance (db : Db) (s : Session) : (op : Op) → Decidable (op.reseats db s)
  | .applyItem _ => inferInstanceAs (Decidable (_ ∧ ∃ p ∈ db.profiles.get? s.profileId, _))
  | .auth (.linkVerifiedGame _ _ _) => inferInstanceAs (Decidable (_ ∧ _))
  | .auth (.unlinkAccount _ _) => inferInstanceAs (Decidable (_ ∧ _))
  | .legacyChange _ _ _ | .install => .isFalse id
  | .auth (.newChallenge _ _ _ _ _) | .auth (.verifyGameCode _ _ _ _ _) => .isFalse id
  | .auth (.session _) | .auth (.discordLogin _ _ _) | .auth (.passwordLogin _ _ _) => .isFalse id
  | .auth (.finishAuthentication _ _ _ _ _) | .auth (.bootstrapPassword _ _ _ _) => .isFalse id
  | .auth (.bootstrapPasskey _ _ _) | .auth (.setPassword _ _ _ _) => .isFalse id
  | .auth (.finishRegistration _ _ _ _) | .auth (.revokeMethod _ _ _) => .isFalse id
  | .auth (.switchSession _ _) | .auth (.revokeSession _ _ _) => .isFalse id
  | .auth (.linkDiscord _ _) => .isFalse id

namespace Db

variable {db db' : Db} {now clock : ℚ} {linkStamp stamp : Stamp} {current : Current} {s s' : Session}

theorem session_step (token : Nat) (db : Db) : db.SessionStep now (db.session now token).2 := by
  have hsame : db.SessionStep now db := (KeepsCredentials.quiet (fun _ _ h => h) rfl).step
  unfold session
  split
  · exact hsame
  · rename_i s hs
    split
    · rename_i hlive
      unfold touch
      split
      · intro s' hs'
        simp only [Indexed.mem_update, decide_eq_true_eq] at hs'
        obtain ⟨r, hr, rfl⟩ := hs'
        refine Or.inr ⟨r, hr, ?_⟩
        split
        · rename_i hid
          have hrs : r = s := Indexed.eq_of_key_eq hr (List.mem_of_find?_eq_some hs) hid.1
          exact ⟨rfl, rfl, rfl, rfl, fun h => h, Or.inr ⟨rfl, hrs ▸ hlive⟩, Or.inl ⟨rfl, rfl⟩,
            fun _ h => h⟩
        · exact ⟨rfl, rfl, rfl, rfl, fun h => h, Or.inl rfl, Or.inl ⟨rfl, rfl⟩, fun _ h => h⟩
      · exact hsame
    · exact hsame

variable {profileId accountId : Nat}

theorem revokeMethod_step {method : Option Removal}
    (ht : Tied False [] db.toAccounts) (hs : ∀ s ∈ db.sessions, db.Sound clock s)
    (h : db.revokeMethod now profileId current method = .ok db') : db.SessionStep now db' := by
  obtain ⟨r, dropped, -, -, hdropped, rfl⟩ := revokeMethod_spec h
  intro s'' hs''
  obtain ⟨s', hs', rfl⟩ := mem_revokeSessions.mp hs''
  obtain ⟨s, hmem, hrow⟩ := dropCredential_sessions hdropped hs'
  have hsound := hs s hmem
  have haccount : (s'.accountId = s.accountId ∧ s'.linkVersion = s.linkVersion) ∨
      (s.inTime now → db.linkLive s) ∧ (s'.accountId ≠ 0 → dropped.LinkSound s') := by
    rcases hrow with rfl | ⟨hcurrent, ⟨b, hb, hactive, hversion⟩, howners, rfl⟩
    · exact Or.inl ⟨rfl, rfl⟩
    · refine Or.inr ⟨fun _ => (linkLive_iff ht hsound.profile hsound.link).mpr (Or.inr hcurrent),
        fun hne => ⟨?_, b, hb, hversion.le, fun hr => absurd hactive hr⟩⟩
      rw [howners]
      exact (hsound.link hne).1
  obtain ⟨htoken, hprofile, hcredential, hexpires, hrevoked, hseen⟩ :
      s'.tokenHash = s.tokenHash ∧ s'.profileId = s.profileId ∧ s'.credential = s.credential ∧
        s'.expiresAt = s.expiresAt ∧ s'.revokedAt = s.revokedAt ∧ s'.lastSeen = s.lastSeen := by
    rcases hrow with rfl | ⟨-, -, -, rfl⟩ <;> exact ⟨rfl, rfl, rfl, rfl, rfl, rfl⟩
  refine Or.inr ⟨s, hmem, ?_⟩
  split
  · have hended : some now ≠ none := Option.some_ne_none _
    exact ⟨htoken, hprofile, hcredential, hexpires, fun hn => absurd hn hended, Or.inl hseen,
      haccount, fun hn => absurd hn hended⟩
  · rename_i hother
    refine ⟨htoken, hprofile, hcredential, hexpires, fun hn => hrevoked ▸ hn, Or.inl hseen, haccount,
      fun hn hc => dropCredential_keeps hdropped (fun hcovered => hother ?_) hc⟩
    exact ⟨hprofile.trans hcovered.1, hcredential ▸ hcovered.2, hn⟩

/-! ## Other accounts -/

theorem linkSound_of_active {b : Binding} (ht : Tied False [] db.toAccounts)
    (hinstalled : db.installed = true) (hb : b ∈ db.bindings) (hactive : b.revokedAt = none)
    (hprofile : s.profileId = b.profileId) (haccount : s.accountId = b.accountId)
    (hversion : s.linkVersion = b.sessionVersion) : db.LinkSound s := by
  refine ⟨?_, b, Indexed.get?_eq_some.mpr ⟨hb, ?_⟩, hversion.le, fun hr => absurd hactive hr⟩
  · rw [haccount, hprofile]
    exact ht.owned hinstalled b hb hactive
  · exact Prod.ext hprofile.symm haccount.symm

theorem carried_seat {linkVersion : Nat} (hlive : s.inTime now → db.linkLive s)
    (hlink : accountId ≠ 0 → db'.LinkSound { s with accountId, linkVersion })
    (hcred : db.KeepsCredentials db') : db.Carried db' now s { s with accountId, linkVersion } :=
  ⟨rfl, rfl, rfl, rfl, fun h => h, Or.inl rfl, Or.inr ⟨hlive, hlink⟩, fun _ => hcred _ _⟩

theorem carried_same (hcred : db.KeepsCredentials db') : db.Carried db' now s s :=
  ⟨rfl, rfl, rfl, rfl, fun h => h, Or.inl rfl, Or.inl ⟨rfl, rfl⟩, fun _ => hcred _ _⟩

theorem bindAccount_spec {context : GameContext}
    (h : db.bindAccount linkStamp stamp profileId context = .ok db') :
    ∃ links bindings, db' = { db with links, bindings } ∧
      ∃ b ∈ bindings.get? (profileId, context.accountId), b.revokedAt = none := by
  unfold bindAccount at h
  split at h
  · rename_i b hb
    obtain ⟨_, -, h⟩ := bind_eq_ok.mp h
    obtain ⟨bindings, hupd, h⟩ := bind_eq_ok.mp h
    cases pure_eq_ok.mp h
    refine ⟨_, bindings, rfl, _, (Indexed.get?_update? (orRaise_eq_ok.mp hupd) _).trans
      (congrArg _ hb), ?_⟩
    simp
  · obtain ⟨_, -, h⟩ := bind_eq_ok.mp h
    obtain ⟨bindings, hins, h⟩ := bind_eq_ok.mp h
    cases pure_eq_ok.mp h
    exact ⟨_, bindings, rfl, _, (Indexed.get?_insert? (orRaise_eq_ok.mp hins) _).trans (if_pos rfl),
      rfl⟩

theorem seatSession_rows (h : db.seatSession current accountId = .ok db') :
    ∃ sessions : Sessions, db' = { db with sessions } ∧ ∀ s' ∈ sessions, ∃ s ∈ db.sessions,
      s' = s ∨ (current.aid = 0 ∧ s.id = current.sid ∧ s.tokenHash = current.sh) ∧
        ∃ b ∈ db.bindings.get? (current.pid, accountId),
          s' = { s with accountId, linkVersion := b.sessionVersion } := by
  unfold seatSession at h
  split at h
  · rename_i hzero
    obtain ⟨b, hb, h⟩ := bind_eq_ok.mp h
    cases pure_eq_ok.mp h
    refine ⟨_, rfl, fun s' hs' => ?_⟩
    simp only [Indexed.mem_update, decide_eq_true_eq] at hs'
    obtain ⟨s, hs, rfl⟩ := hs'
    refine ⟨s, hs, ?_⟩
    split
    · rename_i hcurrent
      exact Or.inr ⟨⟨hzero, hcurrent⟩, b, orRaise_eq_ok.mp hb, rfl⟩
    · exact Or.inl rfl
  · cases pure_eq_ok.mp h
    exact ⟨_, rfl, fun s' hs' => ⟨s', hs', Or.inl rfl⟩⟩

theorem linkVerifiedGame_spec {identifier : Nat} {binding : String}
    (h : db.linkVerifiedGame now linkStamp stamp current identifier binding = .ok db') :
    ∃ ticket context links bindings owners, ∃ sessions : Sessions,
      db.requireRecent now current.pid current = .ok () ∧
      db.verifiedGameTicket now identifier binding .gameLink (some current.pid) =
        .ok (ticket, context) ∧
      db' = markConsumed now ticket.id { db with links, bindings, owners, sessions } ∧
      (∃ b ∈ bindings.get? (current.pid, context.accountId), b.revokedAt = none) ∧
      ∀ s' ∈ sessions, ∃ s ∈ db.sessions,
        s' = s ∨ (current.aid = 0 ∧ s.id = current.sid ∧ s.tokenHash = current.sh) ∧
          ∃ b ∈ bindings.get? (current.pid, context.accountId), s' = { s with
            accountId := context.accountId, linkVersion := b.sessionVersion } := by
  obtain ⟨_, hrecent, h⟩ := bind_eq_ok.mp h
  obtain ⟨⟨ticket, context⟩, hticket, h⟩ := bind_eq_ok.mp h
  obtain ⟨_, howner, h⟩ := bind_eq_ok.mp h
  obtain ⟨bound, hbound, h⟩ := bind_eq_ok.mp h
  obtain ⟨owned, howned, h⟩ := bind_eq_ok.mp h
  obtain ⟨seated, hseated, h⟩ := bind_eq_ok.mp h
  have howner := require_eq_ok.mp howner
  obtain ⟨owners, rfl, -, -⟩ := ownAccount_spec howned (bindAccount_owners hbound ▸ howner)
  obtain ⟨links, bindings, rfl, hactive⟩ := bindAccount_spec hbound
  obtain ⟨sessions, rfl, hrows⟩ := seatSession_rows hseated
  exact ⟨ticket, context, links, bindings, owners, sessions, hrecent, hticket,
    (pure_eq_ok.mp h).symm, hactive, hrows⟩

theorem linkVerifiedGame_step {identifier : Nat} {binding : String}
    (ht : Tied False [] db.toAccounts) (hinstalled : db.installed = true)
    (hlive : ∀ s ∈ db.sessions, current.aid = 0 ∧ s.id = current.sid ∧ s.tokenHash = current.sh →
      s.inTime now → db.linkLive s)
    (h : db.linkVerifiedGame now linkStamp stamp current identifier binding = .ok db') :
    db.SessionStep now db' := by
  obtain ⟨ht', hgrows⟩ := linkVerifiedGame_carries hinstalled (fun h => h.elim) h ht
  obtain ⟨ticket, context, links, bindings, owners, sessions, hrecent, -, rfl, ⟨b, hb, hactive⟩,
    hrows⟩ := linkVerifiedGame_spec h
  obtain ⟨-, r, hr, hrid, hrp, -⟩ := requireRecent_spec hrecent
  intro s' hs'
  obtain ⟨s, hmem, hrow⟩ := hrows s' hs'
  refine Or.inr ⟨s, hmem, ?_⟩
  rcases hrow with rfl | ⟨hcurrent, b', hb', rfl⟩
  · exact carried_same (fun _ _ h => h)
  · cases Option.some.inj (hb.symm.trans hb')
    obtain ⟨hbmem, hkey⟩ := Indexed.get?_eq_some.mp hb
    have hsr : s = r := Indexed.eq_of_key_eq hmem hr (hcurrent.2.1.trans hrid.symm)
    have hsp : s.profileId = b.profileId :=
      (hsr ▸ hrp).trans (congrArg Prod.fst hkey).symm
    exact carried_seat (hlive s hmem hcurrent)
      (fun _ => linkSound_of_active ht' (hgrows.installed hinstalled) hbmem hactive hsp
        (congrArg Prod.snd hkey).symm rfl) (fun _ _ h => h)

theorem firstLink_spec {row : IdentityLink} (h : db.firstLink profileId = some row) :
    ∃ b ∈ db.bindings, b.profileId = profileId ∧ b.revokedAt = none ∧ b.accountId = row.accountId ∧
      b.sessionVersion = row.sessionVersion := by
  obtain ⟨b, hb, hrow⟩ := List.mem_filterMap.mp (pick_mem h)
  obtain ⟨hmem, hprofile⟩ := List.mem_filter.mp hb
  obtain ⟨-, hactive, -, haccount, hversion⟩ := identityLink?_spec hrow
  exact ⟨b, hmem, of_decide_eq_true hprofile, hactive, haccount.symm, hversion.symm⟩

theorem mem_reseatSession (hs' : s' ∈ (db.reseatSession current accountId).sessions) :
    ∃ s ∈ db.sessions, s' = s ∨ (current.aid = accountId ∧ s.id = current.sid) ∧
      ∃ row : Option IdentityLink, row = db.firstLink current.pid ∧
        s' = { s with accountId := (row.map (·.accountId)).getD 0
                      linkVersion := (row.map (·.sessionVersion)).getD 0 } := by
  unfold reseatSession at hs'
  split at hs'
  · rename_i haccount
    simp only [Indexed.mem_update, decide_eq_true_eq] at hs'
    obtain ⟨s, hs, rfl⟩ := hs'
    refine ⟨s, hs, ?_⟩
    split
    · rename_i hid
      refine Or.inr ⟨⟨haccount, hid⟩, _, rfl, ?_⟩
      cases db.firstLink current.pid <;> rfl
    · exact Or.inl rfl
  · exact ⟨s', hs', Or.inl rfl⟩

theorem unlinkAccount_step (ht : Tied False [] db.toAccounts) (hinstalled : db.installed = true)
    (hlive : ∀ s ∈ db.sessions, current.aid = accountId ∧ s.id = current.sid →
      s.inTime now → db.linkLive s)
    (h : db.unlinkAccount now linkStamp stamp current accountId = .ok db') :
    db.SessionStep now db' := by
  obtain ⟨ht', hgrows⟩ := unlinkAccount_carries hinstalled (fun h => h.elim) h ht
  obtain ⟨b, bindings, hrecent, -, -, rfl⟩ := unlinkAccount_spec h
  obtain ⟨-, r, hr, hrid, hrp, -⟩ := requireRecent_spec hrecent
  intro s'' hs''
  obtain ⟨s', hs', hrow⟩ := mem_reseatSession hs''
  obtain ⟨_, hseat⟩ := reseatSession_spec current accountId _
  rw [hseat] at ht' hgrows ⊢
  simp only [Indexed.mem_update, decide_eq_true_eq] at hs'
  obtain ⟨s, hmem, rfl⟩ := hs'
  refine Or.inr ⟨s, hmem, ?_⟩
  by_cases hother : s.profileId = current.pid ∧ s.accountId = accountId ∧ s.id ≠ current.sid
  · rw [if_pos hother] at hrow
    have hrow := hrow.resolve_right (fun hseated => hother.2.2 hseated.1.2)
    have hended : some now ≠ none := Option.some_ne_none _
    rw [hrow]
    exact ⟨rfl, rfl, rfl, rfl, fun hn => absurd hn hended, Or.inl rfl, Or.inl ⟨rfl, rfl⟩,
      fun hn => absurd hn hended⟩
  · rw [if_neg hother] at hrow
    rcases hrow with rfl | ⟨hcurrent, row, hfirst, rfl⟩
    · exact carried_same (fun _ _ h => h)
    · refine carried_seat (hlive s hmem hcurrent) (fun hne => ?_) (fun _ _ h => h)
      have hsr : s = r := Indexed.eq_of_key_eq hmem hr (hcurrent.2.trans hrid.symm)
      cases row with
      | none => exact absurd rfl hne
      | some row =>
        obtain ⟨b', hb', hprofile, hactive, haccount, hversion⟩ := firstLink_spec hfirst.symm
        exact linkSound_of_active ht' (hgrows.installed hinstalled) hb' hactive
          ((hsr ▸ hrp).trans hprofile.symm) haccount.symm hversion.symm

theorem relinkTarget_spec {item : RelinkItem} {b : Binding} (h : db.relinkTarget item = some b) :
    (∃ p ∈ db.profiles.get? b.profileId, p.legacyDiscordId = some item.discordId) ∧
      b ∈ db.bindings ∧ b.accountId = item.new ∧ db.installed = true ∧ b.revokedAt = none := by
  obtain ⟨p, hp, h⟩ := Option.bind_eq_some_iff.mp h
  obtain ⟨hb, hvalid⟩ := Option.filter_eq_some_iff.mp h
  simp only [Bool.and_eq_true, decide_eq_true_eq] at hvalid
  obtain ⟨hmem, hkey⟩ := Indexed.get?_eq_some.mp hb
  obtain ⟨hget, hdiscord⟩ := Accounts.profileByDiscord?_spec hp
  have hbp : b.profileId = p.id := congrArg Prod.fst hkey
  exact ⟨⟨p, hbp ▸ hget, hdiscord⟩, hmem, congrArg Prod.snd hkey, hvalid.1, hvalid.2⟩

theorem applyItem_step {item : RelinkItem} (ht : Tied False [] db.toAccounts)
    (hs : ∀ s ∈ db.sessions, db.Sound clock s)
    (hlive : ∀ s ∈ db.sessions, (s.accountId = item.old ∧
      ∃ p ∈ db.profiles.get? s.profileId, p.legacyDiscordId = some item.discordId) →
        s.inTime now → db.linkLive s)
    (h : db.applyItem stamp item = .ok db') : db.SessionStep now db' := by
  obtain ⟨ht', hgrows⟩ := applyItem_carries h ht
  obtain ⟨change, acc, -, hfinish, hdb⟩ := applyItem_spec h
  have hproviders := Accounts.finishLegacyLinks_providers hfinish
  have hcred : db.KeepsCredentials { db with toAccounts := acc } :=
    keepsCredentials hproviders (fun _ _ h => h) (fun _ r hr => ⟨r, hr, rfl, rfl⟩)
  rcases hdb with rfl | ⟨b, hb, rfl⟩
  · exact (KeepsCredentials.quiet hcred rfl).step
  · obtain ⟨⟨p, hp, hdiscord⟩, hmem, haccount, hinstalled, hactive⟩ := relinkTarget_spec hb
    intro s' hs'
    unfold repointSessions at hs'
    simp only [Indexed.mem_update, decide_eq_true_eq] at hs'
    obtain ⟨s, hsmem, rfl⟩ := hs'
    refine Or.inr ⟨s, hsmem, ?_⟩
    split
    · rename_i hmoved
      refine carried_seat (hlive s hsmem ⟨hmoved.2.1, ?_⟩) (fun _ => ?_) hcred
      · obtain ⟨p', hp', -⟩ := (hs s hsmem).profile
        have hp'' := hgrows.profiles _ p' hp'
        rw [hmoved.1] at hp''
        cases Option.some.inj (hp''.symm.trans hp)
        exact ⟨p, hp', hdiscord⟩
      · exact linkSound_of_active ht' hinstalled hmem hactive hmoved.1 haccount.symm rfl
    · exact carried_same hcred

/-! ## One action -/

theorem install_plain (db : Db) : db.Plain now db.install := by
  have hproviders : db.install.providers = db.providers := by unfold install; split <;> rfl
  have hpasswords : db.install.passwords = db.passwords := by unfold install; split <;> rfl
  have hpasskeys : db.install.passkeys = db.passkeys := by unfold install; split <;> rfl
  have hsessions : db.install.sessions = db.sessions := by unfold install; split <;> rfl
  refine (keepsCredentials (fun d v hv => hproviders ▸ hv) (fun p r hr => hpasswords ▸ hr)
    (fun k r hr => ⟨r, hpasskeys ▸ hr, rfl, rfl⟩)).quiet hsessions

theorem after_step {r : Except Refusal Db} (h : ∀ db', r = .ok db' → db.SessionStep now db') :
    db.SessionStep now (db.after r) := by
  cases r with
  | error e => exact (KeepsCredentials.quiet (fun _ _ h => h) rfl).step
  | ok db' => exact h db' rfl

theorem afterWith_step {α : Type} {r : Except Refusal (α × Db)}
    (h : ∀ x db', r = .ok (x, db') → db.Plain now db') : db.SessionStep now (db.afterWith r) := by
  cases r with
  | error e => exact (KeepsCredentials.quiet (fun _ _ h => h) rfl).step
  | ok p => exact (h p.1 p.2 rfl).step

end Db

/-- The clock does not go back, and no session that is in time and that the action moves has a
version that is not the one of its account. -/
def LiveSeats (w : World) (a : Action) : Prop :=
  w.clock ≤ a.now ∧
    ∀ s ∈ w.db.sessions, a.op.reseats w.db s → s.inTime a.now → w.db.linkLive s

instance (w : World) (a : Action) : Decidable (LiveSeats w a) :=
  inferInstanceAs (Decidable (_ ∧ ∀ s ∈ w.db.sessions, a.op.reseats w.db s → _))

theorem AuthOp.run_step {w : World} {a : Action} {op : AuthOp} (hop : a.op = .auth op)
    (hinstalled : w.db.installed = true) (ht : Tied False [] w.db.toAccounts)
    (hs : ∀ s ∈ w.db.sessions, w.db.Sound w.clock s) (hg : LiveSeats w a) :
    w.db.SessionStep a.now (op.run a.now a.linkStamp a.stamp w.db) := by
  obtain ⟨hclock, hlive⟩ := hg
  rw [hop] at hlive
  cases op with
  | newChallenge purpose binding profileId context code =>
    refine Db.afterWith_step (fun x db' h => ?_)
    obtain ⟨challenges, rfl⟩ := Db.newChallenge_same h
    exact Db.KeepsCredentials.quiet (fun _ _ h => h) rfl
  | verifyGameCode identifier binding code purpose profileId =>
    refine Db.afterWith_step (fun x db' h => ?_)
    obtain ⟨challenges, rfl⟩ := Db.verifyGameCode_same h
    exact Db.KeepsCredentials.quiet (fun _ _ h => h) rfl
  | session token => exact Db.session_step token w.db
  | discordLogin discordId profileId accountId =>
    exact Db.afterWith_step (fun x db' h => Db.discordLogin_plain h)
  | passwordLogin name password profileId =>
    exact Db.afterWith_step (fun x db' h => Db.passwordLogin_plain h)
  | finishAuthentication binding identifier profileId keyId verified =>
    exact (Db.finishAuthentication_plain binding identifier profileId keyId verified).step
  | bootstrapPassword identifier binding name password =>
    exact Db.afterWith_step (fun x db' h => Db.bootstrapPassword_plain h)
  | bootstrapPasskey identifier binding verified =>
    exact (Db.bootstrapPasskey_plain binding identifier verified).step
  | setPassword profileId current name password =>
    exact Db.afterWith_step (fun x db' h => Db.setPassword_plain hclock hs h)
  | finishRegistration current binding identifier verified =>
    exact (Db.finishRegistration_plain hclock hs binding identifier verified).step
  | revokeMethod profileId current method =>
    exact Db.after_step (fun db' h => Db.revokeMethod_step ht hs h)
  | switchSession current accountId =>
    exact Db.afterWith_step (fun x db' h => Db.switchSession_plain hclock hs h)
  | revokeSession profileId current targetId =>
    exact Db.after_step (fun db' h => (Db.revokeSession_plain h).step)
  | linkVerifiedGame current identifier binding =>
    exact Db.after_step (fun db' h => Db.linkVerifiedGame_step ht hinstalled hlive h)
  | unlinkAccount current accountId =>
    exact Db.after_step (fun db' h => Db.unlinkAccount_step ht hinstalled hlive h)
  | linkDiscord current discordId =>
    exact Db.after_step (fun db' h => (Db.linkDiscord_plain h).step)

theorem Action.run_step {w : World} {a : Action} (ht : Tied False [] w.db.toAccounts)
    (hs : ∀ s ∈ w.db.sessions, w.db.Sound w.clock s) (hg : LiveSeats w a) :
    w.db.SessionStep a.now (a.run w.db) := by
  unfold Action.run
  split
  · refine Db.after_step (fun db' h => ?_)
    obtain ⟨acc, hchange, rfl⟩ := map_eq_ok.mp h
    have hcred : w.db.KeepsCredentials { w.db with toAccounts := acc } :=
      Db.keepsCredentials (Accounts.legacyChange_providers hchange) (fun _ _ h => h)
        (fun _ r hr => ⟨r, hr, rfl, rfl⟩)
    exact (hcred.quiet rfl).step
  · rename_i item hop
    have hlive := hg.2
    rw [hop] at hlive
    exact Db.after_step (fun db' h => Db.applyItem_step ht hs hlive h)
  · exact (Db.install_plain w.db).step
  · rename_i op hop
    split
    · rename_i hinstalled
      exact AuthOp.run_step hop hinstalled ht hs hg
    · exact (Db.KeepsCredentials.quiet (fun _ _ h => h) rfl).step

end LastSietch.Identity
