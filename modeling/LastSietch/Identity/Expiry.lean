import LastSietch.Identity.OwnerRuns
import LastSietch.Identity.Seats

/-!
# The end of a session

`expires_at` is written when a session row is made, and no operation writes it again.

* `Action.run_keepsExpiry`: after an action every row has a token that was drawn in it, or the token
  and the end of a row that was there before.
* `Ends.after`: a token that ends at a time ends at that time after every action.
-/

namespace LastSietch.Identity

open Accounts (Tied)

namespace Db

variable {db db' mid : Db} {now : ℚ} {linkStamp stamp : Stamp} {current : Current}

/-- The tokens of `db` keep their ends. -/
def KeepsExpiry (db db' : Db) : Prop :=
  ∀ s' ∈ db'.sessions, db.drawn ≤ s'.tokenHash ∨
    ∃ s ∈ db.sessions, s'.tokenHash = s.tokenHash ∧ s'.expiresAt = s.expiresAt

theorem KeepsExpiry.of_sessions (hsessions : db'.sessions = db.sessions) : db.KeepsExpiry db' :=
  fun s' hs' => Or.inr ⟨s', hsessions ▸ hs', rfl, rfl⟩

theorem KeepsExpiry.of_plain (h : db.Plain now db') : db.KeepsExpiry db' := by
  intro s' hs'
  rcases h s' hs' with ⟨hnew, -⟩ | ⟨s, hs, r, rfl, -⟩
  · exact Or.inl hnew
  · exact Or.inr ⟨s, hs, rfl, rfl⟩

theorem KeepsExpiry.after (h : mid.KeepsExpiry db') (hsessions : mid.sessions = db.sessions)
    (hdrawn : mid.drawn = db.drawn) : db.KeepsExpiry db' := by
  intro s' hs'
  rcases h s' hs' with hnew | ⟨s, hs, hkept⟩
  · exact Or.inl (hdrawn ▸ hnew)
  · exact Or.inr ⟨s, hsessions ▸ hs, hkept⟩

theorem revokeSessions_keepsExpiry (now : ℚ) (profileId : Nat) (p : Session → Bool) :
    db.KeepsExpiry (db.revokeSessions now profileId p) := by
  intro s' hs'
  obtain ⟨s, hs, rfl⟩ := mem_revokeSessions.mp hs'
  refine Or.inr ⟨s, hs, ?_⟩
  split
  · exact ⟨rfl, rfl⟩
  · exact ⟨rfl, rfl⟩

theorem rotate_keepsExpiry {id token : Nat} {f : Session → Session} {hid : ∀ s, (f s).id = s.id}
    (h : mid.rotate id f hid = .ok (token, db')) (hmid : db.KeepsExpiry mid)
    (hdrawn : mid.drawn = db.drawn) : db.KeepsExpiry db' := by
  obtain ⟨sessions, rfl, hrows⟩ := rotate_spec h
  intro s' hs'
  obtain ⟨s, hs, rfl⟩ := hrows s' hs'
  split
  · exact Or.inl hdrawn.ge
  · exact hmid s hs

theorem session_keepsExpiry (token : Nat) (db : Db) : db.KeepsExpiry (db.session now token).2 := by
  have hstep : db.SessionStep now (db.session now token).2 := session_step token db
  intro s' hs'
  rcases hstep s' hs' with ⟨hnew, -⟩ | ⟨s, hs, hcarried⟩
  · exact Or.inl hnew
  · exact Or.inr ⟨s, hs, hcarried.token, hcarried.expires⟩

/-! ## Operations -/

theorem setPassword_keepsExpiry {profileId token : Nat} {name password : String}
    (h : db.setPassword now profileId current name password = .ok (token, db')) :
    db.KeepsExpiry db' := by
  obtain ⟨_, -, h⟩ := bind_eq_ok.mp h
  obtain ⟨users, -, h⟩ := bind_eq_ok.mp h
  have hrevoked : db.KeepsExpiry _ := (revokeSessions_keepsExpiry now profileId
    (fun s => s.id ≠ current.sid)).after rfl rfl
  exact rotate_keepsExpiry h hrevoked rfl

theorem finishRegistration_keepsExpiry (binding : String) (identifier : Nat)
    (verified : Option Nat) :
    db.KeepsExpiry (db.finishRegistration now current binding identifier verified).2 := by
  unfold finishRegistration
  dsimp only
  split
  · exact .of_sessions rfl
  · rename_i c mid hconsumed
    obtain ⟨_, -, hconsumed⟩ := bind_eq_ok.mp hconsumed
    cases consumeChallenge_same hconsumed
    unfold settle
    split
    · exact .of_sessions rfl
    · rename_i token db' h
      obtain ⟨_, -, h⟩ := bind_eq_ok.mp h
      obtain ⟨_, -, h⟩ := bind_eq_ok.mp h
      obtain ⟨_, -, h⟩ := bind_eq_ok.mp h
      obtain ⟨stored, hstored, h⟩ := bind_eq_ok.mp h
      obtain ⟨passkeys, -, rfl⟩ := storePasskey_same hstored
      have hrevoked : db.KeepsExpiry _ := (revokeSessions_keepsExpiry now current.pid
        (fun s => s.id ≠ current.sid)).after rfl rfl
      exact rotate_keepsExpiry h hrevoked rfl

theorem revokeMethod_keepsExpiry {profileId : Nat} {method : Option Removal}
    (h : db.revokeMethod now profileId current method = .ok db') : db.KeepsExpiry db' := by
  obtain ⟨r, dropped, -, -, hdropped, rfl⟩ := revokeMethod_spec h
  intro s'' hs''
  obtain ⟨s', hs', rfl⟩ := mem_revokeSessions.mp hs''
  obtain ⟨s, hs, hrow⟩ := dropCredential_sessions hdropped hs'
  obtain ⟨htoken, hexpires⟩ : s'.tokenHash = s.tokenHash ∧ s'.expiresAt = s.expiresAt := by
    rcases hrow with rfl | ⟨-, -, -, rfl⟩ <;> exact ⟨rfl, rfl⟩
  refine Or.inr ⟨s, hs, ?_⟩
  split
  · exact ⟨htoken, hexpires⟩
  · exact ⟨htoken, hexpires⟩

theorem switchSession_keepsExpiry {accountId token : Nat}
    (h : db.switchSession now current accountId = .ok (token, db')) : db.KeepsExpiry db' := by
  obtain ⟨_, -, h⟩ := bind_eq_ok.mp h
  obtain ⟨_, -, h⟩ := bind_eq_ok.mp h
  obtain ⟨_, -, h⟩ := bind_eq_ok.mp h
  exact rotate_keepsExpiry h (.of_sessions rfl) rfl

theorem linkVerifiedGame_keepsExpiry {identifier : Nat} {binding : String}
    (h : db.linkVerifiedGame now linkStamp stamp current identifier binding = .ok db') :
    db.KeepsExpiry db' := by
  obtain ⟨ticket, context, links, bindings, owners, sessions, -, -, rfl, -, hrows⟩ :=
    linkVerifiedGame_spec h
  intro s' hs'
  obtain ⟨s, hs, hrow⟩ := hrows s' hs'
  refine Or.inr ⟨s, hs, ?_⟩
  rcases hrow with rfl | ⟨-, b, -, rfl⟩ <;> exact ⟨rfl, rfl⟩

theorem unlinkAccount_keepsExpiry {accountId : Nat}
    (h : db.unlinkAccount now linkStamp stamp current accountId = .ok db') : db.KeepsExpiry db' := by
  obtain ⟨b, bindings, -, -, -, rfl⟩ := unlinkAccount_spec h
  intro s'' hs''
  obtain ⟨s', hs', hrow⟩ := mem_reseatSession hs''
  simp only [Indexed.mem_update, decide_eq_true_eq] at hs'
  obtain ⟨s, hs, rfl⟩ := hs'
  refine Or.inr ⟨s, hs, ?_⟩
  rcases hrow with rfl | ⟨-, row, -, rfl⟩ <;> split <;> exact ⟨rfl, rfl⟩

theorem applyItem_keepsExpiry {item : RelinkItem} (h : db.applyItem stamp item = .ok db') :
    db.KeepsExpiry db' := by
  obtain ⟨change, acc, -, -, rfl | ⟨b, -, rfl⟩⟩ := applyItem_spec h
  · exact .of_sessions rfl
  · intro s' hs'
    unfold repointSessions at hs'
    simp only [Indexed.mem_update, decide_eq_true_eq] at hs'
    obtain ⟨s, hs, rfl⟩ := hs'
    refine Or.inr ⟨s, hs, ?_⟩
    split
    · exact ⟨rfl, rfl⟩
    · exact ⟨rfl, rfl⟩

theorem after_keepsExpiry {r : Except Refusal Db} (h : ∀ db', r = .ok db' → db.KeepsExpiry db') :
    db.KeepsExpiry (db.after r) := by
  cases r with
  | error e => exact .of_sessions rfl
  | ok db' => exact h db' rfl

theorem afterWith_keepsExpiry {α : Type} {r : Except Refusal (α × Db)}
    (h : ∀ x db', r = .ok (x, db') → db.KeepsExpiry db') : db.KeepsExpiry (db.afterWith r) := by
  cases r with
  | error e => exact .of_sessions rfl
  | ok p => exact h p.1 p.2 rfl

end Db

theorem AuthOp.run_keepsExpiry (now : ℚ) (linkStamp stamp : Stamp) (db : Db) (op : AuthOp) :
    db.KeepsExpiry (op.run now linkStamp stamp db) := by
  cases op with
  | newChallenge purpose binding profileId context code =>
    refine Db.afterWith_keepsExpiry fun x db' h => ?_
    obtain ⟨challenges, rfl⟩ := Db.newChallenge_same h
    exact .of_sessions rfl
  | verifyGameCode identifier binding code purpose profileId =>
    refine Db.afterWith_keepsExpiry fun x db' h => ?_
    obtain ⟨challenges, rfl⟩ := Db.verifyGameCode_same h
    exact .of_sessions rfl
  | session token => exact Db.session_keepsExpiry token db
  | discordLogin discordId profileId accountId =>
    exact Db.afterWith_keepsExpiry fun x db' h => .of_plain (Db.discordLogin_plain h)
  | passwordLogin name password profileId =>
    exact Db.afterWith_keepsExpiry fun x db' h => .of_plain (Db.passwordLogin_plain h)
  | finishAuthentication binding identifier profileId keyId verified =>
    exact .of_plain (Db.finishAuthentication_plain binding identifier profileId keyId verified)
  | bootstrapPassword identifier binding name password =>
    exact Db.afterWith_keepsExpiry fun x db' h => .of_plain (Db.bootstrapPassword_plain h)
  | bootstrapPasskey identifier binding verified =>
    exact .of_plain (Db.bootstrapPasskey_plain binding identifier verified)
  | setPassword profileId current name password =>
    exact Db.afterWith_keepsExpiry fun x db' h => Db.setPassword_keepsExpiry h
  | finishRegistration current binding identifier verified =>
    exact Db.finishRegistration_keepsExpiry binding identifier verified
  | revokeMethod profileId current method =>
    exact Db.after_keepsExpiry fun db' h => Db.revokeMethod_keepsExpiry h
  | switchSession current accountId =>
    exact Db.afterWith_keepsExpiry fun x db' h => Db.switchSession_keepsExpiry h
  | revokeSession profileId current targetId =>
    exact Db.after_keepsExpiry fun db' h => .of_plain (Db.revokeSession_plain h)
  | linkVerifiedGame current identifier binding =>
    exact Db.after_keepsExpiry fun db' h => Db.linkVerifiedGame_keepsExpiry h
  | unlinkAccount current accountId =>
    exact Db.after_keepsExpiry fun db' h => Db.unlinkAccount_keepsExpiry h
  | linkDiscord current discordId =>
    exact Db.after_keepsExpiry fun db' h => .of_plain (Db.linkDiscord_plain h)

theorem Action.run_keepsExpiry (a : Action) (db : Db) : db.KeepsExpiry (a.run db) := by
  unfold Action.run
  split
  · refine Db.after_keepsExpiry fun db' h => ?_
    obtain ⟨acc, -, rfl⟩ := map_eq_ok.mp h
    exact .of_sessions rfl
  · exact Db.after_keepsExpiry fun db' h => Db.applyItem_keepsExpiry h
  · have hplain : db.Plain a.now db.install := Db.install_plain db
    exact .of_plain hplain
  · split
    · exact AuthOp.run_keepsExpiry a.now a.linkStamp a.stamp db _
    · exact .of_sessions rfl

/-! ## A token that ends -/

namespace Db

/-- The token has been drawn, and a session that has it ends at `t`. -/
structure Ends (db : Db) (t : ℚ) (token : Nat) : Prop where
  issued : token < db.drawn
  expires : ∀ s ∈ db.sessions, s.tokenHash = token → s.expiresAt = t

variable {db db' : Db} {t now : ℚ} {token token' accountId : Nat} {current : Current}

theorem Ends.keep (h : db.Ends t token) (hkeep : db.KeepsExpiry db') (hdrawn : db.drawn ≤ db'.drawn) :
    db'.Ends t token := by
  refine ⟨h.issued.trans_le hdrawn, fun s' hs' htoken => ?_⟩
  rcases hkeep s' hs' with hnew | ⟨s, hs, hsame, hexpires⟩
  · exact absurd h.issued (Nat.not_lt.mpr (htoken ▸ hnew))
  · exact hexpires.trans (h.expires s hs (hsame.symm.trans htoken))

theorem Ends.switched (h : db.Ends t current.sh)
    (hswitch : db.switchSession now current accountId = .ok (token', db')) : db'.Ends t token' := by
  obtain ⟨r, hr, hswitch⟩ := bind_eq_ok.mp hswitch
  obtain ⟨context, -, hswitch⟩ := bind_eq_ok.mp hswitch
  obtain ⟨_, -, hswitch⟩ := bind_eq_ok.mp hswitch
  have hr := orRaise_eq_ok.mp hr
  have hmem : r ∈ db.sessions := List.mem_of_find?_eq_some hr
  have hfound := List.find?_some hr
  simp only [decide_eq_true_eq] at hfound
  obtain ⟨sessions, hupd, hpure⟩ := bind_eq_ok.mp hswitch
  cases pure_eq_ok.mp hpure
  have hrows := Indexed.update?_spec (orRaise_eq_ok.mp hupd)
  refine ⟨Nat.lt_succ_self _, fun s' hs' htoken => ?_⟩
  -- the row of the session has the new token, and no other row has it
  have hnew : { r with accountId, linkVersion := context.lv, tokenHash := db.drawn } ∈ sessions :=
    (hrows _).mpr ⟨r, hmem, (if_pos (decide_eq_true hfound.1)).symm⟩
  have hsame := Indexed.eq_of_entry (e := db.drawn) hs' hnew (by simp [htoken]) (by simp)
  rw [hsame]
  exact h.expires r hmem hfound.2.1

theorem session_sh (h : (db.session now token).1 = some current) : current.sh = token := by
  unfold session at h
  cases hget : db.sessionByToken? token with
  | none =>
    rw [hget] at h
    cases h
  | some s =>
    rw [hget] at h
    dsimp only at h
    split_ifs at h with hlive
    cases h
    exact (sessionByToken?_eq_some.mp hget).2

/-- `session` refuses a token that has ended. -/
theorem Ends.refused (h : db.Ends t token) (hlater : t < now) : (db.session now token).1 = none := by
  unfold session
  cases hget : db.sessionByToken? token with
  | none => rfl
  | some s =>
    obtain ⟨hs, htoken⟩ := sessionByToken?_eq_some.mp hget
    have hexpires := h.expires s hs htoken
    dsimp only
    rw [if_neg]
    rintro ⟨⟨-, -, hle⟩, -⟩
    exact absurd hle (not_le.mpr (hexpires ▸ hlater))

theorem createSession_ends {profileId : Nat} {credential : Credential} {authAt : Option ℚ}
    {account : Option Nat}
    (h : db.createSession now profileId credential authAt account = .ok (token, db')) :
    db'.Ends (now + sessionAbsolute) token := by
  obtain ⟨_, -, h⟩ := bind_eq_ok.mp h
  obtain ⟨_, -, h⟩ := bind_eq_ok.mp h
  obtain ⟨mid, -, h⟩ := bind_eq_ok.mp h
  dsimp only at h
  have hinsert : ∃ account version authAt,
      mid.insertSession now profileId credential authAt account version = .ok (token, db') := by
    split at h
    · exact ⟨_, _, _, h⟩
    · obtain ⟨context, -, h⟩ := bind_eq_ok.mp h
      exact ⟨_, _, _, h⟩
  obtain ⟨account, version, authAt, h⟩ := hinsert
  obtain ⟨sessions, hins, h⟩ := bind_eq_ok.mp h
  cases pure_eq_ok.mp h
  have hrows := (Indexed.insert?_spec (orRaise_eq_ok.mp hins)).1
  refine ⟨Nat.lt_succ_self _, fun s' hs' htoken => ?_⟩
  have hsame := Indexed.eq_of_entry (e := mid.drawn + 1) hs' ((hrows _).mpr (Or.inl rfl))
    (by simp [htoken]) (by simp)
  rw [hsame]

end Db

end LastSietch.Identity
