import LastSietch.Identity.Tickets

/-!
# Runs of the desk

* `AuthOp.run_tracked`: every operation on the identity database has the deeds that `deeds` gives
  it, and leaves the challenges as they have to be after these.
* `tickets_lawful`: every run is lawful.
-/

namespace LastSietch.Identity

open Accounts (Tied Carries)
open Runs (exec exec_invariant')

/-! ## Operations -/

namespace Db

variable {db db' mid : Db} {now : ℚ} {linkStamp stamp : Stamp} {current : Current} {token : Nat}

variable {profileId : Nat}

variable {name password binding : String}

theorem dropCredential_challenges {method : Removal}
    (h : db.dropCredential now profileId method = .ok db') : db'.challenges = db.challenges := by
  obtain ⟨-, rfl⟩ | ⟨id, -, rfl⟩ | ⟨-, providers, -, rfl⟩ := dropCredential_spec h <;> rfl

theorem revokeMethod_challenges {method : Option Removal}
    (h : db.revokeMethod now profileId current method = .ok db') :
    db'.challenges = db.challenges := by
  obtain ⟨r, dropped, -, -, hdropped, rfl⟩ := revokeMethod_spec h
  have hsame := dropCredential_challenges hdropped
  exact hsame

theorem unlinkAccount_challenges {accountId : Nat}
    (h : db.unlinkAccount now linkStamp stamp current accountId = .ok db') :
    db'.challenges = db.challenges := by
  obtain ⟨b, bindings, -, -, -, rfl⟩ := unlinkAccount_spec h
  obtain ⟨sessions, hreseat⟩ := reseatSession_spec current accountId _
  rw [hreseat]

theorem applyItem_challenges {item : RelinkItem} (h : db.applyItem stamp item = .ok db') :
    db'.challenges = db.challenges := by
  obtain ⟨change, acc, -, -, rfl | ⟨b, -, rfl⟩⟩ := applyItem_spec h <;> rfl

theorem finishAuthentication_spends (binding : String) (identifier : Nat) (profileId : Option Nat)
    (keyId : Nat) (verified : Option Nat) :
    Spends db now (db.finishAuthentication now binding identifier profileId keyId verified).2 := by
  unfold finishAuthentication
  split
  · exact .of_challenges now rfl
  · rename_i c mid hconsumed
    cases consumeChallenge_same hconsumed
    unfold settle
    split
    · exact markConsumed_spends
    · rename_i token db' h
      obtain ⟨_, -, h⟩ := bind_eq_ok.mp h
      obtain ⟨k, -, h⟩ := bind_eq_ok.mp h
      obtain ⟨_, -, h⟩ := bind_eq_ok.mp h
      obtain ⟨_, -, h⟩ := bind_eq_ok.mp h
      have hsame := (createSession_sessionsOnly h).challenges
      unfold Spends
      rw [hsame]
      exact markConsumed_spends

theorem finishRegistration_spends (binding : String) (identifier : Nat) (verified : Option Nat) :
    Spends db now (db.finishRegistration now current binding identifier verified).2 := by
  unfold finishRegistration
  dsimp only
  split
  · exact .of_challenges now rfl
  · rename_i c mid hconsumed
    obtain ⟨_, -, hconsumed⟩ := bind_eq_ok.mp hconsumed
    cases consumeChallenge_same hconsumed
    unfold settle
    split
    · exact markConsumed_spends
    · rename_i token db' h
      obtain ⟨_, -, h⟩ := bind_eq_ok.mp h
      obtain ⟨_, -, h⟩ := bind_eq_ok.mp h
      obtain ⟨passkeys, -, hsessions⟩ := registerPasskey_sessionsOnly h
      have hsame := hsessions.challenges
      unfold Spends
      rw [hsame]
      exact markConsumed_spends

/-- The operation uses the ticket `i`, in a call that is made with `s`. -/
def Redeems (db : Db) (now : ℚ) (i : Nat) (s : Seal) (db' : Db) : Prop :=
  ∃ c ∈ db.challenges, c.id = i ∧ c.sealed = s ∧ c.consumedAt = none ∧
    (∃ t, c.verifiedAt = some t ∧ 0 ≤ now - t ∧ now - t ≤ 600) ∧
    db'.challenges = (db.markConsumed now i).challenges

theorem bootstrapProfile_challenges {ticket : Challenge} {context : GameContext}
    (h : db.bootstrapProfile now stamp ticket context name = .ok db') :
    db'.challenges = (db.markConsumed now ticket.id).challenges := by
  obtain ⟨_, _, _, _, -, -, -, rfl⟩ := bootstrapProfile_spec h
  rfl

theorem bootstrapPassword_redeems {identifier : Nat}
    (h : db.bootstrapPassword now stamp identifier binding name password = .ok (token, db')) :
    db.Redeems now identifier ⟨.gameOnboard, binding, none⟩ db' := by
  obtain ⟨⟨ticket, context⟩, hticket, h⟩ := bind_eq_ok.mp h
  obtain ⟨hc, hid, hsealed, hlive, hverified⟩ := verifiedGameTicket_ok hticket
  obtain ⟨begun, hbegun, h⟩ := bind_eq_ok.mp h
  obtain ⟨passwords, -, h⟩ := bind_eq_ok.mp h
  have hsame := (createSession_sessionsOnly h).challenges
  have hmarked := bootstrapProfile_challenges hbegun
  exact ⟨ticket, hc, hid, hsealed, hlive, hverified,
    hid ▸ hsame.trans hmarked⟩

theorem bootstrapWithKey_redeems {context : GameContext} {gameTicket key : Nat}
    (h : db.bootstrapWithKey now stamp binding context name gameTicket key = .ok (token, db')) :
    db.Redeems now gameTicket ⟨.gameOnboard, binding, none⟩ db' := by
  obtain ⟨⟨ticket, original⟩, hticket, h⟩ := bind_eq_ok.mp h
  obtain ⟨hc, hid, hsealed, hlive, hverified⟩ := verifiedGameTicket_ok hticket
  obtain ⟨_, -, h⟩ := bind_eq_ok.mp h
  obtain ⟨begun, hbegun, h⟩ := bind_eq_ok.mp h
  obtain ⟨stored, hstored, h⟩ := bind_eq_ok.mp h
  obtain ⟨passkeys, -, rfl⟩ := storePasskey_same hstored
  have hsame := (createSession_sessionsOnly h).challenges
  have hmarked := bootstrapProfile_challenges hbegun
  exact ⟨ticket, hc, hid, hsealed, hlive, hverified,
    hid ▸ hsame.trans hmarked⟩

theorem linkVerifiedGame_redeems {identifier : Nat}
    (h : db.linkVerifiedGame now linkStamp stamp current identifier binding = .ok db') :
    db.Redeems now identifier ⟨.gameLink, binding, some current.pid⟩ db' := by
  obtain ⟨ticket, context, links, bindings, owners, sessions, -, hticket, rfl, -, -⟩ :=
    linkVerifiedGame_spec h
  obtain ⟨hc, hid, hsealed, hlive, hverified⟩ := verifiedGameTicket_ok hticket
  exact ⟨ticket, hc, hid, hsealed, hlive, hverified, hid ▸ rfl⟩

end Db

theorem Tracked.redeem {db db' : Db} {flights : List Challenge} {log : Log} {now : ℚ} {i : Nat}
    {s : Seal} (h : Tracked ⟨db, flights, log⟩) (hredeems : db.Redeems now i s db')
    (hdrawn : db.drawn ≤ db'.drawn) : Tracked ⟨db', flights, log ++ [⟨i, s, .used, now⟩]⟩ := by
  obtain ⟨c, hc, rfl, rfl, hlive, hverified, hsame⟩ := hredeems
  have hspends : Spends db now db' := by
    unfold Spends
    rw [hsame]
    exact markConsumed_spends
  refine h.use hc hlive rfl rfl rfl hverified hspends ?_ hdrawn
  rw [hsame]
  exact markConsumed_consumed

/-! ## Runs -/

section Runs

variable {db : Db} {flights : List Challenge} {log : Log}

theorem Tracked.after {r : Except Refusal Db} (h : Tracked ⟨db, flights, log⟩)
    (hok : ∀ db', r = .ok db' → Tracked ⟨db', flights, log⟩) :
    Tracked ⟨db.after r, flights, log⟩ := by
  cases r with
  | error e => exact h
  | ok db' => exact hok db' rfl

theorem Tracked.afterWith {α : Type} {r : Except Refusal (α × Db)} (h : Tracked ⟨db, flights, log⟩)
    (hok : ∀ x db', r = .ok (x, db') → Tracked ⟨db', flights, log⟩) :
    Tracked ⟨db.afterWith r, flights, log⟩ := by
  cases r with
  | error e => exact h
  | ok p => exact hok p.1 p.2 rfl

theorem Tracked.afterDeed {α : Type} {r : Except Refusal (α × Db)} {f : α × Db → Event}
    (h : Tracked ⟨db, flights, log⟩)
    (hok : ∀ x db', r = .ok (x, db') → Tracked ⟨db', flights, log ++ [f (x, db')]⟩) :
    Tracked ⟨db.afterWith r, flights, log ++ r.toOption.toList.map f⟩ := by
  cases r with
  | error e =>
    show Tracked ⟨db, flights, log ++ []⟩
    rw [List.append_nil]
    exact h
  | ok p => exact hok p.1 p.2 rfl

theorem Tracked.afterUse {r : Except Refusal Db} {f : Db → Event} (h : Tracked ⟨db, flights, log⟩)
    (hok : ∀ db', r = .ok db' → Tracked ⟨db', flights, log ++ [f db']⟩) :
    Tracked ⟨db.after r, flights, log ++ r.toOption.toList.map f⟩ := by
  cases r with
  | error e =>
    show Tracked ⟨db, flights, log ++ []⟩
    rw [List.append_nil]
    exact h
  | ok db' => exact hok db' rfl

theorem Tracked.noDeed (h : Tracked ⟨db, flights, log⟩) : Tracked ⟨db, flights, log ++ []⟩ := by
  rw [List.append_nil]
  exact h

theorem Tracked.sessionsOnly (h : Tracked ⟨db, flights, log⟩) (now : ℚ) {db' : Db}
    (hsessions : db.SessionsOnly db') : Tracked ⟨db', flights, log⟩ :=
  h.quiet (.of_challenges now hsessions.challenges) hsessions.same.drawn

/-- An operation on the challenges is one of those of `deeds`, or it has none. -/
theorem AuthOp.run_tracked {now : ℚ} {linkStamp stamp : Stamp} (op : AuthOp)
    (hinstalled : db.installed = true)
    (hwhole : Action.whole ⟨now, linkStamp, stamp, .auth op⟩ = true)
    (ht : Tied False [] db.toAccounts) (h : Tracked ⟨db, flights, log⟩) :
    Tracked ⟨op.run now linkStamp stamp db, flights, log ++ op.deeds now linkStamp stamp db⟩ := by
  have hgrows : ∀ {db' : Db}, Carries False db.toAccounts db'.toAccounts → db.drawn ≤ db'.drawn :=
    fun hcarries => (hcarries ht).2.drawn
  cases op with
  | newChallenge purpose binding profileId context code =>
    exact h.afterDeed (fun x db' hnew => h.make hnew)
  | verifyGameCode i binding code purpose profileId =>
    exact h.afterDeed (fun x db' hverify => h.compare hverify)
  | session token =>
    exact (h.sessionsOnly now (Db.session_sessionsOnly token db)).noDeed
  | discordLogin discordId profileId accountId =>
    refine (h.afterWith (fun x db' hlogin => ?_)).noDeed
    exact h.sessionsOnly now (Db.discordLogin_sessionsOnly hlogin)
  | passwordLogin name password profileId =>
    refine (h.afterWith (fun x db' hlogin => ?_)).noDeed
    exact h.sessionsOnly now (Db.passwordLogin_sessionsOnly hlogin)
  | finishAuthentication binding i profileId keyId verified =>
    exact (h.quiet (Db.finishAuthentication_spends binding i profileId keyId verified)
      (hgrows (Db.finishAuthentication_carries binding i profileId keyId verified))).noDeed
  | bootstrapPassword i binding name password =>
    exact h.afterDeed (fun x db' hbegin => h.redeem (Db.bootstrapPassword_redeems hbegin)
      (hgrows (Db.bootstrapPassword_carries hinstalled hbegin)))
  | bootstrapPasskey i binding verified => cases hwhole
  | setPassword profileId current name password =>
    refine (h.afterWith (fun x db' hset => ?_)).noDeed
    obtain ⟨passwords, hsessions⟩ := Db.setPassword_sessionsOnly hset
    exact h.quiet (.of_challenges now hsessions.challenges) hsessions.same.drawn
  | finishRegistration current binding i verified =>
    exact (h.quiet (Db.finishRegistration_spends binding i verified)
      (hgrows (Db.finishRegistration_carries current binding i verified))).noDeed
  | revokeMethod profileId current method =>
    refine (h.after (fun db' hrevoke => ?_)).noDeed
    exact h.quiet (.of_challenges now (Db.revokeMethod_challenges hrevoke))
      (hgrows (Db.revokeMethod_carries hrevoke))
  | switchSession current accountId =>
    refine (h.afterWith (fun x db' hswitch => ?_)).noDeed
    exact h.sessionsOnly now (Db.switchSession_sessionsOnly hswitch)
  | revokeSession profileId current targetId =>
    refine (h.after (fun db' hrevoke => ?_)).noDeed
    exact h.sessionsOnly now (Db.revokeSession_sessionsOnly hrevoke)
  | linkVerifiedGame current i binding =>
    exact h.afterUse (fun db' hlink => h.redeem (Db.linkVerifiedGame_redeems hlink)
      (hgrows (Db.linkVerifiedGame_carries hinstalled (fun hf => hf.elim) hlink)))
  | unlinkAccount current accountId =>
    refine (h.after (fun db' hunlink => ?_)).noDeed
    exact h.quiet (.of_challenges now (Db.unlinkAccount_challenges hunlink))
      (hgrows (Db.unlinkAccount_carries hinstalled (fun hf => hf.elim) hunlink))
  | linkDiscord current discordId =>
    refine (h.after (fun db' hlink => ?_)).noDeed
    obtain ⟨providers, rfl⟩ := Db.linkDiscord_same hlink
    exact h.quiet (.of_challenges now rfl) le_rfl

theorem Action.run_tracked {a : Action} (hwhole : a.whole = true)
    (ht : Tied False [] db.toAccounts) (h : Tracked ⟨db, flights, log⟩) :
    Tracked ⟨a.run db, flights, log ++ a.deeds db⟩ := by
  obtain ⟨now, linkStamp, stamp, op⟩ := a
  cases op with
  | legacyChange discordId allowGrant edit =>
    refine (h.after (fun db' hchange => ?_)).noDeed
    obtain ⟨acc, hacc, rfl⟩ := map_eq_ok.mp hchange
    exact h.quiet (.of_challenges now rfl) (Accounts.legacyChange_tied ht hacc).2.drawn
  | applyItem item =>
    refine (h.after (fun db' hitem => ?_)).noDeed
    exact h.quiet (.of_challenges now (Db.applyItem_challenges hitem))
      (Db.applyItem_carries hitem ht).2.drawn
  | install =>
    have hsame : db.install.challenges = db.challenges := by
      unfold Db.install
      split <;> rfl
    exact (h.quiet (.of_challenges now hsame) (Db.install_carries db ht).2.drawn).noDeed
  | auth op =>
    unfold Action.run Action.deeds
    dsimp only
    split
    · case isTrue hinstalled => exact op.run_tracked hinstalled hwhole ht h
    · exact h.noDeed

def Desk.Good (d : Desk) : Prop := Tied False [] d.db.toAccounts ∧ Tracked d

theorem finish_good {d : Desk} {now : ℚ} {stamp : Stamp} {c : Challenge} {verified : Option Nat}
    (h : d.Good) (hinstalled : d.db.installed = true) (hc : c ∈ d.flights) :
    (d.finish now stamp c verified).Good := by
  unfold Desk.finish
  dsimp only
  split
  · case h_1 context name gameTicket _ =>
    split
    · case h_1 token db' hbegin =>
      obtain ⟨key, -, hbegin⟩ := bind_eq_ok.mp hbegin
      obtain ⟨ht, hgrows⟩ := Db.bootstrapWithKey_carries hinstalled hbegin h.1
      have hredeemed := h.2.redeem (Db.bootstrapWithKey_redeems hbegin) hgrows.drawn
      exact ⟨ht, hredeemed.land hc rfl rfl rfl⟩
    · exact ⟨h.1, h.2.drop⟩
  · exact ⟨h.1, h.2.drop⟩

theorem deskStep_good {d d' : Desk} {m : Move} (h : d.Good) (hstep : deskStep d m = some d') :
    d'.Good := by
  cases m with
  | act a =>
    unfold deskStep at hstep
    dsimp only at hstep
    split at hstep
    · case isTrue hwhole =>
      cases hstep
      exact ⟨(a.run_carries (w := ⟨d.db, 0⟩) (fun hf => hf.elim) h.1).1,
        Action.run_tracked hwhole h.1 h.2⟩
    · cases hstep
  | consume now i binding =>
    unfold deskStep at hstep
    dsimp only at hstep
    split at hstep
    · split at hstep
      · case h_1 c db' hconsume =>
        cases hstep
        obtain ⟨row, -, hconsume⟩ := bind_eq_ok.mp hconsume
        refine ⟨?_, h.2.takeOff hconsume⟩
        rw [Db.consumeChallenge_same hconsume]
        exact h.1
      · cases hstep
        exact h
    · cases hstep
  | finish now stamp c verified =>
    unfold deskStep at hstep
    dsimp only at hstep
    split at hstep
    · case isTrue hflies =>
      cases hstep
      exact finish_good h hflies.1 hflies.2
    · cases hstep

/-- The challenges of every run, from the backfilled database on, are compared with five codes at
most, verified once, and used once and in time. -/
theorem tickets_lawful {links : Links} {start : Db} (hstart : backfilled links = .ok start)
    {ms : List Move} {d : Desk} (hrun : exec deskStep ⟨start, [], []⟩ ms = some d) :
    Lawful d.log := by
  have hgood : d.Good := by
    refine exec_invariant' (fun d m d' => deskStep_good) ⟨backfilled_tied hstart, ?_⟩ hrun
    refine { lawful := .nil, below := fun _ h => absurd h List.not_mem_nil,
             rows := fun c hc => ?_, flies := fun _ h => absurd h List.not_mem_nil,
             apart := List.nodup_nil }
    obtain ⟨acc, -, rfl⟩ := map_eq_ok.mp hstart
    exact absurd hc (Table.not_mem_empty c)
  exact hgood.2.lawful

end Runs

def chani : GameContext := ⟨1002, "Chani", 50, by decide⟩

def guess (now : ℚ) (code : String) : Move :=
  .act ⟨now, 0, 0, .auth (.verifyGameCode 1 "cookie" code .gameOnboard none)⟩

def sixGuesses : List Move :=
  [.act ⟨100, 100, 100, .install⟩,
    .act ⟨101, 101, 101, .auth (.newChallenge .gameOnboard "cookie" none (.game chani) "004815")⟩,
    guess 110 "000001", guess 111 "000002", guess 112 "", guess 113 "000004", guess 114 "000005",
    guess 115 "000006"]

theorem tickets_lawful_sixGuesses : ∃ d, exec deskStep ⟨startDb, [], []⟩ sixGuesses = some d ∧
    d.log.map Event.deed = .made :: List.replicate 5 (.compared false) ∧ Lawful d.log := by
  have hrun : ∃ d, exec deskStep ⟨startDb, [], []⟩ sixGuesses = some d ∧
      d.log.map Event.deed = .made :: List.replicate 5 (.compared false) :=
    Runs.exec_shows (by decide +kernel)
  obtain ⟨d, hd, hlog⟩ := hrun
  exact ⟨d, hd, hlog, tickets_lawful backfilled_oneLink hd⟩

end LastSietch.Identity
