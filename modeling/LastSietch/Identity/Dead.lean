import LastSietch.Identity.OwnerRuns
import LastSietch.Identity.Seats

/-!
# Dead sessions

* `dead_sessions`: along every run that moves no dead session, a token that `session` has refused
  is refused ever after.
* `dead_session_moved`: `apply_item` moves a session that an unlink had ended, and it answers again.
-/

namespace LastSietch.Identity

open Accounts (Tied)
open Runs (exec Along exec_invariant)

structure World.Good (w : World) : Prop where
  tied : Tied False [] w.db.toAccounts
  sound : ∀ s ∈ w.db.sessions, w.db.Sound w.clock s

theorem backfilled_good {links : Links} {db : Db} (h : backfilled links = .ok db) (clock : ℚ) :
    World.Good ⟨db, clock⟩ := by
  refine ⟨backfilled_tied h, fun s hs => ?_⟩
  obtain ⟨acc, -, rfl⟩ := map_eq_ok.mp h
  cases hs

theorem World.Good.step {w w' : World} {a : Action} (h : w.Good) (hg : LiveSeats w a)
    (hstep : step w a = some w') : w'.Good := by
  cases hstep
  obtain ⟨htied, hgrows⟩ := a.run_carries (fun hf => hf.elim) h.tied
  exact ⟨htied, (a.run_step h.tied h.sound hg).sound hgrows hg.1 h.sound⟩

/-- No session of the token lives at the time `t`. -/
def Db.Dead (db : Db) (t : ℚ) (token : Nat) : Prop :=
  ∀ s ∈ db.sessions, s.tokenHash = token → ¬ db.live t s

theorem Db.session_eq_none {db : Db} {t : ℚ} {token : Nat} :
    (db.session t token).1 = none ↔ db.Dead t token := by
  unfold Db.session
  constructor
  · intro hnone s hs htoken hlive
    rw [Db.sessionByToken?_eq_some.mpr ⟨hs, htoken⟩] at hnone
    dsimp only at hnone
    rw [if_pos hlive] at hnone
    cases hnone
  · intro hdead
    cases hget : db.sessionByToken? token with
    | none => rfl
    | some s =>
      obtain ⟨hs, htoken⟩ := Db.sessionByToken?_eq_some.mp hget
      dsimp only
      rw [if_neg (hdead s hs htoken)]

theorem World.Good.later {w : World} {t : ℚ} {token : Nat} (h : w.Good)
    (hdead : w.db.Dead w.clock token) (hissued : token < w.db.drawn) (ht : w.clock ≤ t) :
    w.db.Dead t token := by
  intro s hs htoken hlive
  have hstep : w.db.SessionStep w.clock w.db :=
    (Db.KeepsCredentials.quiet (fun _ _ h => h) rfl).step
  rcases hstep.live (Accounts.Grows.refl _) h.tied h.sound le_rfl ht hs hlive with hnew | hold
  · omega
  · obtain ⟨s', hs', hsame, hlive'⟩ := hold
    exact hdead s' hs' (hsame.trans htoken) hlive'

theorem dead_step {w w' : World} {a : Action} {token : Nat} (h : w.Good)
    (hdead : w.db.Dead w.clock token) (hissued : token < w.db.drawn) (hg : LiveSeats w a)
    (hstep : step w a = some w') : w'.db.Dead w'.clock token ∧ token < w'.db.drawn := by
  cases hstep
  obtain ⟨-, hgrows⟩ := a.run_carries (fun hf => hf.elim) h.tied
  refine ⟨fun s' hs' htoken hlive => ?_, hissued.trans_le hgrows.drawn⟩
  rcases (a.run_step h.tied h.sound hg).live hgrows h.tied h.sound hg.1 le_rfl hs' hlive
    with hnew | ⟨s, hs, hsame, hlive'⟩
  · omega
  · exact hdead s hs (hsame.trans htoken) hlive'

/-- A token that is refused stays refused, in every run whose clock does not go back and which moves
no dead session. -/
theorem dead_sessions {links : Links} {db : Db} (hstart : backfilled links = .ok db) (clock : ℚ)
    {as bs : List Action} {w w' : World} (hlive : Along step LiveSeats ⟨db, clock⟩ as)
    (hrun : exec step ⟨db, clock⟩ as = some w) {token : Nat} (hissued : token < w.db.drawn)
    {t t' : ℚ} (ht : w.clock ≤ t) (hnone : (w.db.session t token).1 = none)
    (hlive' : Along step LiveSeats ⟨w.db, t⟩ bs) (hrun' : exec step ⟨w.db, t⟩ bs = some w')
    (ht' : w'.clock ≤ t') : (w'.db.session t' token).1 = none := by
  have hgood : w.Good :=
    exec_invariant (fun _ _ _ h hg hstep => h.step hg hstep) (backfilled_good hstart clock) hlive
      hrun
  have hgood' : World.Good ⟨w.db, t⟩ := by
    refine ⟨hgood.tied, fun s hs => ?_⟩
    obtain ⟨htoken, hprofile, hcredential, hlink, hseen⟩ := hgood.sound s hs
    exact ⟨htoken, hprofile, hcredential, hlink, hseen.trans ht⟩
  obtain ⟨hend, hdead, hissued'⟩ : w'.Good ∧ w'.db.Dead w'.clock token ∧ token < w'.db.drawn := by
    refine exec_invariant
      (I := fun w => w.Good ∧ w.db.Dead w.clock token ∧ token < w.db.drawn) ?_
      ⟨hgood', Db.session_eq_none.mp hnone, hissued⟩ hlive' hrun'
    rintro w a w' ⟨h, hdead, hissued⟩ hg hstep
    exact ⟨h.step hg hstep, dead_step h hdead hissued hg hstep⟩
  exact Db.session_eq_none.mpr (hend.later hdead hissued' ht')

def botUnlink : Action :=
  ⟨300, 300, 300, .legacyChange "4815162342" false (fun links => links.revoke (fun l => l.id = 1) 300)⟩

def comeBack : List Action :=
  [⟨400, 400, 400, .legacyChange "4815162342" true (relink 400)⟩,
   ⟨401, 401, 401, .auth (.discordLogin "4815162342" none none)⟩]

theorem leaves_goes : (exec step ⟨startDb, 0⟩ (signIn ++ [botUnlink])).isSome = true := rfl

def leftWorld : World := (exec step ⟨startDb, 0⟩ (signIn ++ [botUnlink])).get leaves_goes

theorem comesBack_goes : (exec step ⟨leftWorld.db, 310⟩ comeBack).isSome = true := rfl

theorem dead_sessions_comeBack :
    let w := (exec step ⟨leftWorld.db, 310⟩ comeBack).get comesBack_goes
    (w.db.session 500 2).1 = none := by
  have hleft : exec step ⟨startDb, 0⟩ (signIn ++ [botUnlink]) = some leftWorld :=
    (Option.some_get _).symm
  have hdead : (leftWorld.db.session 310 2).1 = none := by decide +kernel
  exact dead_sessions backfilled_oneLink 0 (by decide) hleft (by decide)
    (by decide) hdead (by decide) (Option.some_get _).symm (by decide)

def transfer : Action :=
  ⟨500, 500, 500, .applyItem ⟨1, "4815162342", 1001, 2002, "Paul", "muaddib", 500, true, by decide⟩⟩

theorem transferred_goes :
    (exec step ⟨leftWorld.db, 310⟩ (comeBack ++ [transfer])).isSome = true := rfl

/-- The token 2 is refused after the unlink, and once the transfer has moved its session it answers
for the new account. -/
theorem dead_session_moved :
    let w := (exec step ⟨leftWorld.db, 310⟩ (comeBack ++ [transfer])).get transferred_goes
    backfilled oneLink = .ok startDb ∧
      exec step ⟨startDb, 0⟩ (signIn ++ [botUnlink]) = some leftWorld ∧
      Along step (fun w a => w.clock ≤ a.now) ⟨startDb, 0⟩ (signIn ++ [botUnlink]) ∧
      Along step (fun w a => w.clock ≤ a.now) ⟨leftWorld.db, 310⟩ (comeBack ++ [transfer]) ∧
      2 < leftWorld.db.drawn ∧ (leftWorld.db.session 310 2).1 = none ∧
      ((w.db.session 510 2).1.map (·.aid)) = some 2002 :=
  ⟨backfilled_oneLink, (Option.some_get _).symm, by decide, by decide,
    by decide +kernel, by decide +kernel, by decide +kernel⟩

end LastSietch.Identity
