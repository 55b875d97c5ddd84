import LastSietch.Identity.Ownership

/-!
# Runs from a backfilled database

* `account_ownership`: the owners, the bindings and their links along every run whose statements on
  a link and its binding read one second.
* `owners_always`: what holds of the bindings and the owners whatever the clock does.
* `twoSeconds_differ`: an unlink whose two statements read two seconds, and the change that is
  refused after it.
-/

namespace LastSietch.Identity

open Accounts (Tied Grows)
open Runs (exec Along exec_invariant exec_invariant')

namespace Accounts

def BoundOnce (acc : Accounts) : Prop :=
  ∀ b ∈ acc.bindings, ∀ b' ∈ acc.bindings, b.revokedAt = none → b'.revokedAt = none →
    b.accountId = b'.accountId → b = b'

def Mirrors (acc : Accounts) : Prop :=
  ∀ b ∈ acc.bindings, ∀ i ∈ b.legacyLinkId, ∃ l ∈ acc.links, l.id = i ∧
    l.accountId = b.accountId ∧ l.linkedAt = b.linkedAt ∧ l.revokedAt = b.revokedAt

structure Advances (acc acc' : Accounts) : Prop where
  owners : ∀ a o, acc.owners.get? a = some o → acc'.owners.get? a = some o
  bindings : ∀ k b, acc.bindings.get? k = some b →
    ∃ b', acc'.bindings.get? k = some b' ∧ (b' = b ∨ b.sessionVersion < b'.sessionVersion)

theorem boundOnce (acc : Accounts) : acc.BoundOnce := by
  intro b hb b' hb' hactive hactive' hacc
  refine Indexed.eq_of_entry (e := BindingEntry.account b.accountId) hb hb' ?_ ?_
  · simp [Binding.entries, hactive]
  · simp [Binding.entries, hactive', hacc]

theorem Tied.mirrors {acc : Accounts} (ht : Tied True [] acc) : acc.Mirrors := by
  intro b hb i hi
  obtain ⟨l, hl, hid, ⟨-, hacc, -⟩, hag⟩ := ht.linked b hb i hi
  obtain ⟨hlinked, hrevoked⟩ := (hag.resolve_left List.not_mem_nil).2 trivial
  exact ⟨l, hl, hid, hacc, hlinked, hrevoked⟩

theorem Grows.advances {acc acc' : Accounts} (h : Grows acc acc') : Advances acc acc' where
  owners := h.owners
  bindings k b hb := by
    obtain ⟨b', hb', -, hlater⟩ := h.bindings k b hb
    exact ⟨b', hb', hlater⟩

end Accounts

theorem backfilled_tied {exact : Prop} {links : Links} {db : Db} (h : backfilled links = .ok db) :
    Tied exact [] db.toAccounts := by
  obtain ⟨acc, hacc, rfl⟩ := map_eq_ok.mp h
  exact (Accounts.backfill_tied hacc).1

/-- The run rule: under `exact` every action of the run reads one second. -/
theorem run_tied {exact : Prop} {w w' : World} {as : List Action} (ht : Tied exact [] w.db.toAccounts)
    (hclock : exact → Along step OneSecond w as) (hrun : exec step w as = some w') :
    Tied exact [] w'.db.toAccounts := by
  by_cases hexact : exact
  · refine exec_invariant (I := fun w => Tied exact [] w.db.toAccounts) ?_ ht (hclock hexact) hrun
    intro w a w' ht hsecond hstep
    cases hstep
    exact (a.run_carries (fun _ => hsecond) ht).1
  · refine exec_invariant' (I := fun w => Tied exact [] w.db.toAccounts) ?_ ht hrun
    intro w a w' ht hstep
    cases hstep
    exact (a.run_carries (fun h => absurd h hexact) ht).1

theorem owners_always {links : Links} {db : Db} (hstart : backfilled links = .ok db) (clock : ℚ)
    {as : List Action} {w : World} (hrun : exec step ⟨db, clock⟩ as = some w) :
    w.db.BoundOnce ∧ (w.db.installed = true → w.db.Owned) ∧
      ∀ a w', step w a = some w' → w.db.toAccounts.Advances w'.db.toAccounts := by
  have ht : Tied False [] w.db.toAccounts :=
    run_tied (backfilled_tied hstart) (fun h => h.elim) hrun
  refine ⟨w.db.boundOnce, ht.owned, fun a w' hstep => ?_⟩
  cases hstep
  exact (a.run_carries (fun h => h.elim) ht).2.advances

/-- Account ownership and the mirror of the links, in every state that a run reaches whose
statements on a link and its binding read one second. -/
theorem account_ownership {links : Links} {db : Db} (hstart : backfilled links = .ok db) (clock : ℚ)
    {as : List Action} {w : World} (hseconds : Along step OneSecond ⟨db, clock⟩ as)
    (hrun : exec step ⟨db, clock⟩ as = some w) :
    w.db.BoundOnce ∧ (w.db.installed = true → w.db.Owned) ∧ w.db.Mirrors ∧
      ∀ a w', step w a = some w' → w.db.toAccounts.Advances w'.db.toAccounts := by
  have ht : Tied True [] w.db.toAccounts :=
    run_tied (backfilled_tied hstart) (fun _ => hseconds) hrun
  obtain ⟨honce, howned, hadvances⟩ := owners_always hstart clock hrun
  exact ⟨honce, howned, ht.mirrors, hadvances⟩

instance (acc : Accounts) : Decidable acc.Mirrors :=
  inferInstanceAs (Decidable (∀ b ∈ acc.bindings, ∀ i ∈ b.legacyLinkId, ∃ l ∈ acc.links, _))

def oneLink : Links :=
  ⟨⟨[⟨⟨1, "4815162342", 1001, 50, none⟩, "Paul", "muaddib"⟩], by decide⟩, 2, by decide, by decide⟩

theorem oneLink_starts : (backfilled oneLink).toOption.isSome = true := by decide

def startDb : Db := (backfilled oneLink).toOption.get oneLink_starts

theorem backfilled_oneLink : backfilled oneLink = .ok startDb := eq_ok_get oneLink_starts

def signIn : List Action :=
  [⟨100, 100, 100, .install⟩, ⟨101, 101, 101, .auth (.discordLogin "4815162342" none none)⟩]

/-- What `session` returns to the user who has signed in. -/
def paul : Current :=
  ⟨0, 1001, .discord "4815162342", 1, "Paul", "muaddib", "4815162342", 1, 2, 101, 101,
    .discord "4815162342"⟩

def unlink (linkStamp stamp : Stamp) : Action :=
  ⟨119, linkStamp, stamp, .auth (.unlinkAccount paul 1001)⟩

def relink (linkedAt : Stamp) (links : Links) : Links := links.restore (fun l => l.id = 1) linkedAt

def oneSecondRun : List Action :=
  signIn ++ [unlink 119 119, ⟨200, 200, 200, .legacyChange "4815162342" true (relink 200)⟩]

theorem oneSecondRun_goes : (exec step ⟨startDb, 0⟩ oneSecondRun).isSome = true := rfl

theorem account_ownership_oneLink :
    let w := (exec step ⟨startDb, 0⟩ oneSecondRun).get oneSecondRun_goes
    w.db.BoundOnce ∧ (w.db.installed = true → w.db.Owned) ∧ w.db.Mirrors ∧
      ∀ a w', step w a = some w' → w.db.toAccounts.Advances w'.db.toAccounts :=
  account_ownership backfilled_oneLink 0 (by decide) (Option.some_get _).symm

def twoSecondRun : List Action := signIn ++ [unlink 119 120]

theorem twoSecondRun_goes : (exec step ⟨startDb, 0⟩ twoSecondRun).isSome = true := rfl

/-- An unlink at the end of a second leaves the link and its binding with two times, and the user
cannot link the account again. -/
theorem twoSeconds_differ :
    let w := (exec step ⟨startDb, 0⟩ twoSecondRun).get twoSecondRun_goes
    backfilled oneLink = .ok startDb ∧
      (exec step ⟨startDb, 0⟩ signIn).map (fun w => (w.db.session 110 2).1) = some (some paul) ∧
      ¬ w.db.Mirrors ∧
      (match w.db.legacyChange "4815162342" true (relink 200) with
        | .error e => some e
        | .ok _ => none) = some .existingLinkBindingDiffers :=
  ⟨backfilled_oneLink, by decide +kernel, by decide +kernel, by decide +kernel⟩

end LastSietch.Identity
