import LastSietch.Ops.ClaimRuns

/-!
# Taking a claim and giving it back

Whole commands one after the other, with changes by the game and by other tools in between. A
`--revert` gives the totem to the newest owner whom the log has, whichever take is undone by it:

* `reverts_iff`: exactly when a revert undoes the take before it, and when one of somebody who does
  not hold the totem leaves its holder alone;
* `restored_stranger`: the revert of an orphan take that makes somebody the owner.
-/

namespace LastSietch.ClaimTakeover

structure Faults where
  claim : Fault
  who : Fault
  held : Fault
  name : Fault
  first : Fault
  second : Fault

/-- A command from its first query to its last statement: what its transaction leaves, where there
is one and it goes through. -/
def transaction (procs : Procs) (db : Db) (c : Command) (f : Faults) : Option (Outcome × Db) := do
  let (claim, who) ← (look db c f.claim f.who).toOption
  let counted ← (count db c claim who f.held f.name).toOption
  let plan ← (resolve db c claim who counted f.first f.second).toOption
  plan.run procs db

structure Outside where
  totems : Table Totem (·.id)
  perms : Permissions
  players : Table Player (·.accountId)
  mapNames : List (String × Nat)
  sole : Sole (·.permissionActorId) perms.owners

inductive Event
  | command (c : Command) (f : Faults)
  | change (o : Outside)

def Db.apply (procs : Procs) (db : Db) : Event → Db
  | .command c f => ((transaction procs db c f).map (·.2)).getD db
  | .change o => { db with
      totems := o.totems, perms := o.perms, players := o.players, mapNames := o.mapNames }

def Db.after (procs : Procs) (db : Db) (history : List Event) : Db :=
  history.foldl (Db.apply procs) db

/-- `player` is the owner of `totem`. -/
def Permissions.Holds (p : Permissions) (totem player : Nat) : Prop :=
  (⟨totem, player, 1⟩ : ActorRank) ∈ p.ranks

def Db.TakenFromOwner (db : Db) (totem : Nat) : Prop :=
  ∃ r ∈ db.log, r.totemId = totem ∧ r.action = .takeover ∧ r.priorOwnerPlayerId ≠ none

/-- Before a take and the revert that follows it: the take is from an owner, and the query of the
log is answered; or it is of an orphan, and the query brings nothing. -/
def Db.Undone (db : Db) (totem : Nat) (lookup : Fault) : Prop :=
  (∃ player, db.perms.Holds totem player) ∧ lookup = none ∨
    (∀ player, ¬db.perms.Holds totem player) ∧ (lookup ≠ none ∨ ¬db.TakenFromOwner totem)

def Db.LeftAlone (db : Db) (totem : Nat) (lookup : Fault) : Prop :=
  (∃ player, db.perms.Holds totem player) ∨ lookup ≠ none ∨ ¬db.TakenFromOwner totem

structure Db.Sane (db : Db) : Prop where
  sole : Sole (·.permissionActorId) db.perms.owners
  named : ∀ r ∈ db.log, r.priorOwnerPlayerId ≠ some 0

/-! ## The owner after a call -/

variable {procs : Procs} {p p' : Permissions} {totem player : Nat}

theorem Permissions.holds_iff_mem_owners :
    p.Holds totem player ↔ (⟨totem, player, 1⟩ : ActorRank) ∈ p.owners := by
  rw [mem_owners]
  exact (and_iff_left rfl).symm

theorem Permissions.holds_of_mem_owners {r : ActorRank} (hr : r ∈ p.owners)
    (htotem : r.permissionActorId = totem) : p.Holds totem r.playerId := by
  obtain ⟨place, owner, rank⟩ := r
  obtain ⟨hmem, hrank⟩ := mem_owners.mp hr
  cases htotem
  cases hrank
  exact hmem

theorem Permissions.owner?_none_iff : p.owner? totem = none ↔ ∀ player, ¬p.Holds totem player := by
  rw [owner?_eq_none]
  constructor
  · exact fun h player hold => h _ (holds_iff_mem_owners.mp hold) rfl
  · exact fun h r hr htotem => h r.playerId (holds_of_mem_owners hr htotem)

theorem Permissions.holds_of_owner? (h : p.owner? totem = some player) : p.Holds totem player := by
  obtain ⟨r, hfind, rfl⟩ := Option.map_eq_some_iff.mp h
  have hplace := List.find?_some hfind
  exact holds_of_mem_owners (List.mem_of_find?_eq_some hfind) (of_decide_eq_true hplace)

theorem Permissions.holds_unique (hsole : Sole (·.permissionActorId) p.owners) {other : Nat}
    (h : p.Holds totem player) (h' : p.Holds totem other) : player = other :=
  congrArg ActorRank.playerId
    (hsole _ (holds_iff_mem_owners.mp h) _ (holds_iff_mem_owners.mp h') rfl)

namespace Procs.Documented

variable {e : ActorPermissionEntry}

theorem remove_holds (h : procs.Documented)
    (hcall : procs.removePlayerRank totem player p = some p') (other : Nat) :
    p'.Holds totem other ↔ p.Holds totem other ∧ other ≠ player := by
  refine (h.remove hcall _).trans (and_congr_right fun _ => not_congr ?_)
  exact ⟨fun hkey => congrArg Prod.snd hkey, fun hother => congrArg (Prod.mk totem) hother⟩

theorem takeover_refused (h : procs.Documented) (hcall : procs.takeover e player p = some p')
    {owner : Nat} (howner : p.Holds e.actorId owner) : p' = p :=
  h.takeover_owned hcall ⟨_, Permissions.holds_iff_mem_owners.mp howner, rfl⟩

theorem takeover_holds (h : procs.Documented) (hcall : procs.takeover e player p = some p')
    (hfree : ∀ owner, ¬p.Holds e.actorId owner) (other : Nat) :
    p'.Holds e.actorId other ↔ other = player := by
  have hnone : ∀ r ∈ p.owners, r.permissionActorId ≠ e.actorId :=
    fun r hr hplace => hfree _ (Permissions.holds_of_mem_owners hr hplace)
  have hrow : (⟨e.actorId, other, 1⟩ : ActorRank) = ⟨e.actorId, player, 1⟩ ↔ other = player :=
    ⟨fun heq => congrArg ActorRank.playerId heq, fun heq => by rw [heq]⟩
  have hother : ¬(⟨e.actorId, other, 1⟩ : ActorRank) ∈ p.ranks := hfree other
  by_cases hentry : ∃ a ∈ p.actors, a.actorId = e.actorId
  · refine (h.takeover_unowned hcall hnone hentry _).trans ?_
    rw [hrow]
    exact or_iff_left fun hmem => hother hmem.1
  · push Not at hentry
    rw [h.takeover_unregistered hentry hnone] at hcall
    refine (h.register_new hcall hentry _).trans ?_
    rw [hrow]
    exact or_iff_left fun hmem => hother hmem.1

end Procs.Documented

namespace Plan

variable {plan : Plan}

theorem revertCall_holds (hdoc : procs.Documented)
    (hentry : ∀ e, plan.entry = some e → e.actorId = plan.command.totem)
    (hcall : plan.revertCall procs p = some p') (other : Nat) :
    p'.Holds plan.command.totem other ↔
      (p.Holds plan.command.totem other ∧ other ≠ plan.who.pcid) ∨
        plan.restoreTo = some other ∧
          ∀ owner, p.Holds plan.command.totem owner → owner = plan.who.pcid := by
  unfold revertCall at hcall
  simp only [Option.bind_eq_bind, Option.bind_eq_some_iff] at hcall
  obtain ⟨removed, hremove, hrestore⟩ := hcall
  have hremoved := hdoc.remove_holds hremove
  split at hrestore
  · rename_i old hold
    obtain ⟨entry, he, htake⟩ := Option.bind_eq_some_iff.mp hrestore
    have hid := hentry entry he
    by_cases hfree : ∀ owner, ¬removed.Holds plan.command.totem owner
    · have hall : ∀ owner, p.Holds plan.command.totem owner → owner = plan.who.pcid :=
        fun owner howner => by_contra fun hne => hfree owner ((hremoved owner).mpr ⟨howner, hne⟩)
      have htaken := hdoc.takeover_holds htake (by rw [hid]; exact hfree) other
      rw [hid] at htaken
      rw [htaken, ← hremoved other, hold, Option.some.injEq, eq_comm]
      constructor
      · exact fun heq => Or.inr ⟨heq, hall⟩
      · exact fun h => h.elim (fun h => absurd h (hfree other)) And.left
    · push Not at hfree
      obtain ⟨owner, howner⟩ := hfree
      have hrest : ¬∀ owner, p.Holds plan.command.totem owner → owner = plan.who.pcid :=
        fun hall => ((hremoved owner).mp howner).2 (hall owner ((hremoved owner).mp howner).1)
      rw [← hid] at howner
      rw [hdoc.takeover_refused htake howner, hremoved other]
      exact (or_iff_left fun h => hrest h.2).symm
  · rename_i hnone
    cases hrestore
    rw [hremoved other, hnone]
    exact (or_iff_left fun h => by cases h.1).symm

end Plan

/-! ## What a transaction has read -/

structure Done (procs : Procs) (db : Db) (c : Command) (f : Faults) (plan : Plan)
    (outcome : Outcome) (db' : Db) : Prop where
  looked : look db c f.claim f.who = .ok (plan.claim, plan.who)
  counted : count db c plan.claim plan.who f.held f.name = .ok plan.counted
  resolved : resolve db c plan.claim plan.who plan.counted f.first f.second = .ok plan
  run : plan.run procs db = some (outcome, db')

variable {db db' : Db} {c : Command} {f : Faults} {plan : Plan} {outcome : Outcome}

theorem resolve_reads {claim : Claim} {who : Who} {counted : Counted} {first second : Fault}
    (h : resolve db c claim who counted first second = .ok plan) :
    plan.command = c ∧ plan.claim = claim ∧ plan.who = who ∧ plan.counted = counted := by
  unfold resolve at h
  split at h
  · cases h
    exact ⟨rfl, rfl, rfl, rfl⟩
  · split at h
    · cases h
    · split at h
      · cases h
      · cases h
        exact ⟨rfl, rfl, rfl, rfl⟩
  all_goals
    cases h
    exact ⟨rfl, rfl, rfl, rfl⟩

theorem done_of_transaction (h : transaction procs db c f = some (outcome, db')) :
    ∃ plan, Done procs db c f plan outcome db' := by
  unfold transaction at h
  simp only [Option.bind_eq_bind, Option.bind_eq_some_iff, toOption_eq_some] at h
  obtain ⟨⟨claim, who⟩, hlook, counted, hcount, plan, hresolve, hrun⟩ := h
  obtain ⟨_, hclaim, hwho, hcounted⟩ := resolve_reads hresolve
  subst hclaim
  subst hwho
  subst hcounted
  exact ⟨plan, hlook, hcount, hresolve, hrun⟩

theorem look_reads {claim : Claim} {who : Who} {claimFault whoFault : Fault}
    (h : look db c claimFault whoFault = .ok (claim, who)) :
    db.check c.totem = some claim ∧
      (∃ p, db.players.get? c.account = some p ∧ p.playerControllerId = some who.pcid) ∧
      who.pcid ≠ 0 := by
  unfold look at h
  split at h
  · cases h
  rename_i hread
  split at h
  · cases h
  split at h
  · cases h
  split at h
  · cases h
  rename_i player hplayer
  split at h
  · cases h
  rename_i pcid hpcid
  cases h
  obtain ⟨hid, hne⟩ := Option.filter_eq_some_iff.mp hpcid
  exact ⟨queryJson_ok hread, ⟨player, queryJson_ok hplayer, hid⟩, of_decide_eq_true hne⟩

theorem check_reads {claim : Claim} {totem : Nat} (h : db.check totem = some claim) :
    claim.ownerPlayerId = db.perms.owner? totem ∧
      claim.hasPermissionActor = (db.perms.actors.get? totem).isSome := by
  obtain ⟨t, _, rfl⟩ := Option.map_eq_some_iff.mp h
  exact ⟨rfl, rfl⟩

namespace Done

theorem command (h : Done procs db c f plan outcome db') : plan.command = c :=
  (resolve_reads h.resolved).1

theorem entry_id (h : Done procs db c f plan outcome db') :
    ∀ e, plan.entry = some e → e.actorId = plan.command.totem :=
  (resolve_kept (look_ok h.looked) (count_capped h.counted) h.resolved).2

theorem owner (h : Done procs db c f plan outcome db') :
    plan.claim.ownerPlayerId = db.perms.owner? c.totem :=
  (check_reads (look_reads h.looked).1).1

theorem unregistered (h : Done procs db c f plan outcome db') (hmode : c.mode = .register) :
    db.perms.Unregistered c.totem := by
  obtain ⟨howner, hactor⟩ := check_reads (look_reads h.looked).1
  have hcount := h.counted
  unfold count at hcount
  rw [hmode] at hcount
  dsimp only at hcount
  split at hcount
  · cases hcount
  rename_i heligible
  unfold registerEligibility at heligible
  split at heligible
  · cases heligible
  split at heligible
  · cases heligible
  rename_i hnone
  split at heligible
  · cases heligible
  rename_i hfree
  rw [hactor] at hnone
  exact ⟨Option.isNone_iff_eq_none.mp (by simpa using hnone), howner.symm.trans hfree⟩

theorem forced (h : Done procs db c f plan outcome db') (hmode : c.mode = .take) {old : Nat}
    (hold : plan.claim.ownerPlayerId = some old) : c.forceOwned = true := by
  have hcount := h.counted
  unfold count at hcount
  rw [hmode] at hcount
  dsimp only at hcount
  split at hcount
  · rename_i heligible
    unfold eligibility at heligible
    rw [hold] at heligible
    split at heligible
    · cases heligible
    · split at heligible <;> cases heligible
  · rw [hold] at hcount
    dsimp only at hcount
    split at hcount
    · cases hcount
    · rename_i hrefused
      push Not at hrefused
      simpa using hrefused.2.2

theorem written (h : Done procs db c f plan outcome db') :
    plan.call procs db.perms = some db'.perms ∧ db'.players = db.players ∧
      ∃ r : LogRow, db'.log.rows = r :: db.log.rows ∧
        r = plan.logRow (db'.perms.owner? c.totem) db.log.next ∧ outcome = r.outcome := by
  have hrun := h.run
  unfold Plan.run at hrun
  simp only [Option.bind_eq_bind, Option.bind_eq_some_iff] at hrun
  obtain ⟨perms, hcall, log, hlog, hdb⟩ := hrun
  cases hdb
  have hc := h.command
  exact ⟨hcall, rfl, _, (SerialTable.rows_insert? hlog).1, by rw [hc], rfl⟩

theorem sane (h : Done procs db c f plan outcome db') (hdoc : procs.Documented) (hdb : db.Sane) :
    db'.Sane := by
  have hfree : plan.command.mode = .register → db.perms.Unregistered plan.command.totem := by
    rw [h.command]
    exact h.unregistered
  refine ⟨plan.sole_run hdoc h.entry_id hfree h.run hdb.sole, fun r hr => ?_⟩
  obtain ⟨_, _, row, hrows, hrow, _⟩ := h.written
  rw [SerialTable.mem_def, hrows] at hr
  rcases List.mem_cons.mp hr with rfl | hr
  · rw [hrow]
    intro hzero
    simp only [Plan.logRow, Plan.removed, Plan.prior] at hzero
    split at hzero
    · split at hzero
      · exact of_decide_eq_true (Option.filter_eq_some_iff.mp hzero).2 rfl
      · cases hzero
    · cases hzero
  · exact hdb.named r hr

end Done

/-! ## The owner to restore -/

def Db.restores (db : Db) (totem : Nat) (lookup : Fault) : Option Nat :=
  ((queryJson lookup (db.previous? totem)).toOption.filter (·.1 ≠ 0)).map (·.1)

theorem Done.restoreTo (h : Done procs db c f plan outcome db') (hmode : c.mode = .revert) :
    plan.restoreTo = db.restores c.totem f.first := by
  have hresolved := h.resolved
  unfold resolve at hresolved
  rw [hmode] at hresolved
  dsimp only at hresolved
  exact (congrArg Plan.restoreTo (Except.ok.inj hresolved)).symm

theorem Db.previous?_eq_none {totem : Nat} :
    db.previous? totem = none ↔ ¬db.TakenFromOwner totem := by
  unfold previous? TakenFromOwner
  rw [List.findSome?_eq_none_iff]
  simp only [List.mem_filter, decide_eq_true_eq, Option.map_eq_none_iff, SerialTable.mem_def]
  constructor
  · rintro h ⟨r, hr, htotem, haction, hprior⟩
    exact hprior (h r ⟨hr, htotem, haction⟩)
  · rintro h r ⟨hr, htotem, haction⟩
    exact by_contra fun hprior => h ⟨r, hr, htotem, haction, hprior⟩

theorem Db.Sane.previous (h : db.Sane) {totem : Nat} {q : Nat × Option String}
    (hq : db.previous? totem = some q) : q.1 ≠ 0 := by
  obtain ⟨r, hr, hprior⟩ := List.exists_of_findSome?_eq_some hq
  obtain ⟨pid, hpid, rfl⟩ := Option.map_eq_some_iff.mp hprior
  rintro rfl
  exact h.named r (List.mem_filter.mp hr).1 hpid

theorem Db.Sane.restores (h : db.Sane) {totem : Nat} {lookup : Fault} :
    db.restores totem lookup = none ↔ lookup ≠ none ∨ ¬db.TakenFromOwner totem := by
  unfold Db.restores
  rw [← Db.previous?_eq_none]
  cases lookup with
  | some error => simp [queryJson, Except.toOption]
  | none =>
    cases hq : db.previous? totem with
    | none => simp [queryJson, Except.toOption]
    | some q => simp [queryJson, Except.toOption, h.previous hq]

theorem Db.restores_of_row {totem old : Nat} {lookup : Fault} {r : LogRow} (hold : old ≠ 0)
    (hrows : db'.log.rows = r :: db.log.rows) (htotem : r.totemId = totem)
    (haction : r.action = .takeover) (hprior : r.priorOwnerPlayerId = some old) :
    db'.restores totem lookup = if lookup = none then some old else none := by
  have hprevious : db'.previous? totem = some (old, r.priorOwnerName) := by
    unfold previous?
    have hmatch : decide (r.totemId = totem ∧ r.action = .takeover) = true :=
      decide_eq_true ⟨htotem, haction⟩
    rw [hrows, List.filter_cons, if_pos hmatch, List.findSome?_cons, hprior]
    rfl
  unfold restores
  rw [hprevious]
  cases lookup <;> simp [queryJson, Except.toOption, hold]

theorem Db.restores_of_unnamed {totem : Nat} {lookup : Fault} {r : LogRow}
    (hrows : db'.log.rows = r :: db.log.rows) (hprior : r.priorOwnerPlayerId = none) :
    db'.restores totem lookup = db.restores totem lookup := by
  have hprevious : db'.previous? totem = db.previous? totem := by
    unfold previous?
    rw [hrows]
    rw [List.filter_cons]
    split
    · rw [List.findSome?_cons, hprior]
      rfl
    · rfl
  unfold restores
  rw [hprevious]

/-! ## A revert -/

theorem Done.reverted (h : Done procs db c f plan outcome db') (hdoc : procs.Documented)
    (hmode : c.mode = .revert) (other : Nat) :
    db'.perms.Holds c.totem other ↔
      (db.perms.Holds c.totem other ∧ other ≠ plan.who.pcid) ∨
        db.restores c.totem f.first = some other ∧
          ∀ owner, db.perms.Holds c.totem owner → owner = plan.who.pcid := by
  have hcall := h.written.1
  unfold Plan.call at hcall
  rw [h.command, hmode] at hcall
  have howner := plan.revertCall_holds hdoc h.entry_id hcall other
  rw [h.command, h.restoreTo hmode] at howner
  exact howner

theorem Done.taken (h : Done procs db c f plan .ok db') (hdoc : procs.Documented)
    (hmode : c.mode = .take) (lookup : Fault) :
    db'.perms.Holds c.totem plan.who.pcid ∧
      (∀ old, db.perms.owner? c.totem = some old →
        db'.restores c.totem lookup = if lookup = none then some old else none) ∧
      (db.perms.owner? c.totem = none →
        db'.restores c.totem lookup = db.restores c.totem lookup) := by
  obtain ⟨hcall, _, r, hrows, hr, hok⟩ := h.written
  have howner := h.owner
  have hafter : db'.perms.owner? c.totem = some plan.who.pcid := by
    rw [hr, Plan.logRow, Plan.expected, h.command, hmode] at hok
    dsimp only at hok
    split at hok
    · assumption
    · cases hok
  have hprior : r.priorOwnerPlayerId = plan.removed := by
    rw [hr, Plan.logRow, h.command, hmode]
    rfl
  refine ⟨Permissions.holds_of_owner? hafter, fun old hold => ?_, fun hnone => ?_⟩
  · rw [hold] at howner
    have hforced := h.forced hmode howner
    have hne : old ≠ 0 := by
      -- An owner 0 counts as none: it is not removed, and the takeover is refused.
      rintro rfl
      have hprior : plan.prior = none := by
        rw [Plan.prior, howner]
        rfl
      unfold Plan.call at hcall
      rw [h.command, hmode] at hcall
      dsimp only at hcall
      unfold Plan.takeCall at hcall
      simp only [Option.bind_eq_bind, Option.bind_eq_some_iff] at hcall
      obtain ⟨entry, he, cleared, hpre, taken, htake, hkept⟩ := hcall
      have hcleared : db.perms = cleared := by
        rw [Plan.pre, Plan.removed, hprior, ite_self] at hpre
        exact Option.some.inj hpre
      have hid : entry.actorId = c.totem := by
        rw [← h.command]
        exact h.entry_id entry he
      have hheld : cleared.Holds entry.actorId 0 := by
        rw [hid, ← hcleared]
        exact Permissions.holds_of_owner? hold
      rw [hdoc.takeover_refused htake hheld, ← hcleared, Plan.keepCoholder, hprior] at hkept
      rw [← Option.some.inj hkept, hold] at hafter
      exact (look_reads h.looked).2.2 (Option.some.inj hafter).symm
    refine Db.restores_of_row hne hrows ?_ ?_ ?_
    · rw [hr, Plan.logRow, h.command]
    · rw [hr, Plan.logRow, h.command, hmode]
      rfl
    · rw [hprior, Plan.removed, h.command, hforced, if_pos rfl, Plan.prior, howner]
      simp [hne]
  · rw [hnone] at howner
    refine Db.restores_of_unnamed hrows ?_
    rw [hprior, Plan.removed, Plan.prior, howner]
    simp

theorem Done.same_account {c' : Command} {f' : Faults} {plan' : Plan} {outcome' : Outcome}
    {db'' : Db} (h : Done procs db c f plan outcome db')
    (h' : Done procs db' c' f' plan' outcome' db'') (haccount : c'.account = c.account) :
    plan'.who.pcid = plan.who.pcid := by
  obtain ⟨_, ⟨p, hp, hpcid⟩, _⟩ := look_reads h.looked
  obtain ⟨_, ⟨p', hp', hpcid'⟩, _⟩ := look_reads h'.looked
  rw [h.written.2.1, haccount, hp] at hp'
  cases hp'
  rw [hpcid] at hpcid'
  exact (Option.some.inj hpcid').symm

/-! ## Every history -/

theorem Db.Sane.apply (h : db.Sane) (hdoc : procs.Documented) (e : Event) :
    (db.apply procs e).Sane := by
  cases e with
  | command c f =>
    unfold Db.apply
    dsimp only
    cases htransaction : transaction procs db c f with
    | none => exact h
    | some written =>
      obtain ⟨plan, hdone⟩ := done_of_transaction htransaction
      exact hdone.sane hdoc h
  | change o => exact ⟨o.sole, h.named⟩

theorem Db.Sane.after (h : db.Sane) (hdoc : procs.Documented) (history : List Event) :
    (db.after procs history).Sane := by
  induction history generalizing db with
  | nil => exact h
  | cons e history ih => exact ih (h.apply hdoc e)

def Permissions.SameOwner (p p' : Permissions) (totem : Nat) : Prop :=
  ∀ player, p'.Holds totem player ↔ p.Holds totem player

theorem Done.undone_iff {revert : Command} {f' : Faults} {plan' : Plan} {outcome' : Outcome}
    {reverted : Db} (h : Done procs db c f plan .ok db')
    (h' : Done procs db' revert f' plan' outcome' reverted) (hdoc : procs.Documented)
    (hsane : db.Sane) (hmode : c.mode = .take) (hmode' : revert.mode = .revert)
    (htotem : revert.totem = c.totem) (haccount : revert.account = c.account) :
    db.perms.SameOwner reverted.perms c.totem ↔ db.Undone c.totem f'.first := by
  obtain ⟨htaken, hfrom, horphan⟩ := h.taken hdoc hmode f'.first
  have hsole := (h.sane hdoc hsane).sole
  have hreverted : ∀ other, reverted.perms.Holds c.totem other ↔
      db'.restores c.totem f'.first = some other := by
    intro other
    have howner := h'.reverted hdoc hmode' other
    rw [htotem, h.same_account h' haccount] at howner
    rw [howner]
    constructor
    · rintro (⟨hold, hne⟩ | ⟨hrestore, _⟩)
      · exact absurd (Permissions.holds_unique hsole hold htaken) hne
      · exact hrestore
    · exact fun hrestore =>
        Or.inr ⟨hrestore, fun _ hold => Permissions.holds_unique hsole hold htaken⟩
  unfold Permissions.SameOwner Db.Undone
  cases howner : db.perms.owner? c.totem with
  | some old =>
    have hold := Permissions.holds_of_owner? howner
    have hsome : ¬∀ player, ¬db.perms.Holds c.totem player := fun hnone => hnone old hold
    rw [or_iff_left fun h => hsome h.1, and_iff_right ⟨old, hold⟩]
    constructor
    · intro hsame
      have hrestore := (hreverted old).mp ((hsame old).mpr hold)
      rw [hfrom old howner] at hrestore
      exact by_contra fun hfault => by
        rw [if_neg hfault] at hrestore
        cases hrestore
    · intro hanswered player
      rw [hreverted player, hfrom old howner, if_pos hanswered, Option.some.injEq]
      exact ⟨fun heq => heq ▸ hold, fun h => Permissions.holds_unique hsane.sole hold h⟩
  | none =>
    have hnone := Permissions.owner?_none_iff.mp howner
    rw [or_iff_right fun h => h.1.elim hnone, and_iff_right hnone, ← hsane.restores]
    constructor
    · intro hsame
      refine Option.eq_none_iff_forall_ne_some.mpr fun old hrestore => ?_
      rw [← horphan howner, ← hreverted old] at hrestore
      exact hnone old ((hsame old).mp hrestore)
    · intro hrestore player
      rw [hreverted player, horphan howner, hrestore]
      exact ⟨fun h => (by cases h), fun h => absurd h (hnone player)⟩

theorem Done.leftAlone_iff (h : Done procs db c f plan outcome db') (hdoc : procs.Documented)
    (hsane : db.Sane) (hmode : c.mode = .revert)
    (hstranger : ¬db.perms.Holds c.totem plan.who.pcid) :
    db.perms.SameOwner db'.perms c.totem ↔ db.LeftAlone c.totem f.first := by
  have hreverted := h.reverted hdoc hmode
  unfold Permissions.SameOwner Db.LeftAlone
  by_cases hsome : ∃ player, db.perms.Holds c.totem player
  · obtain ⟨owner, howner⟩ := hsome
    refine iff_of_true (fun player => ?_) (Or.inl ⟨owner, howner⟩)
    rw [hreverted player]
    constructor
    · rintro (⟨hold, _⟩ | ⟨_, hall⟩)
      · exact hold
      · exact absurd (hall owner howner ▸ howner) hstranger
    · exact fun hold => Or.inl ⟨hold, fun heq => hstranger (heq ▸ hold)⟩
  · rw [or_iff_right hsome, ← hsane.restores]
    push Not at hsome
    constructor
    · intro hsame
      refine Option.eq_none_iff_forall_ne_some.mpr fun old hrestore => ?_
      have hold : db'.perms.Holds c.totem old :=
        (hreverted old).mpr (Or.inr ⟨hrestore, fun owner howner => absurd howner (hsome owner)⟩)
      exact hsome old ((hsame old).mp hold)
    · intro hrestore player
      rw [hreverted player, hrestore]
      constructor
      · rintro (⟨hold, _⟩ | ⟨h, _⟩)
        · exact hold
        · cases h
      · exact fun hold => absurd hold (hsome player)

/-- After any history: a revert right after a take onto the account gives the totem back exactly
where the take is from an owner, or the log names none for the totem; and a revert of an account
that does not own the totem changes its owner exactly where it has none and the log names one. -/
theorem reverts_iff (hdoc : procs.Documented) {start : Db} (hstart : start.Sane)
    (history : List Event) (hdb : start.after procs history = db) :
    (∀ (take revert : Command) (f f' : Faults) (taken reverted : Db) (outcome : Outcome),
      take.mode = .take → revert.mode = .revert → revert.totem = take.totem →
      revert.account = take.account → transaction procs db take f = some (.ok, taken) →
      transaction procs taken revert f' = some (outcome, reverted) →
      (db.perms.SameOwner reverted.perms take.totem ↔ db.Undone take.totem f'.first)) ∧
    ∀ (revert : Command) (f : Faults) (reverted : Db) (outcome : Outcome), revert.mode = .revert →
      (∀ p ∈ db.players.get? revert.account, ∀ pcid ∈ p.playerControllerId,
        ¬db.perms.Holds revert.totem pcid) →
      transaction procs db revert f = some (outcome, reverted) →
      (db.perms.SameOwner reverted.perms revert.totem ↔ db.LeftAlone revert.totem f.first) := by
  have hsane : db.Sane := by
    rw [← hdb]
    exact hstart.after hdoc history
  constructor
  · intro take revert f f' taken reverted outcome hmode hmode' htotem haccount htake hrevert
    obtain ⟨plan, hdone⟩ := done_of_transaction htake
    obtain ⟨plan', hdone'⟩ := done_of_transaction hrevert
    exact hdone.undone_iff hdone' hdoc hsane hmode hmode' htotem haccount
  · intro revert f reverted outcome hmode hstranger hrevert
    obtain ⟨plan, hdone⟩ := done_of_transaction hrevert
    obtain ⟨_, ⟨p, hp, hpcid⟩, _⟩ := look_reads hdone.looked
    exact hdone.leftAlone_iff hdoc hsane hmode (hstranger p hp _ hpcid)

/-! ## A claim that is taken twice -/

def answered : Faults := ⟨none, none, none, none, none, none⟩

/-- Account 1 takes totem 5 and gives it back: both go through, and then it is `owner`'s. -/
def RoundTrip (db : Db) (owner : Nat) : Prop :=
  ((transaction gameProcs db (command .take 5) answered).any fun t => decide (t.1 = .ok) &&
    (transaction gameProcs t.2 (command .revert 5) answered).any fun r =>
      decide (r.1 = .ok ∧ ⟨5, owner, 1⟩ ∈ r.2.perms.ranks.rows)) = true

theorem RoundTrip.exists {owner : Nat} (h : RoundTrip db owner) :
    ∃ taken reverted, transaction gameProcs db (command .take 5) answered = some (.ok, taken) ∧
      transaction gameProcs taken (command .revert 5) answered = some (.ok, reverted) ∧
      reverted.perms.Holds 5 owner := by
  obtain ⟨⟨outcome, taken⟩, htake, hrest⟩ := (Option.any_eq_true _ _).mp h
  obtain ⟨hok, hrest⟩ := Bool.and_eq_true_iff.mp hrest
  obtain ⟨⟨outcome', reverted⟩, hrevert, hrest⟩ := (Option.any_eq_true _ _).mp hrest
  obtain ⟨hok', hold⟩ := of_decide_eq_true hrest
  have hok := of_decide_eq_true hok
  dsimp only at hok hok'
  subst hok
  subst hok'
  exact ⟨taken, reverted, htake, hrevert, hold⟩

theorem claims_sane : claimsDb.Sane :=
  ⟨claims_start.sole, fun r hr => by cases hr⟩

/-- The revert of a take from player 70 gives the totem back. -/
theorem reverts_iff_forced : ∃ taken reverted,
    transaction gameProcs claimsDb (command .take 5) answered = some (.ok, taken) ∧
      transaction gameProcs taken (command .revert 5) answered = some (.ok, reverted) ∧
      claimsDb.perms.SameOwner reverted.perms 5 := by
  have htrip : RoundTrip claimsDb 70 := by
    unfold RoundTrip
    decide
  obtain ⟨taken, reverted, htake, hrevert, _⟩ := htrip.exists
  have hheld : claimsDb.perms.Holds 5 70 := List.mem_singleton.mpr rfl
  have hundone : claimsDb.Undone 5 none := Or.inl ⟨⟨70, hheld⟩, rfl⟩
  have hiff := (reverts_iff gameProcs_documented claims_sane [] rfl).1 (command .take 5)
    (command .revert 5) answered answered taken reverted .ok rfl rfl rfl rfl htake hrevert
  exact ⟨taken, reverted, htake, hrevert, hiff.mpr hundone⟩

theorem abandoned_sole : Sole (·.permissionActorId) ([] : List ActorRank) := by
  intro x hx
  cases hx

def abandoned : Outside where
  totems := claimsDb.totems
  perms := { claimsDb.perms with ranks := .empty }
  players := claimsDb.players
  mapNames := claimsDb.mapNames
  sole := abandoned_sole

def takenAndLost : List Event := [.command (command .take 5) answered, .change abandoned]

/-- It is an orphan then, and the revert of taking it makes player 70 its owner. -/
theorem restored_stranger : gameProcs.Documented ∧ claimsDb.Sane ∧ ∃ taken reverted,
    transaction gameProcs (claimsDb.after gameProcs takenAndLost) (command .take 5) answered =
        some (.ok, taken) ∧
      transaction gameProcs taken (command .revert 5) answered = some (.ok, reverted) ∧
      ¬(claimsDb.after gameProcs takenAndLost).perms.SameOwner reverted.perms 5 := by
  have htrip : RoundTrip (claimsDb.after gameProcs takenAndLost) 70 := by
    unfold RoundTrip
    decide
  obtain ⟨taken, reverted, htake, hrevert, hold⟩ := htrip.exists
  refine ⟨gameProcs_documented, claims_sane, taken, reverted, htake, hrevert, fun hsame => ?_⟩
  have hbefore : (claimsDb.after gameProcs takenAndLost).perms.Holds 5 70 := (hsame 70).mp hold
  cases hbefore

end LastSietch.ClaimTakeover
