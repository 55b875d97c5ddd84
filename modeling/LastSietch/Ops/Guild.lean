import LastSietch.Lib.Runs
import LastSietch.Lib.Sql
import LastSietch.Lib.Table

/-!
# Guild ranks

The member operations of `dune-guild-op.sh` and the acceptance of an invite, each one transaction
under the guild lock. The game's procedures do what their callers rely on: a promotion and a
demotion write the role that they are passed, a promotion to Leader makes the Leader before an
Officer, and an accepted invite adds a Member.

* `doOp_applied`: an operation that is not applied changes nothing, and what one that is applied
  had to find.
* `Ruled`: what an operation may do to the roles of a guild with one Leader.
* `ranks_ruled`: every operation of every run is `Ruled`, and one Leader stays.
-/

namespace LastSietch.Guild

open Runs (exec)

def leader : Nat := 100
def officer : Nat := 50
def joinRole : Nat := 1

/-- A row of `dune.guild_members`. -/
structure Member where
  guildId : Nat
  playerId : Nat
  roleId : Nat
  deriving DecidableEq, Repr

def Member.key (m : Member) : Nat × Nat := (m.guildId, m.playerId)

abbrev Members := Table Member Member.key

inductive Op
  | acceptInvite | promote | demote | remove
  deriving DecidableEq, Repr

/-- A row of `dune.ls_guild_ops`; the key is a UUID. -/
structure OpRow where
  idempotencyKey : Nat
  op : Op
  guildId : Nat
  actorAccountId : Nat
  deriving DecidableEq, Repr

structure Payload where
  op : Op
  guildId : Nat
  actorAccountId : Nat
  targetPlayerControllerId : Nat
  newRole : Nat
  inviteId : Nat
  idempotencyKey : Nat
  dryRun : Bool
  deriving DecidableEq, Repr

/-- `GUILD_WRITES_DARK` and `GUILD_REMOVE_REASON`. -/
structure Config where
  writesDark : Bool
  removeReason : Option Int

structure Invite where
  id : Nat
  playerId : Nat
  guildId : Nat
  deriving DecidableEq, Repr

/-- What a transaction reads outside the member table: the freshest controller of an account, the
open invites, and whether a procedure raises for a reason of its own. -/
structure Game where
  controller : Nat → Option Nat
  invites : List Invite
  raises : Bool

inductive Failure
  | invalid (field : String)
  | removeDisabled
  | noController | notOfficer | notMember | higherTarget | selfTarget | notLeader
  | foreignInvite | procedure
  deriving DecidableEq, Repr

inductive Status
  | deferred | dryRun | applied | replay
  | failed (e : Failure)
  deriving DecidableEq, Repr

/-! ## The operations -/

def validatePosint (n : Nat) (field : String) : Except Failure Unit :=
  require (n ≠ 0) (.invalid field)

def Payload.validate (c : Config) (p : Payload) : Except Failure Unit :=
  match p.op with
  | .acceptInvite => validatePosint p.inviteId "invite_id"
  | .promote => do
    validatePosint p.guildId "guild_id"
    validatePosint p.targetPlayerControllerId "target_player_controller_id"
    require (p.newRole = 50 ∨ p.newRole = 100) (.invalid "new_role")
  | .demote => do
    validatePosint p.guildId "guild_id"
    validatePosint p.targetPlayerControllerId "target_player_controller_id"
    require (p.newRole = 1 ∨ p.newRole = 50) (.invalid "new_role")
  | .remove => do
    validatePosint p.guildId "guild_id"
    validatePosint p.targetPlayerControllerId "target_player_controller_id"
    require c.removeReason.isSome .removeDisabled

def roleOf (ms : Members) (guildId playerId : Nat) : Option Nat :=
  (ms.get? (guildId, playerId)).map (·.roleId)

def memberGate (ms : Members) (p : Payload) (ctrl : Nat) : Except Failure Unit := do
  let actorRole ← orRaise (roleOf ms p.guildId ctrl) .notOfficer
  require (actorRole = officer ∨ actorRole = leader) .notOfficer
  let targetRole ← orRaise (roleOf ms p.guildId p.targetPlayerControllerId) .notMember
  require (targetRole < actorRole) .higherTarget
  require (ctrl ≠ p.targetPlayerControllerId) .selfTarget
  require (p.op = .promote ∧ p.newRole = leader → actorRole = leader) .notLeader

def setRole (ms : Members) (which : Member → Bool) (role : Nat) : Members :=
  ms.update which (fun m => { m with roleId := role })

def isTarget (guildId target : Nat) (m : Member) : Bool := m.key = (guildId, target)

/-- `promote_guild_member`. -/
def promoteGuildMember (ms : Members) (guildId target role : Nat) : Members :=
  let ms := if role = leader then
      setRole ms (fun m => m.guildId = guildId ∧ m.roleId = leader) officer
    else ms
  setRole ms (isTarget guildId target) role

/-- `demote_guild_member`. -/
def demoteGuildMember (ms : Members) (guildId target role : Nat) : Except Failure Members := do
  require (role ≠ leader) .procedure
  return setRole ms (isTarget guildId target) role

/-- `remove_guild_members`, of one member. -/
def removeGuildMember (ms : Members) (guildId target : Nat) : Members :=
  ms.filter (fun m => m.key ≠ (guildId, target))

/-- The body of the `DO` block behind the gate on the key. -/
def opBody (g : Game) (p : Payload) (ms : Members) : Except Failure Members := do
  let ctrl ← orRaise (g.controller p.actorAccountId) .noController
  match p.op with
  | .acceptInvite => do
    let invite ← orRaise (g.invites.find? fun i => i.id = p.inviteId ∧ i.playerId = ctrl)
      .foreignInvite
    require (¬ g.raises) .procedure
    orRaise (ms.insert? ⟨invite.guildId, ctrl, joinRole⟩) .procedure
  | .promote => do
    memberGate ms p ctrl
    require (¬ g.raises) .procedure
    return promoteGuildMember ms p.guildId p.targetPlayerControllerId p.newRole
  | .demote => do
    memberGate ms p ctrl
    require (¬ g.raises) .procedure
    demoteGuildMember ms p.guildId p.targetPlayerControllerId p.newRole
  | .remove => do
    memberGate ms p ctrl
    require (¬ g.raises) .procedure
    return removeGuildMember ms p.guildId p.targetPlayerControllerId

structure World where
  members : Members
  ops : Table OpRow OpRow.idempotencyKey

/-- `do_op`; a transaction that raises is rolled back with its audit row. -/
def doOp (c : Config) (g : Game) (p : Payload) (w : World) : World × Status :=
  if p.actorAccountId = 0 then (w, .failed (.invalid "actor_account_id"))
  else if c.writesDark then (w, .deferred)
  else
    match p.validate c with
    | .error e => (w, .failed e)
    | .ok () =>
      if p.dryRun then (w, .dryRun)
      else
        match w.ops.insert? ⟨p.idempotencyKey, p.op, p.guildId, p.actorAccountId⟩ with
        | none => (w, .replay)
        | some ops =>
          match opBody g p w.members with
          | .error e => (w, .failed e)
          | .ok members => (⟨members, ops⟩, .applied)

structure Act where
  config : Config
  game : Game
  payload : Payload

def step (w : World) (a : Act) : Option World := some (doOp a.config a.game a.payload w).1

def OneLeader (guildId : Nat) (ms : Members) : Prop :=
  ∃ l, ∀ p, roleOf ms guildId p = some leader ↔ p = l

def Transfers (p : Payload) : Prop := p.op = .promote ∧ p.newRole = leader

/-- What an operation of an account under `ctrl` may do to the roles of a guild: a member's role
or membership changes under an actor with a strictly higher role, or in a transfer for the actor
that was the Leader; and only an invite that is accepted adds a member. -/
structure Ruled (g : Game) (p : Payload) (guildId : Nat) (ms ms' : Members) : Prop where
  lost : ∀ q r, roleOf ms guildId q = some r → roleOf ms' guildId q ≠ some r →
    ∃ ctrl ra, g.controller p.actorAccountId = some ctrl ∧ roleOf ms guildId ctrl = some ra ∧
      (r < ra ∨ Transfers p ∧ q = ctrl ∧ r = leader ∧ roleOf ms' guildId q = some officer)
  added : ∀ q r, roleOf ms guildId q = none → roleOf ms' guildId q = some r →
    p.op = .acceptInvite ∧ g.controller p.actorAccountId = some q ∧ r = joinRole
  promotes : p.op = .promote → ∀ r r', roleOf ms guildId p.targetPlayerControllerId = some r →
    roleOf ms' guildId p.targetPlayerControllerId = some r' → r = joinRole ∨ r = officer →
      r ≤ r'
  demotes : p.op = .demote → ∀ r r', roleOf ms guildId p.targetPlayerControllerId = some r →
    roleOf ms' guildId p.targetPlayerControllerId = some r' → officer ≤ r → r' ≤ r

/-! ## What an operation finds -/

variable {c : Config} {g : Game} {p : Payload} {w : World} {ms ms' : Members} {guildId : Nat}

theorem doOp_applied (c : Config) (g : Game) (p : Payload) (w : World) :
    (doOp c g p w).1 = w ∨ p.validate c = .ok () ∧
      opBody g p w.members = .ok (doOp c g p w).1.members ∧
      (∀ row ∈ w.ops, row.idempotencyKey ≠ p.idempotencyKey) ∧
      ∃ row ∈ (doOp c g p w).1.ops, row.idempotencyKey = p.idempotencyKey := by
  unfold doOp
  split
  · exact Or.inl rfl
  split
  · exact Or.inl rfl
  split
  · exact Or.inl rfl
  rename_i hvalid
  split
  · exact Or.inl rfl
  split
  · exact Or.inl rfl
  rename_i ops hops
  split
  · exact Or.inl rfl
  rename_i members hbody
  refine Or.inr ⟨hvalid, hbody, fun row hrow hkey => ?_, _,
    (Table.mem_insert? hops).mpr (Or.inl rfl), rfl⟩
  exact Table.fresh_of_insert? hops hrow hkey

theorem roleOf_setRole (ms : Members) (which : Member → Bool) (role gid q : Nat) :
    roleOf (setRole ms which role) gid q =
      (ms.get? (gid, q)).map fun m => if which m then role else m.roleId := by
  have hget :=
    Table.get?_update ms which (fun m => { m with roleId := role }) (fun _ => rfl) (gid, q)
  unfold roleOf setRole
  rw [hget, Option.map_map]
  congr 1
  funext m
  exact apply_ite Member.roleId _ _ _

theorem roleOf_target (ms : Members) (gid target role gid' q : Nat) :
    roleOf (setRole ms (isTarget gid target) role) gid' q =
      if (gid', q) = (gid, target) then (roleOf ms gid' q).map (fun _ => role)
      else roleOf ms gid' q := by
  rw [roleOf_setRole]
  unfold roleOf isTarget
  cases hm : ms.get? (gid', q) with
  | none => simp
  | some m =>
    rw [Option.map_some, Table.key_of_get? hm]
    by_cases h : (gid', q) = (gid, target) <;> simp [h]

theorem roleOf_promote (ms : Members) (gid target role gid' q : Nat) :
    roleOf (promoteGuildMember ms gid target role) gid' q =
      if (gid', q) = (gid, target) then (roleOf ms gid' q).map (fun _ => role)
      else if role = leader ∧ gid' = gid ∧ roleOf ms gid' q = some leader then some officer
      else roleOf ms gid' q := by
  unfold promoteGuildMember
  dsimp only
  rw [roleOf_target]
  by_cases hrole : role = leader
  · rw [if_pos hrole, roleOf_setRole]
    unfold roleOf
    cases hm : ms.get? (gid', q) with
    | none => simp
    | some m =>
      have hgid : m.guildId = gid' := congrArg Prod.fst (Table.key_of_get? hm)
      simp only [Option.map_some, hgid, hrole, Option.some.injEq, true_and, decide_eq_true_eq]
      split
      · rfl
      · split <;> rfl
  · simp [hrole]

theorem roleOf_remove (ms : Members) (gid target gid' q : Nat) :
    roleOf (removeGuildMember ms gid target) gid' q =
      if (gid', q) = (gid, target) then none else roleOf ms gid' q := by
  unfold roleOf removeGuildMember
  split
  case isTrue h =>
    have hnone : (ms.filter fun m => m.key ≠ (gid, target)).get? (gid', q) = none := by
      refine Table.get?_eq_none.mpr fun m hm hkey => ?_
      have hne := (Table.mem_filter.mp hm).2
      simp [hkey, h] at hne
    rw [hnone]
    rfl
  case isFalse h =>
    congr 1
    refine Option.ext fun m => ?_
    rw [Table.get?_eq_some, Table.get?_eq_some, Table.mem_filter]
    constructor
    · rintro ⟨⟨hm, -⟩, hkey⟩
      exact ⟨hm, hkey⟩
    · rintro ⟨hm, hkey⟩
      exact ⟨⟨hm, by simp [hkey, h]⟩, hkey⟩

theorem roleOf_insert {gid player role : Nat}
    (hins : ms.insert? ⟨gid, player, role⟩ = some ms') (gid' q : Nat) :
    roleOf ms' gid' q = if (gid', q) = (gid, player) then some role else roleOf ms gid' q := by
  unfold roleOf
  rw [Table.get?_insert? hins]
  by_cases h : (gid', q) = (gid, player)
  · rw [if_pos h, if_pos (show Member.key ⟨gid, player, role⟩ = (gid', q) from h.symm)]
    rfl
  · rw [if_neg h, if_neg (show Member.key ⟨gid, player, role⟩ ≠ (gid', q) from Ne.symm h)]

structure Gate (ms : Members) (p : Payload) (ctrl ra rt : Nat) : Prop where
  actor : roleOf ms p.guildId ctrl = some ra
  rank : ra = officer ∨ ra = leader
  target : roleOf ms p.guildId p.targetPlayerControllerId = some rt
  above : rt < ra
  other : ctrl ≠ p.targetPlayerControllerId
  transfer : Transfers p → ra = leader

theorem memberGate_ok {ctrl : Nat} (h : memberGate ms p ctrl = .ok ()) :
    ∃ ra rt, Gate ms p ctrl ra rt := by
  simp only [memberGate, bind_eq_ok, orRaise_eq_ok, require_eq_ok] at h
  obtain ⟨ra, hactor, -, hrank, rt, htarget, -, habove, -, hother, htransfer⟩ := h
  exact ⟨ra, rt, hactor, hrank, htarget, habove, hother, htransfer⟩

/-- What an operation that is applied has done; a demotion writes a role that is no Leader's, so
it is what a promotion would do. -/
inductive Done (g : Game) (p : Payload) (ms : Members) (ctrl : Nat) : Members → Prop
  | accepts {gid : Nat} {ms' : Members} (hop : p.op = .acceptInvite)
      (hins : ms.insert? ⟨gid, ctrl, joinRole⟩ = some ms') : Done g p ms ctrl ms'
  | writes {ra rt : Nat} (hop : p.op = .promote ∧ (p.newRole = 50 ∨ p.newRole = 100) ∨
      p.op = .demote ∧ (p.newRole = 1 ∨ p.newRole = 50)) (hgate : Gate ms p ctrl ra rt) :
      Done g p ms ctrl (promoteGuildMember ms p.guildId p.targetPlayerControllerId p.newRole)
  | removes {ra rt : Nat} (hop : p.op = .remove) (hgate : Gate ms p ctrl ra rt) :
      Done g p ms ctrl (removeGuildMember ms p.guildId p.targetPlayerControllerId)

theorem opBody_done (hvalid : p.validate c = .ok ()) (h : opBody g p ms = .ok ms') :
    ∃ ctrl, g.controller p.actorAccountId = some ctrl ∧ Done g p ms ctrl ms' := by
  simp only [opBody, bind_eq_ok, orRaise_eq_ok] at h
  obtain ⟨ctrl, hctrl, h⟩ := h
  refine ⟨ctrl, hctrl, ?_⟩
  unfold Payload.validate at hvalid
  cases hop : p.op with
  | acceptInvite =>
    simp only [hop, bind_eq_ok, orRaise_eq_ok, require_eq_ok] at h
    obtain ⟨invite, -, -, -, hins⟩ := h
    exact .accepts hop hins
  | promote =>
    simp only [hop, bind_eq_ok, require_eq_ok, pure_eq_ok] at h hvalid
    obtain ⟨_, hgate, _, _, rfl⟩ := h
    obtain ⟨_, _, _, _, hrole⟩ := hvalid
    obtain ⟨ra, rt, hgate⟩ := memberGate_ok hgate
    exact .writes (Or.inl ⟨hop, hrole⟩) hgate
  | demote =>
    simp only [hop, demoteGuildMember, bind_eq_ok, require_eq_ok, pure_eq_ok] at h hvalid
    obtain ⟨_, hgate, _, _, _, hrole', rfl⟩ := h
    obtain ⟨_, _, _, _, hrole⟩ := hvalid
    obtain ⟨ra, rt, hgate⟩ := memberGate_ok hgate
    have hwrites := Done.writes (g := g) (Or.inr ⟨hop, hrole⟩) hgate
    rwa [promoteGuildMember, if_neg hrole'] at hwrites
  | remove =>
    simp only [hop, bind_eq_ok, require_eq_ok, pure_eq_ok] at h
    obtain ⟨_, hgate, _, _, rfl⟩ := h
    obtain ⟨ra, rt, hgate⟩ := memberGate_ok hgate
    exact .removes hop hgate

/-! ## What an operation does to the roles -/

theorem Gate.ne_leader {ctrl ra rt : Nat} (h : Gate ms p ctrl ra rt) : rt ≠ leader := by
  have habove := h.above
  rcases h.rank with rfl | rfl <;> simp only [officer, leader] at * <;> omega

theorem Ruled.refl (g : Game) (p : Payload) (guildId : Nat) (ms : Members) :
    Ruled g p guildId ms ms where
  lost q r h hne := absurd h hne
  added q r h h' := by
    rw [h] at h'
    cases h'
  promotes _ r r' h h' _ := by
    rw [h] at h'
    exact le_of_eq (Option.some.inj h')
  demotes _ r r' h h' _ := by
    rw [h] at h'
    exact le_of_eq (Option.some.inj h').symm

theorem Gate.lost {ctrl ra rt q r : Nat} (hgate : Gate ms p ctrl ra rt)
    (hctrl : g.controller p.actorAccountId = some ctrl)
    (heq : (guildId, q) = (p.guildId, p.targetPlayerControllerId))
    (hr : roleOf ms guildId q = some r) : ∃ ctrl ra, g.controller p.actorAccountId = some ctrl ∧
      roleOf ms guildId ctrl = some ra ∧
      (r < ra ∨ Transfers p ∧ q = ctrl ∧ r = leader ∧ roleOf ms' guildId q = some officer) := by
  obtain ⟨rfl, rfl⟩ := Prod.mk.inj heq
  rw [hgate.target] at hr
  exact ⟨ctrl, ra, hctrl, hgate.actor, Or.inl (Option.some.inj hr ▸ hgate.above)⟩

theorem Done.ruled {ctrl : Nat} (hctrl : g.controller p.actorAccountId = some ctrl)
    (h : Done g p ms ctrl ms') (hone : OneLeader guildId ms) : Ruled g p guildId ms ms' := by
  cases h with
  | accepts hop hins =>
    have hkeeps : ∀ q r, roleOf ms guildId q = some r → roleOf ms' guildId q = some r := by
      intro q r hr
      obtain ⟨m, hm, rfl⟩ := Option.map_eq_some_iff.mp hr
      exact congrArg (Option.map (·.roleId)) (Table.insert?_keeps hins hm)
    refine ⟨fun q r hr hne => absurd (hkeeps q r hr) hne, fun q r hr hr' => ?_,
      fun h => absurd (hop.symm.trans h) (by decide),
      fun h => absurd (hop.symm.trans h) (by decide)⟩
    rw [roleOf_insert hins, hr] at hr'
    split at hr'
    case isTrue heq => exact ⟨hop, (Prod.mk.inj heq).2 ▸ hctrl, (Option.some.inj hr').symm⟩
    case isFalse => cases hr'
  | writes hop hgate =>
    refine ⟨fun q r hr hne => ?_, fun q r hr hr' => ?_, fun hop' r r' hr hr' hlow => ?_,
      fun hop' r r' hr hr' hhigh => ?_⟩
    · by_cases heq : (guildId, q) = (p.guildId, p.targetPlayerControllerId)
      · exact hgate.lost hctrl heq hr
      rw [roleOf_promote, if_neg heq] at hne ⊢
      by_cases htransfer : p.newRole = leader ∧ guildId = p.guildId ∧
          roleOf ms guildId q = some leader
      · obtain ⟨hleader, rfl, hq⟩ := htransfer
        have hop : p.op = .promote := by
          rcases hop with ⟨hop, -⟩ | ⟨-, hrole⟩
          · exact hop
          · rw [hleader] at hrole
            exact absurd hrole (by decide)
        have hra := hgate.transfer ⟨hop, hleader⟩
        obtain ⟨l, hl⟩ := hone
        have hactor : q = ctrl := ((hl q).mp hq).trans ((hl ctrl).mp (hra ▸ hgate.actor)).symm
        rw [hq] at hr
        exact ⟨ctrl, _, hctrl, hgate.actor, Or.inr
          ⟨⟨hop, hleader⟩, hactor, (Option.some.inj hr).symm, if_pos ⟨hleader, rfl, hq⟩⟩⟩
      · rw [if_neg htransfer] at hne
        exact absurd hr hne
    · rw [roleOf_promote, hr] at hr'
      simp at hr'
    · simp only [hop', true_and, reduceCtorEq, false_and, or_false] at hop
      rw [roleOf_promote, hr] at hr'
      simp only [joinRole, officer, leader, Option.map_some, Option.some.injEq] at hlow hr'
      split at hr'
      · have heq := Option.some.inj hr'
        omega
      · rw [if_neg (by omega)] at hr'
        exact le_of_eq (Option.some.inj hr')
    · simp only [hop', true_and, reduceCtorEq, false_and, false_or] at hop
      rw [roleOf_promote, hr, if_neg (c := p.newRole = leader ∧ _)
        (fun h => absurd (h.1 ▸ hop) (by decide))] at hr'
      split at hr'
      · have heq : p.newRole = r' := Option.some.inj hr'
        simp only [officer] at hhigh
        omega
      · exact le_of_eq (Option.some.inj hr').symm
  | removes hop hgate =>
    refine ⟨fun q r hr hne => ?_, fun q r hr hr' => ?_,
      fun h => absurd (hop.symm.trans h) (by decide),
      fun h => absurd (hop.symm.trans h) (by decide)⟩
    · by_cases heq : (guildId, q) = (p.guildId, p.targetPlayerControllerId)
      · exact hgate.lost hctrl heq hr
      · rw [roleOf_remove, if_neg heq] at hne
        exact absurd hr hne
    · rw [roleOf_remove, hr] at hr'
      simp at hr'

theorem OneLeader.congr (hone : OneLeader guildId ms)
    (h : ∀ q, roleOf ms' guildId q = some leader ↔ roleOf ms guildId q = some leader) :
    OneLeader guildId ms' := by
  obtain ⟨l, hl⟩ := hone
  exact ⟨l, fun q => (h q).trans (hl q)⟩

theorem Done.oneLeader {ctrl : Nat} (h : Done g p ms ctrl ms') (hone : OneLeader guildId ms) :
    OneLeader guildId ms' := by
  cases h with
  | accepts hop hins =>
    refine hone.congr fun q => ?_
    rw [roleOf_insert hins]
    split
    case isTrue heq =>
      obtain ⟨rfl, rfl⟩ := Prod.mk.inj heq
      have hnone : roleOf ms guildId q = none := by
        refine Option.map_eq_none_iff.mpr (Table.get?_eq_none.mpr fun m hm => ?_)
        exact Table.fresh_of_insert? hins hm
      rw [hnone]
      decide
    case isFalse => rfl
  | writes hop hgate =>
    by_cases htransfer : p.newRole = leader ∧ guildId = p.guildId
    · obtain ⟨hleader, rfl⟩ := htransfer
      refine ⟨p.targetPlayerControllerId, fun q => ?_⟩
      rw [roleOf_promote]
      by_cases hq : q = p.targetPlayerControllerId
      · simp [hq, hgate.target, hleader]
      · simp only [hq, Prod.mk.injEq, and_false, if_false, iff_false]
        split
        case isTrue => decide
        case isFalse hold => exact fun h => hold ⟨hleader, trivial, h⟩
    · refine hone.congr fun q => ?_
      rw [roleOf_promote]
      split
      case isTrue heq =>
        obtain ⟨rfl, rfl⟩ := Prod.mk.inj heq
        have hnew : p.newRole ≠ leader := fun h => htransfer ⟨h, rfl⟩
        simp [hgate.target, hnew, hgate.ne_leader]
      case isFalse =>
        rw [if_neg fun h => htransfer ⟨h.1, h.2.1⟩]
  | removes hop hgate =>
    refine hone.congr fun q => ?_
    rw [roleOf_remove]
    split
    case isTrue heq =>
      obtain ⟨rfl, rfl⟩ := Prod.mk.inj heq
      simp [hgate.target, hgate.ne_leader]
    case isFalse => rfl

/-- In every run of a guild with one Leader one Leader stays; whatever operation comes next moves
ranks under authority only, and a key that was used before changes nothing. -/
theorem ranks_ruled {w₀ : World} {acts : List Act} (hone : OneLeader guildId w₀.members)
    (hrun : exec step w₀ acts = some w) :
    OneLeader guildId w.members ∧ ∀ a : Act,
      Ruled a.game a.payload guildId w.members (doOp a.config a.game a.payload w).1.members ∧
      ((∃ row ∈ w.ops, row.idempotencyKey = a.payload.idempotencyKey) →
        (doOp a.config a.game a.payload w).1 = w) := by
  have hleader : OneLeader guildId w.members := by
    refine Runs.exec_invariant' (I := fun w => OneLeader guildId w.members) ?_ hone hrun
    intro w a w' h hstep
    cases hstep
    rcases doOp_applied a.config a.game a.payload w with heq | ⟨hvalid, hbody, -⟩
    · rw [heq]
      exact h
    · obtain ⟨ctrl, -, hdone⟩ := opBody_done hvalid hbody
      exact hdone.oneLeader h
  refine ⟨hleader, fun a => ?_⟩
  rcases doOp_applied a.config a.game a.payload w with heq | ⟨hvalid, hbody, hfresh, -⟩
  · rw [heq]
    exact ⟨Ruled.refl _ _ _ _, fun _ => rfl⟩
  · obtain ⟨ctrl, hctrl, hdone⟩ := opBody_done hvalid hbody
    exact ⟨hdone.ruled hctrl hleader, fun ⟨row, hrow, hkey⟩ => absurd hkey (hfresh row hrow)⟩

/-! A guild of a Leader, an Officer and a Member, under the controllers 1, 2 and 3. -/

def threeMembers : World where
  members := ⟨[⟨7, 1, leader⟩, ⟨7, 2, officer⟩, ⟨7, 3, joinRole⟩], by decide⟩
  ops := Table.empty

def asCalled (op : Op) (actor target role key : Nat) : Act where
  config := ⟨false, some 1⟩
  game := ⟨some, [], false⟩
  payload := ⟨op, 7, actor, target, role, 0, key, false⟩

theorem oneLeader_threeMembers : OneLeader 7 threeMembers.members := by
  refine ⟨1, fun q => ?_⟩
  constructor
  · intro h
    obtain ⟨m, hm, hrole⟩ := Option.map_eq_some_iff.mp h
    obtain ⟨hmem, hkey⟩ := Table.get?_eq_some.mp hm
    simp only [Table.mem_def, threeMembers, List.mem_cons, List.not_mem_nil, or_false] at hmem
    rcases hmem with rfl | rfl | rfl
    · exact (congrArg Prod.snd hkey).symm
    · cases hrole
    · cases hrole
  · rintro rfl
    decide

/-- The Leader's transfer changes its own role, and a demotion makes a Member an Officer. -/
theorem transfer_and_demotion :
    (¬ ∀ (a : Act) (w : World), OneLeader 7 w.members → ∀ q r, roleOf w.members 7 q = some r →
      roleOf (doOp a.config a.game a.payload w).1.members 7 q ≠ some r →
        ∃ ctrl ra, a.game.controller a.payload.actorAccountId = some ctrl ∧
          roleOf w.members 7 ctrl = some ra ∧ r < ra) ∧
    ¬ ∀ (a : Act) (w : World), OneLeader 7 w.members → a.payload.op = .demote → ∀ q r r',
      roleOf w.members 7 q = some r →
        roleOf (doOp a.config a.game a.payload w).1.members 7 q = some r' → r' ≤ r := by
  constructor
  · intro h
    obtain ⟨ctrl, ra, hctrl, hra, hlt⟩ := h (asCalled .promote 1 2 leader 9) threeMembers
      oneLeader_threeMembers 1 leader (by decide) (by decide)
    obtain rfl := Option.some.inj hctrl
    have hleader : roleOf threeMembers.members 7 1 = some leader := by decide
    rw [show (asCalled .promote 1 2 leader 9).payload.actorAccountId = 1 from rfl, hleader] at hra
    obtain rfl := Option.some.inj hra
    exact absurd hlt (lt_irrefl leader)
  · intro h
    have hle := h (asCalled .demote 2 3 officer 9) threeMembers oneLeader_threeMembers rfl 3
      joinRole officer (by decide) (by decide)
    exact absurd hle (by decide)

theorem ranks_ruled_promoted : ∃ w, exec step threeMembers [asCalled .promote 1 3 officer 9] =
    some w ∧ roleOf w.members 7 3 = some officer ∧ OneLeader 7 w.members := by
  obtain ⟨w, hrun, hrole⟩ : ∃ w, exec step threeMembers [asCalled .promote 1 3 officer 9] =
      some w ∧ roleOf w.members 7 3 = some officer := Runs.exec_shows (by decide)
  exact ⟨w, hrun, hrole, (ranks_ruled oneLeader_threeMembers hrun).1⟩

end LastSietch.Guild
