import LastSietch.Lib.Runs
import LastSietch.Lib.Table

/-!
# Bans and their replays

`build_ban_grant` and `build_unban_grant` of `dune-grant.sh`. The audit row is gated on the key of
the submission; the write to `bans` stands beside it in the same statement and is not, so a
submission that is answered `replay` is carried out again.

* `bans_follow_iff`: replays leave the bans alone, and each ban follows the last action that was
  none, exactly when every resent key finds its own write already there.
-/

namespace LastSietch.Table

variable {α κ : Type} {key : α → κ} [DecidableEq κ]

theorem put_eq_self {t : Table α key} {r : α} (h : t.get? (key r) = some r) : t.put r = t := by
  obtain ⟨hr, -⟩ := get?_eq_some.mp h
  unfold put
  rw [insert?_eq_none.mpr ⟨r, hr, rfl⟩]
  apply eq_of_rows
  have hsame : ∀ q ∈ t.rows, (if key q = key r then r else q) = q := by
    intro q hq
    by_cases hk : key q = key r
    · rw [if_pos hk, eq_of_key_eq hq hr hk]
    · exact if_neg hk
  show t.rows.map _ = t.rows
  rw [List.map_congr_left hsame, List.map_id']

end LastSietch.Table

namespace LastSietch.Bans

open Runs (exec Along)

/-- A row of `lsadmin.bans`. -/
structure Ban where
  flsId : String
  accountId : Int
  reason : String
  note : Option String
  durationMinutes : Option Nat
  bannedAt : Nat
  expiresAt : Option Nat
  active : Bool
  bannedBy : String
  unbannedAt : Option Nat
  unbanReason : Option String
  unbannedBy : Option String
  deriving DecidableEq

inductive ActionType
  | ban | unban
  deriving DecidableEq

/-- A row of `lsadmin.player_actions`. -/
structure PlayerAction where
  idempotencyKey : String
  accountId : Int
  flsId : String
  actionType : ActionType
  reason : String
  note : Option String
  durationMinutes : Option Nat
  adminUser : String
  deriving DecidableEq

/-- What a submission asks for; the reason and the admin of an unban are its `unban_reason` and
`unbanned_by`. -/
structure Submission where
  idem : String
  accountId : Int
  kind : ActionType
  flsId : String
  reason : String
  note : String
  durationMinutes : Option Nat
  adminUser : String
  deriving DecidableEq

structure Db where
  bans : Table Ban Ban.flsId
  actions : Table PlayerAction PlayerAction.idempotencyKey
  /-- `funcom_id` by account. -/
  accounts : List (Int × String)

inductive Status
  | applied | replay
  deriving DecidableEq

def validFlsId (s : String) : Bool :=
  s ≠ "" ∧ s.toList.all (fun c => c.isAlphanum || "._#-".toList.contains c)

def validAdminUser (s : String) : Bool :=
  s ≠ "" ∧ s.length ≤ 64 ∧ s.toList.all (fun c => c.isAlphanum || "._-".toList.contains c)

def Db.flsId (db : Db) (s : Submission) : String :=
  if s.flsId = "" then (db.accounts.lookup s.accountId).getD "" else s.flsId

def valid (s : Submission) (flsId : String) : Bool :=
  validFlsId flsId ∧ s.reason ≠ "" ∧ validAdminUser s.adminUser ∧
    (s.kind = .ban → ∀ m ∈ s.durationMinutes, 1 ≤ m ∧ m ≤ 525600)

/-- The row of `ban_upsert`, whose clock counts seconds. -/
def Submission.ban (s : Submission) (flsId : String) (now : Nat) : Ban where
  flsId := flsId
  accountId := s.accountId
  reason := s.reason
  note := if s.note = "" then none else some s.note
  durationMinutes := s.durationMinutes
  bannedAt := now
  expiresAt := s.durationMinutes.map (fun m => now + 60 * m)
  active := true
  bannedBy := s.adminUser
  unbannedAt := none
  unbanReason := none
  unbannedBy := none

/-- `unban_update` on an active row. -/
def Submission.unban (s : Submission) (now : Nat) (b : Ban) : Ban :=
  { b with active := false, unbannedAt := some now, unbanReason := some s.reason
           unbannedBy := some s.adminUser }

def Submission.action (s : Submission) (flsId : String) : PlayerAction where
  idempotencyKey := s.idem
  accountId := s.accountId
  flsId := flsId
  actionType := s.kind
  reason := s.reason
  note := if s.kind = .unban ∨ s.note = "" then none else some s.note
  durationMinutes := if s.kind = .unban then none else s.durationMinutes
  adminUser := s.adminUser

/-- The write to `bans`, which every submission makes. -/
def Db.writeBans (db : Db) (flsId : String) (now : Nat) (s : Submission) :
    Table Ban Ban.flsId :=
  match s.kind with
  | .ban => db.bans.put (s.ban flsId now)
  | .unban => db.bans.update (fun b => b.flsId = flsId ∧ b.active) (s.unban now)

/-- The transaction of a submission and what it answers; `none` when the submission is refused. -/
def Db.submit (db : Db) (now : Nat) (s : Submission) : Option (Db × Status) :=
  let flsId := db.flsId s
  if valid s flsId then
    let bans := db.writeBans flsId now s
    match db.actions.insert? (s.action flsId) with
    | some actions => some ({ db with bans, actions }, .applied)
    | none => some ({ db with bans }, .replay)
  else none

abbrev Log := List (String × Nat × Submission)

structure Run where
  db : Db
  log : Log
  quiet : Bool

def start (db : Db) : Run := ⟨db, [], true⟩

def step (r : Run) (a : Nat × Submission) : Option Run :=
  match r.db.submit a.1 a.2 with
  | none => some r
  | some (db, .applied) => some ⟨db, (r.db.flsId a.2, a.1, a.2) :: r.log, r.quiet⟩
  | some (db, .replay) => some ⟨db, r.log, r.quiet && decide (db.bans.rows = r.db.bans.rows)⟩

def Run.Follows (r : Run) : Prop :=
  ∀ flsId now s, r.log.lookup flsId = some (now, s) →
    match s.kind with
    | .ban => ∃ b, r.db.bans.get? flsId = some b ∧ b.active = true ∧ b.reason = s.reason ∧
        b.expiresAt = s.durationMinutes.map (fun m => now + 60 * m)
    | .unban => ∀ b, r.db.bans.get? flsId = some b → b.active = false

def Settled (r : Run) (a : Nat × Submission) : Prop :=
  valid a.2 (r.db.flsId a.2) = true → (∃ p ∈ r.db.actions, p.idempotencyKey = a.2.idem) →
    match a.2.kind with
    | .ban => r.db.bans.get? (r.db.flsId a.2) = some (a.2.ban (r.db.flsId a.2) a.1)
    | .unban => ∀ b, r.db.bans.get? (r.db.flsId a.2) = some b → b.active = false

theorem get?_writeBans_other (db : Db) {flsId k : String} (now : Nat) (s : Submission)
    (h : flsId ≠ k) : (db.writeBans flsId now s).get? k = db.bans.get? k := by
  unfold Db.writeBans
  cases s.kind with
  | ban => exact (Table.get?_put _ _ _).trans (if_neg h)
  | unban =>
    refine (Table.get?_update _ _ _ _ _).trans ?_
    cases hget : db.bans.get? k with
    | none => rfl
    | some b =>
      have hne : b.flsId ≠ flsId := fun heq => h (heq.symm.trans (Table.key_of_get? hget))
      simp [hne]

theorem get?_writeBans (db : Db) (flsId : String) (now : Nat) (s : Submission) :
    match s.kind with
    | .ban => (db.writeBans flsId now s).get? flsId = some (s.ban flsId now)
    | .unban => ∀ b, (db.writeBans flsId now s).get? flsId = some b → b.active = false := by
  unfold Db.writeBans
  cases s.kind with
  | ban => exact (Table.get?_put _ _ _).trans (if_pos rfl)
  | unban =>
    intro b hb
    obtain ⟨b', hb', rfl⟩ := Option.map_eq_some_iff.mp
      ((Table.get?_update _ _ _ _ _).symm.trans hb)
    by_cases hactive : b'.active = true
    · simp [Table.key_of_get? hb', hactive, Submission.unban]
    · simp [hactive]

theorem writeBans_eq_iff (db : Db) (flsId : String) (now : Nat) (s : Submission) :
    (db.writeBans flsId now s).rows = db.bans.rows ↔
      match s.kind with
      | .ban => db.bans.get? flsId = some (s.ban flsId now)
      | .unban => ∀ b, db.bans.get? flsId = some b → b.active = false := by
  constructor
  · intro h
    have hwrite := get?_writeBans db flsId now s
    rw [Table.eq_of_rows h] at hwrite
    exact hwrite
  · unfold Db.writeBans
    cases s.kind with
    | ban =>
      intro h
      exact congrArg Table.rows (Table.put_eq_self h)
    | unban =>
      intro h
      have hsame : ∀ b ∈ db.bans.rows, (if b.flsId = flsId ∧ b.active = true then
          s.unban now b else b) = b := by
        intro b hb
        refine if_neg (fun hb' => ?_)
        have hactive := h b (Table.get?_eq_some.mpr ⟨hb, hb'.1⟩)
        exact Bool.false_ne_true (hactive.symm.trans hb'.2)
      show db.bans.rows.map _ = db.bans.rows
      simp only [decide_eq_true_eq]
      rw [List.map_congr_left hsame, List.map_id']

/-! ## Replays -/

theorem submit_of_valid {db : Db} (now : Nat) {s : Submission}
    (hvalid : valid s (db.flsId s) = true) :
    (∃ actions, db.submit now s =
        some ({ db with bans := db.writeBans (db.flsId s) now s, actions }, .applied) ∧
      ∀ p ∈ db.actions, p.idempotencyKey ≠ s.idem) ∨
    db.submit now s = some ({ db with bans := db.writeBans (db.flsId s) now s }, .replay) ∧
      ∃ p ∈ db.actions, p.idempotencyKey = s.idem := by
  unfold Db.submit
  dsimp only
  rw [if_pos hvalid]
  cases hins : db.actions.insert? (s.action (db.flsId s)) with
  | some actions => exact Or.inl ⟨actions, rfl, fun p hp => Table.fresh_of_insert? hins hp⟩
  | none => exact Or.inr ⟨rfl, Table.insert?_eq_none.mp hins⟩

theorem Run.Follows.applied {r : Run} (h : r.Follows) (db : Db) (flsId : String) (now : Nat)
    (s : Submission) (hbans : db.bans = r.db.writeBans flsId now s) (quiet : Bool) :
    Run.Follows ⟨db, (flsId, now, s) :: r.log, quiet⟩ := by
  intro k now' s' hlook
  by_cases hk : k = flsId
  · subst hk
    rw [List.lookup_cons_self] at hlook
    obtain ⟨rfl, rfl⟩ := Prod.ext_iff.mp (Option.some.inj hlook)
    have hwrite := get?_writeBans r.db k now s
    dsimp only
    rw [hbans]
    cases hkind : s.kind with
    | ban =>
      rw [hkind] at hwrite
      exact ⟨_, hwrite, rfl, rfl, rfl⟩
    | unban =>
      rw [hkind] at hwrite
      exact hwrite
  · have hne : (k == flsId) = false := by simpa using hk
    rw [List.lookup_cons, hne] at hlook
    have hold := h k now' s' hlook
    dsimp only
    rw [hbans, get?_writeBans_other _ _ _ (Ne.symm hk)]
    exact hold

/-- Replays leave the bans alone and each ban follows the last action that was applied, all through
the run, exactly when every resent key finds its own write already there. -/
theorem bans_follow_iff (db : Db) (subs : List (Nat × Submission)) :
    (∀ pre r, pre <+: subs → exec step (start db) pre = some r → r.quiet = true ∧ r.Follows) ↔
      Along step Settled (start db) subs := by
  have hguard : ∀ (r : Run) (a : Nat × Submission), r.quiet = true ∧ r.Follows →
      (Settled r a ↔ ∀ r', step r a = some r' → r'.quiet = true ∧ r'.Follows) := by
    intro r a hr
    by_cases hvalid : valid a.2 (r.db.flsId a.2) = true
    · rcases submit_of_valid a.1 hvalid with ⟨actions, hsub, hnew⟩ | ⟨hsub, hold⟩
      · refine iff_of_true (fun _ ⟨p, hp, hkey⟩ => absurd hkey (hnew p hp)) ?_
        intro r' hr'
        simp only [step, hsub, Option.some.injEq] at hr'
        subst hr'
        exact ⟨hr.1, hr.2.applied _ _ _ _ rfl _⟩
      · have hiff : Settled r a ↔
            (r.db.writeBans (r.db.flsId a.2) a.1 a.2).rows = r.db.bans.rows := by
          rw [writeBans_eq_iff]
          exact ⟨fun h => h hvalid hold, fun h _ _ => h⟩
        rw [hiff]
        simp only [step, hsub, Option.some.injEq, forall_eq', hr.1, Bool.true_and,
          decide_eq_true_eq]
        refine ⟨fun hrows => ⟨hrows, ?_⟩, And.left⟩
        have hbans := Table.eq_of_rows hrows
        intro k now s hlook
        dsimp only
        rw [hbans]
        exact hr.2 k now s hlook
    · refine iff_of_true (fun h => absurd h hvalid) ?_
      intro r' hr'
      have hsub : r.db.submit a.1 a.2 = none := if_neg hvalid
      simp only [step, hsub, Option.some.injEq] at hr'
      exact hr' ▸ hr
  exact Runs.along_iff (fun _ h => h) hguard (fun r a r' hr hg hs => (hguard r a hr).mp hg r' hs)
    ⟨rfl, fun _ _ _ h => by cases h⟩

def resent : List (Nat × Submission) :=
  let ban : Submission := ⟨"k1", 7, .ban, "Muad#1", "griefing", "", none, "mod"⟩
  [(100, ban), (200, ⟨"k2", 7, .unban, "Muad#1", "appealed", "", none, "mod"⟩), (300, ban)]

/-- The last submission is answered `replay`, and the player who is no longer banned is. -/
theorem resent_bans : ¬ ∀ pre r, pre <+: resent →
    exec step (start ⟨Table.empty, Table.empty, []⟩) pre = some r → r.quiet = true ∧ r.Follows := by
  intro h
  obtain ⟨r, hrun, hquiet⟩ : ∃ r, exec step (start ⟨Table.empty, Table.empty, []⟩) resent = some r ∧
      r.quiet = false := Runs.exec_shows (by decide)
  exact Bool.false_ne_true (hquiet.symm.trans (h resent r (List.prefix_refl _) hrun).1)

end LastSietch.Bans
