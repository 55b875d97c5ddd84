import LastSietch.Lib.Copies
import LastSietch.Lib.Runs

/-!
# The progression log

`streams/progression.py` keeps a sample of each account by its content: a sample that an earlier one
of the account has the hash of is not stored, and level-ups start from the sample stored last.

* `Log`: what was sampled last, and every boundary crossed since the first sample.
* `follows_sweep_iff`: what one sweep has to meet for the store to follow the log.
* `progression_follows_iff`: so over a whole run.
-/

namespace LastSietch.Progression

open Runs (exec Along)

structure Sample where
  xp : Int
  lvl : Int
  totalSp : Int
  unspentSp : Int
  keystoneSp : Int
  intel : Int
  deriving DecidableEq

/-- A row of `HARVEST_QUERY`. -/
structure Row where
  accountId : String
  charName : Option String
  onlineStatus : Option String
  sample : Sample
  deriving DecidableEq

/-- A row of `player_progression`; the newest comes first in the table. -/
structure Snapshot where
  ts : Nat
  row : Row
  sampleHash : String
  deriving DecidableEq

/-- `ux_pprog_account_hash`. -/
def Snapshot.key (s : Snapshot) : String × String := (s.row.accountId, s.sampleHash)

/-- A row of `player_progression_levelups`. -/
structure LevelUp where
  ts : Nat
  accountId : String
  charName : Option String
  fromLvl : Int
  toLvl : Int
  fromXp : Int
  toXp : Int
  crossedLvl : Int
  detectedAt : Nat
  deriving DecidableEq

def LevelUp.key (u : LevelUp) : String × Int × Int := (u.accountId, u.crossedLvl, u.toXp)

structure Store where
  snapshots : Table Snapshot Snapshot.key
  levelups : Table LevelUp LevelUp.key

-- `md5` of `hashlib`
variable (md5 : String → String)

/-- `_hash_sample`. -/
def hashSample (s : Sample) : String :=
  md5 ("|".intercalate ([s.xp, s.totalSp, s.unspentSp, s.keystoneSp, s.intel].map toString))

def Row.snapshot (now : Nat) (row : Row) : Snapshot := ⟨now, row, hashSample md5 row.sample⟩

/-- `_latest_by_account`. -/
def Store.latest (s : Store) (accountId : String) : Option Snapshot :=
  s.snapshots.rows.find? (·.row.accountId = accountId)

/-- One row for each level of `range(prev_lvl + 1, lvl + 1)`. -/
def crossings (now : Nat) (row : Row) (prev : Sample) : List LevelUp :=
  (List.range (row.sample.lvl - prev.lvl).toNat).map fun (i : Nat) =>
    ⟨now, row.accountId, row.charName, prev.lvl, row.sample.lvl, prev.xp, row.sample.xp,
      prev.lvl + 1 + i, now⟩

def Store.levelupRows (s : Store) (now : Nat) (row : Row) : List LevelUp :=
  match s.latest row.accountId with
  | none => []
  | some prev =>
    if hashSample md5 row.sample = prev.sampleHash then [] else crossings now row prev.row.sample

/-- `run`. -/
def Store.sweep (now : Nat) (rows : List Row) (s : Store) : Store where
  snapshots := s.snapshots.ignoreAll (rows.map (Row.snapshot md5 now))
  levelups := s.levelups.ignoreAll (rows.flatMap (s.levelupRows md5 now))

/-- What was sampled last of each account, and the boundaries crossed between its samples. -/
structure Log where
  last : String → Option Sample
  ups : List LevelUp

def Log.crossed (l : Log) (now : Nat) (row : Row) : List LevelUp :=
  (l.last row.accountId).elim [] (crossings now row)

def Log.sweep (now : Nat) (rows : List Row) (l : Log) : Log where
  last accountId := ((rows.find? (·.accountId = accountId)).map (·.sample)).or (l.last accountId)
  ups := (rows.flatMap (l.crossed now)).reverse ++ l.ups

/-- The latest snapshots are the last samples, and the level-ups are the boundaries crossed. -/
structure Follows (s : Store) (l : Log) : Prop where
  latest : ∀ accountId, (s.latest accountId).map (·.row.sample) = l.last accountId
  levelups : s.levelups.rows = l.ups

inductive Act
  /-- A sweep at `now`, of at most one row for each account. -/
  | sweep (now : Nat) (rows : List Row)
  /-- A sweep that raises, which `run_unit` rolls back. -/
  | failed

def step (p : Store × Log) : Act → Option (Store × Log)
  | .sweep now rows =>
    if (rows.map (·.accountId)).Nodup then some (p.1.sweep md5 now rows, p.2.sweep now rows)
    else none
  | .failed => some p

def start : Store × Log := (⟨Table.empty, Table.empty⟩, ⟨fun _ => none, []⟩)

/-- The sample is that of the latest snapshot or none of the account has its hash, and no level-up
of the account is stored for a boundary that it crosses, with its XP. -/
def Store.Fresh (s : Store) (row : Row) : Prop :=
  ∀ prev, s.latest row.accountId = some prev →
    (prev.row.sample = row.sample ∨
      s.snapshots.get? (row.accountId, hashSample md5 row.sample) = none) ∧
    ∀ u ∈ crossings 0 row prev.row.sample, s.levelups.get? u.key = none

def Kept (p : Store × Log) : Act → Prop
  | .sweep _ rows => (rows.map (·.accountId)).Nodup → ∀ row ∈ rows, p.1.Fresh md5 row
  | .failed => True

variable {md5} {s : Store} {l : Log} {now : Nat} {row : Row} {rows : List Row}

/-! ## Snapshots -/

theorem find?_ignoreAll (t : Table Snapshot Snapshot.key)
    (hnodup : (rows.map (·.accountId)).Nodup) (accountId : String) :
    (t.ignoreAll (rows.map (Row.snapshot md5 now))).rows.find? (·.row.accountId = accountId) =
      match rows.find? (·.accountId = accountId) with
      | none => t.rows.find? (·.row.accountId = accountId)
      | some row =>
        if (t.get? (row.snapshot md5 now).key).isSome then
          t.rows.find? (·.row.accountId = accountId)
        else some (row.snapshot md5 now) := by
  induction rows generalizing t with
  | nil => rfl
  | cons row rows ih =>
    obtain ⟨hne, hrest⟩ := List.nodup_cons.mp hnodup
    show ((t.ignore (row.snapshot md5 now)).ignoreAll (rows.map _)).rows.find? _ = _
    rw [ih (t.ignore (row.snapshot md5 now)) hrest, List.find?_cons, Table.rows_ignore]
    by_cases hrow : row.accountId = accountId
    · have hnone : rows.find? (·.accountId = accountId) = none := by
        refine List.find?_eq_none.mpr (fun r hr hsame => hne ?_)
        have hr := List.mem_map_of_mem (f := (·.accountId)) hr
        rw [of_decide_eq_true hsame, ← hrow] at hr
        exact hr
      rw [hnone, decide_eq_true hrow]
      dsimp only
      split
      · rfl
      · exact List.find?_cons_of_pos (decide_eq_true hrow)
    · have hskip : (if (t.get? (row.snapshot md5 now).key).isSome then t.rows else
          row.snapshot md5 now :: t.rows).find? (·.row.accountId = accountId) =
          t.rows.find? (·.row.accountId = accountId) := by
        split
        · rfl
        · exact List.find?_cons_of_neg (fun h => hrow (of_decide_eq_true h))
      rw [hskip, decide_eq_false hrow]
      cases hfound : rows.find? (·.accountId = accountId) with
      | none => rfl
      | some r =>
        have hr : r.accountId = accountId := by simpa using List.find?_some hfound
        have hkey : (row.snapshot md5 now).key ≠ (r.snapshot md5 now).key :=
          fun h => hrow ((congrArg Prod.fst h).trans hr)
        dsimp only
        rw [Table.get?_ignore, if_neg hkey, Option.or_none]

theorem Store.latest_sweep (hnodup : (rows.map (·.accountId)).Nodup) (accountId : String) :
    (s.sweep md5 now rows).latest accountId = match rows.find? (·.accountId = accountId) with
      | none => s.latest accountId
      | some row =>
        if (s.snapshots.get? (row.snapshot md5 now).key).isSome then s.latest accountId
        else some (row.snapshot md5 now) :=
  find?_ignoreAll s.snapshots hnodup accountId

theorem find?_accountId (hnodup : (rows.map (·.accountId)).Nodup) (hrow : row ∈ rows) :
    rows.find? (·.accountId = row.accountId) = some row := by
  cases hfound : rows.find? (·.accountId = row.accountId) with
  | none => exact absurd (List.find?_eq_none.mp hfound row hrow) (by simp)
  | some r =>
    have hr : r.accountId = row.accountId := by simpa using List.find?_some hfound
    exact congrArg some (List.inj_on_of_nodup_map hnodup (List.mem_of_find?_eq_some hfound) hrow hr)

/-- The latest snapshots follow the log after a sweep exactly where each sample is that of the
latest snapshot, or none of the account has its hash. -/
theorem latest_sweep_iff (hnodup : (rows.map (·.accountId)).Nodup)
    (h : ∀ accountId, (s.latest accountId).map (·.row.sample) = l.last accountId) :
    (∀ accountId, ((s.sweep md5 now rows).latest accountId).map (·.row.sample) =
        (l.sweep now rows).last accountId) ↔
      ∀ row ∈ rows, ∀ prev, s.latest row.accountId = some prev → prev.row.sample = row.sample ∨
        s.snapshots.get? (row.accountId, hashSample md5 row.sample) = none := by
  constructor
  · intro hafter row hrow prev hprev
    have hnow := hafter row.accountId
    rw [Store.latest_sweep hnodup, find?_accountId hnodup hrow] at hnow
    dsimp only [Log.sweep] at hnow
    rw [find?_accountId hnodup hrow, hprev] at hnow
    split at hnow
    · exact Or.inl (Option.some.inj hnow)
    · exact Or.inr (Option.not_isSome_iff_eq_none.mp ‹_›)
  · intro hfresh accountId
    rw [Store.latest_sweep hnodup]
    dsimp only [Log.sweep]
    cases hfound : rows.find? (·.accountId = accountId) with
    | none => exact h accountId
    | some row =>
      have haccount : row.accountId = accountId := by simpa using List.find?_some hfound
      subst haccount
      dsimp only
      split
      case isFalse => rfl
      case isTrue hstored =>
        obtain ⟨snap, hsnap⟩ := Option.isSome_iff_exists.mp hstored
        obtain ⟨hmem, hkey⟩ := Table.get?_eq_some.mp hsnap
        have hsome : (s.latest row.accountId).isSome = true :=
          List.find?_isSome.mpr ⟨snap, hmem, decide_eq_true (congrArg Prod.fst hkey)⟩
        obtain ⟨prev, hprev⟩ := Option.isSome_iff_exists.mp hsome
        rw [hprev]
        rcases hfresh row (List.mem_of_find?_eq_some hfound) prev hprev with hsame | hnone
        · exact congrArg some hsame
        · rw [Row.snapshot, Snapshot.key, hnone] at hstored
          cases hstored

/-! ## Level-ups -/

theorem levelupRows_eq (h : ∀ accountId, (s.latest accountId).map (·.row.sample) = l.last accountId)
    (hfresh : ∀ prev, s.latest row.accountId = some prev → prev.row.sample = row.sample ∨
      s.snapshots.get? (row.accountId, hashSample md5 row.sample) = none) :
    s.levelupRows md5 now row = l.crossed now row := by
  unfold Store.levelupRows Log.crossed
  rw [← h row.accountId]
  cases hprev : s.latest row.accountId with
  | none => rfl
  | some prev =>
    dsimp only [Option.map_some, Option.elim_some]
    split
    case isFalse => rfl
    case isTrue heq =>
      rcases hfresh prev hprev with hsame | hnone
      · rw [hsame]
        unfold crossings
        rw [sub_self]
        rfl
      · have hmem := List.mem_of_find?_eq_some hprev
        have haccount : prev.row.accountId = row.accountId := by
          simpa using List.find?_some hprev
        exact absurd (Prod.ext haccount heq.symm) (Table.get?_eq_none.mp hnone prev hmem)

theorem account_of_crossed {u : LevelUp} (hu : u ∈ l.crossed now row) :
    u.accountId = row.accountId := by
  unfold Log.crossed at hu
  cases hlast : l.last row.accountId with
  | none =>
    rw [hlast] at hu
    cases hu
  | some prev =>
    rw [hlast] at hu
    obtain ⟨i, -, rfl⟩ := List.mem_map.mp hu
    rfl

theorem nodup_crossed : ((l.crossed now row).map LevelUp.key).Nodup := by
  unfold Log.crossed
  cases l.last row.accountId with
  | none => exact List.nodup_nil
  | some prev =>
    show ((crossings now row prev).map LevelUp.key).Nodup
    unfold crossings
    rw [List.map_map]
    refine List.nodup_range.map (fun i j hij => ?_)
    have hlvl : prev.lvl + 1 + (i : Int) = prev.lvl + 1 + (j : Int) :=
      congrArg (fun k : String × Int × Int => k.2.1) hij
    omega

theorem nodup_crossings (hnodup : (rows.map (·.accountId)).Nodup) :
    ((rows.flatMap (l.crossed now)).map LevelUp.key).Nodup := by
  rw [List.map_flatMap, List.nodup_flatMap]
  refine ⟨fun row _ => nodup_crossed, ?_⟩
  refine (List.pairwise_map.mp hnodup).imp (fun {r q} hne => ?_)
  intro k hr hq
  obtain ⟨u, hu, rfl⟩ := List.mem_map.mp hr
  obtain ⟨v, hv, hkey⟩ := List.mem_map.mp hq
  have haccount : v.accountId = u.accountId := congrArg Prod.fst hkey
  exact hne ((account_of_crossed hu).symm.trans (haccount.symm.trans (account_of_crossed hv)))

theorem crossed_at {u : LevelUp} {prev : Sample} (hu : u ∈ crossings now row prev) (now' : Nat) :
    ∃ v ∈ crossings now' row prev, v.key = u.key := by
  obtain ⟨i, hi, rfl⟩ := List.mem_map.mp hu
  exact ⟨_, List.mem_map_of_mem hi, rfl⟩

/-! ## Sweeps -/

theorem follows_sweep_iff (hnodup : (rows.map (·.accountId)).Nodup) (h : Follows s l) :
    (∀ row ∈ rows, s.Fresh md5 row) ↔ Follows (s.sweep md5 now rows) (l.sweep now rows) := by
  have hcrossed : ∀ row prev, s.latest row.accountId = some prev →
      l.crossed now row = crossings now row prev.row.sample := by
    intro row prev hprev
    unfold Log.crossed
    rw [← h.latest, hprev]
    rfl
  have hrows : (∀ row ∈ rows, ∀ prev, s.latest row.accountId = some prev →
      prev.row.sample = row.sample ∨
        s.snapshots.get? (row.accountId, hashSample md5 row.sample) = none) →
      rows.flatMap (s.levelupRows md5 now) = rows.flatMap (l.crossed now) := fun hfresh =>
    List.flatMap_congr (fun row hrow => levelupRows_eq h.latest (hfresh row hrow))
  constructor
  · intro hfresh
    have hsamples := fun row hrow prev hprev => (hfresh row hrow prev hprev).1
    refine ⟨(latest_sweep_iff hnodup h.latest).mpr hsamples, ?_⟩
    show (s.levelups.ignoreAll (rows.flatMap (s.levelupRows md5 now))).rows = _
    rw [hrows hsamples, Table.rows_ignoreAll (nodup_crossings hnodup), h.levelups]
    · rfl
    · intro u hu
      obtain ⟨row, hrow, hu⟩ := List.mem_flatMap.mp hu
      cases hprev : s.latest row.accountId with
      | none =>
        unfold Log.crossed at hu
        rw [← h.latest, hprev] at hu
        cases hu
      | some prev =>
        rw [hcrossed row prev hprev] at hu
        obtain ⟨v, hv, hkey⟩ := crossed_at hu 0
        exact hkey ▸ (hfresh row hrow prev hprev).2 v hv
  · intro hafter row hrow prev hprev
    refine ⟨(latest_sweep_iff hnodup h.latest).mp hafter.latest row hrow prev hprev, ?_⟩
    intro u hu
    have hunique := (s.sweep md5 now rows).levelups.unique
    rw [hafter.levelups] at hunique
    dsimp only [Log.sweep] at hunique
    rw [← h.levelups, List.map_append, List.nodup_append] at hunique
    obtain ⟨w, hw, hcross⟩ := crossed_at hu now
    refine Table.get?_eq_none.mpr (fun v hv hkey => ?_)
    refine hunique.2.2 _ (List.mem_map_of_mem (List.mem_reverse.mpr (List.mem_flatMap.mpr
      ⟨row, hrow, hcrossed row prev hprev ▸ hw⟩))) _ (List.mem_map_of_mem hv) ?_
    exact hcross.trans hkey.symm

theorem follows_step_iff {p : Store × Log} {a : Act} (h : Follows p.1 p.2) :
    Kept md5 p a ↔ ∀ q, step md5 p a = some q → Follows q.1 q.2 := by
  cases a with
  | failed => exact iff_of_true trivial (fun q hq => Option.some.inj hq ▸ h)
  | sweep now rows =>
    constructor
    · intro hkept q hq
      obtain ⟨hnodup, hq⟩ := Option.ite_none_right_eq_some.mp hq
      rw [← Option.some.inj hq]
      exact (follows_sweep_iff hnodup h).mp (hkept hnodup)
    · intro hafter hnodup
      exact (follows_sweep_iff hnodup h).mpr (hafter _ (if_pos hnodup))

/-- Over every run the store follows the log exactly where each sweep's samples are fresh. -/
theorem progression_follows_iff (md5 : String → String) (as : List Act) :
    (∀ bs p, bs <+: as → exec (step md5) start bs = some p → Follows p.1 p.2) ↔
      Along (step md5) (Kept md5) start as :=
  Runs.along_iff (I := fun p => Follows p.1 p.2) (fun _ h => h) (fun _ _ h => follows_step_iff h)
    (fun _ _ q h hkept hq => (follows_step_iff h).mp hkept q hq) ⟨fun _ => rfl, rfl⟩

def earnedBack : List Act :=
  [5, 9, 5].map fun intel => .sweep 0 [⟨"7", none, none, ⟨40, 1, 0, 0, 0, intel⟩⟩]

theorem earned_back_stale : ¬ ∀ md5 as p, exec (step md5) start as = some p → Follows p.1 p.2 := by
  intro h
  obtain ⟨p, hp, hlatest, hlast⟩ : ∃ p, exec (step id) start earnedBack = some p ∧
      (p.1.latest "7").map (·.row.sample.intel) = some 9 ∧
        (p.2.last "7").map (·.intel) = some 5 := Runs.exec_shows (by decide)
  have hsame := congrArg (Option.map Sample.intel) ((h id earnedBack p hp).latest "7")
  rw [Option.map_map, Function.comp_def, hlatest, hlast] at hsame
  cases hsame

end LastSietch.Progression
