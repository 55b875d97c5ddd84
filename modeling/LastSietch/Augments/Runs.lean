import LastSietch.Augments.Writer
import LastSietch.Lib.Pledges
import LastSietch.Lib.Runs

/-!
# Runs of augment requests

Any number of requests side by side: the portal's dry run, the writer's reads, the begin of the
transaction, its replay guard and cap, and the write are steps of their own, and the others go on in
between. Time passes and players come and go. `writes` is the history of the committed writes.
-/

namespace LastSietch.Augments

open Pledges (Entry Bounded since within)
open Runs (exec Along)

inductive Result
  | refused (r : Refusal)
  | failed (t : Token)
  | replayed
  | written
  deriving DecidableEq

/-- What a request has in hand once it has read the item: the names of the dry run, the body, the
stats that the plan was made from, and the plan. -/
structure Planned where
  current : List String
  body : Body
  read : Fields
  tx : Tx

inductive Stage
  | probed (current : List String) (body : Body)
  | planned (p : Planned)
  | begun (p : Planned) (began : Nat)
  | counted (p : Planned) (began : Nat)
  | closed (r : Result)

structure Job where
  request : Request
  stage : Stage

structure Sys where
  db : Db
  now : Nat
  jobs : List Job
  /-- No query reads it. -/
  writes : List Write

inductive Act
  | tick (d : Nat)
  | player (p : Player)
  | request (r : Request)
  | plan (i : Nat) (draw : Nat → Nat → ℚ)
  | begin_ (i : Nat)
  | check (i : Nat)
  | write (i : Nat)

variable (rt : Runtime) (cat : Catalogue)

def Sys.move (s : Sys) (i : Nat) (j : Job) (stage : Stage) : Sys :=
  { s with jobs := s.jobs.set i { j with stage } }

def Sys.probe (s : Sys) (r : Request) : Stage :=
  let answer := dryRun rt cat s.db s.now r
  match buildBody r answer with
  | .ok body => .probed ((answer.map (·.alreadyInstalled)).getD []) body
  | .error e => .closed (.refused e)

/-- The reads of `do_live`. -/
def Sys.plan (s : Sys) (r : Request) (current : List String) (body : Body) (draw : Nat → Nat → ℚ) :
    Stage :=
  let plan := s.db.itemPlan s.now r.ownerCtrl r.itemId
  match doLive rt cat r body plan (s.db.recentRerolls r.itemId s.now) s.db.rollShapes draw with
  | .ok tx => .planned ⟨current, body, plan.stats, tx⟩
  | .error t => .closed (.failed t)

def Sys.check (s : Sys) (p : Planned) (began : Nat) : Stage :=
  if s.db.replays p.tx = true then .closed .replayed
  else if s.db.capped began p.tx = true then .closed (.failed .rerollCapped)
  else .counted p began

def Sys.write (s : Sys) (i : Nat) (j : Job) (p : Planned) (began : Nat) : Sys :=
  match applyTx rt s.db began p.tx with
  | .ok w => { s.move i j (.closed .written) with db := w.after, writes := s.writes ++ [w] }
  | .error t => s.move i j (.closed (.failed t))

def step (s : Sys) : Act → Option Sys
  | .tick d => some { s with now := s.now + d }
  | .player p => some { s with db := { s.db with players := s.db.players.put p } }
  | .request r => some { s with jobs := s.jobs ++ [⟨r, s.probe rt cat r⟩] }
  | .plan i draw =>
    match s.jobs[i]? with
    | some ⟨r, .probed current body⟩ =>
      some (s.move i ⟨r, .probed current body⟩ (s.plan rt cat r current body draw))
    | _ => none
  | .begin_ i =>
    match s.jobs[i]? with
    | some ⟨r, .planned p⟩ => some (s.move i ⟨r, .planned p⟩ (.begun p s.now))
    | _ => none
  | .check i =>
    match s.jobs[i]? with
    | some ⟨r, .begun p began⟩ => some (s.move i ⟨r, .begun p began⟩ (s.check p began))
    | _ => none
  | .write i =>
    match s.jobs[i]? with
    | some ⟨r, .counted p began⟩ => some (s.write rt i ⟨r, .counted p began⟩ p began)
    | _ => none

/-! ## What a step can do -/

variable {rt cat} {s s' : Sys}

inductive Effect (rt : Runtime) (s s' : Sys) (a : Act) : Prop
  | idle (hitems : s'.db.items = s.db.items) (haudit : s'.db.audit = s.db.audit)
      (hwrites : s'.writes = s.writes)
  | wrote (i : Nat) (ha : a = .write i) (r : Request) (p : Planned) (began : Nat)
      (hjob : s.jobs[i]? = some ⟨r, .counted p began⟩) (w : Write)
      (happly : applyTx rt s.db began p.tx = .ok w) (hdb : s'.db = w.after)
      (hwrites : s'.writes = s.writes ++ [w])

theorem step_effect {a : Act} (hstep : step rt cat s a = some s') : Effect rt s s' a := by
  cases a with
  | tick d =>
    cases hstep
    exact .idle rfl rfl rfl
  | player p =>
    cases hstep
    exact .idle rfl rfl rfl
  | request r =>
    cases hstep
    exact .idle rfl rfl rfl
  | plan i draw =>
    simp only [step] at hstep
    split at hstep
    · cases hstep
      exact .idle rfl rfl rfl
    · cases hstep
  | begin_ i =>
    simp only [step] at hstep
    split at hstep
    · cases hstep
      exact .idle rfl rfl rfl
    · cases hstep
  | check i =>
    simp only [step] at hstep
    split at hstep
    · cases hstep
      exact .idle rfl rfl rfl
    · cases hstep
  | write i =>
    simp only [step] at hstep
    split at hstep
    · rename_i r p began hjob
      unfold Sys.write at hstep
      split at hstep
      · rename_i w happly
        cases hstep
        exact .wrote i rfl r p began hjob w happly rfl rfl
      · cases hstep
        exact .idle rfl rfl rfl
    · cases hstep

theorem applyTx_audit {db : Db} {began : Nat} {t : Tx} {w : Write}
    (h : applyTx rt db began t = .ok w) : ∃ consumed,
      w.after.audit.rows = auditRow t began consumed db.audit.next :: db.audit.rows := by
  unfold applyTx at h
  simp only [bind_eq_ok, orRaise_eq_ok] at h
  obtain ⟨player, _, pawn, _, _, _, it, _, _, _, _, _, st, _, stats, _, audit, haudit, hw⟩ := h
  cases hw
  exact ⟨st.consumed, (SerialTable.rows_insert? haudit).1⟩

/-! ## The reroll allowance -/

def rerollsOf (item : Nat) (rows : List AuditRow) : List AuditRow :=
  rows.filter fun r => r.itemId = item ∧ r.op = .reroll

/-- Those in the window that begins at `T`. -/
def inWindow (item T : Nat) (rows : List AuditRow) : Nat :=
  ((rerollsOf item rows).filter fun r => T ≤ r.createdAt ∧ r.createdAt < T + REROLL_WINDOW).length

def Sys.Roomy (s : Sys) : Act → Prop
  | .write i => ∀ r p began, s.jobs[i]? = some ⟨r, .counted p began⟩ →
      s.db.capped began p.tx = false
  | _ => True

def entries (item : Nat) (rows : List AuditRow) : List Entry :=
  (rerollsOf item rows).map fun r => (r.createdAt, 1)

theorem entries_cons (item : Nat) (a : AuditRow) (rows : List AuditRow) :
    entries item (a :: rows) =
      if a.itemId = item ∧ a.op = .reroll then (a.createdAt, 1) :: entries item rows
      else entries item rows := by
  unfold entries rerollsOf
  by_cases h : a.itemId = item ∧ a.op = .reroll
  · simp [h]
  · simp [h]

theorem sum_ones (l : List AuditRow) : ((l.map fun r => (r.createdAt, (1 : Int))).map Prod.snd).sum =
    l.length := by
  induction l with
  | nil => rfl
  | cons r l ih =>
    simp only [List.map_cons, List.sum_cons, ih, List.length_cons]
    omega

theorem within_entries (item T : Nat) (rows : List AuditRow) :
    within (REROLL_WINDOW - 1) T (entries item rows) = inWindow item T rows := by
  unfold within entries inWindow
  rw [List.filter_map, sum_ones]
  congr 3
  funext r
  have hpos : 0 < REROLL_WINDOW := by decide
  simp only [Function.comp_apply]
  refine decide_eq_decide.mpr ⟨fun h => ?_, fun h => ?_⟩
  · exact ⟨h.1, by omega⟩
  · exact ⟨h.1, by omega⟩

theorem since_entries (item t : Nat) (db : Db) :
    since (REROLL_WINDOW - 1) t (entries item db.audit.rows) = db.recentRerolls item t := by
  unfold since entries Db.recentRerolls rerollsOf
  rw [List.filter_map, sum_ones, List.filter_filter]
  congr 3
  funext r
  have hpos : 0 < REROLL_WINDOW := by decide
  have hwindow : t ≤ r.createdAt + (REROLL_WINDOW - 1) ↔ t < r.createdAt + REROLL_WINDOW := by omega
  simp only [Function.comp_apply, hwindow, Bool.decide_and, Bool.and_comm, Bool.and_assoc]

def Allowed (db : Db) : Prop :=
  ∀ item, Bounded (REROLL_WINDOW - 1) REROLL_CAP (entries item db.audit.rows)

structure Sys.Start (s : Sys) : Prop where
  jobs : s.jobs = []
  writes : s.writes = []

theorem allowed_of_windows (h : ∀ item T, inWindow item T s.db.audit.rows ≤ REROLL_CAP) :
    Allowed s.db := by
  refine fun item => ⟨fun e he => ?_, fun T => ?_⟩
  · obtain ⟨r, _, rfl⟩ := List.mem_map.mp he
    exact Int.one_nonneg
  · rw [within_entries]
    exact_mod_cast h item T

theorem Allowed.step {a : Act} (h : Allowed s.db) (hroomy : s.Roomy a)
    (hstep : step rt cat s a = some s') : Allowed s'.db := by
  cases step_effect hstep with
  | idle _ haudit _ =>
    intro item
    rw [haudit]
    exact h item
  | wrote i ha r p began hjob w happly hdb _ =>
    obtain ⟨consumed, hrows⟩ := applyTx_audit happly
    subst ha
    have hroom := hroomy r p began hjob
    intro item
    rw [hdb, hrows, entries_cons]
    split
    · rename_i hmine
      have hspecs : p.tx.consumeSpecs = [] := by
        by_contra hne
        have hswap : p.tx.op = .swap := by
          unfold Tx.op
          rw [if_pos hne]
        exact absurd (hswap.symm.trans hmine.2) nofun
      have hlt : s.db.recentRerolls item began < REROLL_CAP := by
        unfold Db.capped at hroom
        simp only [hspecs, true_and, decide_eq_false_iff_not, not_le] at hroom
        have hitem : p.tx.itemId = item := hmine.1
        rw [← hitem]
        exact hroom
      refine (h item).cons Int.one_nonneg ?_
      change since (REROLL_WINDOW - 1) began (entries item s.db.audit.rows) + 1 ≤ _
      rw [since_entries]
      exact_mod_cast hlt
    · exact h item

/-- In a run whose rerolls, when they are written, still find the cap check passing, no window holds
more than `REROLL_CAP` rerolls of an item, if none did before. -/
theorem rerolls_capped (hwindows : ∀ item T, inWindow item T s.db.audit.rows ≤ REROLL_CAP)
    {acts : List Act}
    (hroomy : Along (step rt cat) Sys.Roomy s acts) (hrun : exec (step rt cat) s acts = some s')
    (item T : Nat) : inWindow item T s'.db.audit.rows ≤ REROLL_CAP := by
  have hallowed : Allowed s'.db :=
    Runs.exec_invariant (I := fun s => Allowed s.db) (fun _ _ _ h hroomy hstep => h.step hroomy hstep)
      (allowed_of_windows hwindows) hroomy hrun
  have hbound := (hallowed item).windows T
  rw [within_entries] at hbound
  exact_mod_cast hbound

instance (s : Sys) : (a : Act) → Decidable (s.Roomy a)
  | .tick _ | .player _ | .request _ | .plan _ _ | .begin_ _ | .check _ => .isTrue trivial
  | .write i =>
    match h : s.jobs[i]? with
    | some ⟨r, .counted p began⟩ =>
      decidable_of_iff (s.db.capped began p.tx = false)
        ⟨fun hp r' p' began' h' => by rw [h] at h'; cases h'; exact hp, fun hp => hp r p began h⟩
    | some ⟨_, .probed _ _⟩ | some ⟨_, .planned _⟩ | some ⟨_, .begun _ _⟩ | some ⟨_, .closed _⟩
    | none => .isTrue fun _ _ _ h' => by rw [h] at h'; cases h'

/-! ## A weapon with two augments -/

def plainRuntime : Runtime where
  double := fun q => q
  floatOfText := fun _ => none
  repr := fun _ => ""
  intOfText := fun _ => none
  numericOfText := fun _ => none
  int := Json.int?

def openCatalogue : Catalogue :=
  ⟨fun _ => .weapon, fun _ => .weapon, fun _ _ => some true, fun _ => true, fun _ => 1,
    fun _ => (true, true)⟩

def standalone (roll : ℚ) : Fields :=
  [("FAugmentItemStats", .arr [.arr [], .obj [("StatRolls", .arr [.dec roll])]])]

def armory : Sys where
  db := {
    players := ⟨[⟨1, some 10, .offline, none⟩], by decide⟩
    inventories := ⟨[⟨20, 10⟩], by decide⟩
    items := ⟨[
      ⟨100, 20, "Weapon", 0, [("FAugmentedItemStats", faugValue ["T6_Augment_A", "T6_Augment_B"] [5, 3]
        [⟨[.dec (1 / 2)], []⟩, ⟨[.dec (3 / 4)], []⟩])]⟩,
      ⟨101, 20, "T6_Augment_C", 2, standalone (9 / 10)⟩,
      ⟨102, 20, "T6_Augment_B", 5, standalone (4 / 5)⟩,
      ⟨103, 20, "T6_Augment_B", 3, standalone (1 / 5)⟩], by decide⟩
    audit := .empty }
  now := REROLL_WINDOW
  jobs := []
  writes := []

theorem armory_start : armory.Start := ⟨rfl, rfl⟩

theorem armory_windows (item T : Nat) : inWindow item T armory.db.audit.rows ≤ REROLL_CAP :=
  Nat.zero_le _

def reroll (key : Nat) (only : Option (List String)) : Request :=
  { ownerCtrl := 1, itemId := 100, mode := .reroll, augments := ["T6_Augment_A", "T6_Augment_B"],
    rerollOnly := only, swapSlot := none, swapGrade := none, idempotencyKey := key, owned := [],
    targetedUpgrade := true }

def finish (i : Nat) : List Act := [.plan i (fun _ _ => 1 / 4), .begin_ i, .check i, .write i]

def fourAtOnce : List Act :=
  [1, 2, 3, 4].map (fun key => .request (reroll key none)) ++
    [0, 1, 2, 3].map (fun i => .plan i (fun _ _ => 1 / 4)) ++ [0, 1, 2, 3].map .begin_ ++
    [0, 1, 2, 3].map .check ++ [0, 1, 2, 3].map .write

theorem fourAtOnce_run : (exec (step plainRuntime openCatalogue) armory fourAtOnce).isSome := by
  decide

/-- Four rerolls of one item that have counted before any of them is written. -/
theorem fourRerolls :
    (∀ item T, inWindow item T armory.db.audit.rows ≤ REROLL_CAP) ∧ armory.Start ∧
      ∃ s', exec (step plainRuntime openCatalogue) armory fourAtOnce = some s' ∧
      ∃ item T, ¬inWindow item T s'.db.audit.rows ≤ REROLL_CAP := by
  have hrun := (Option.some_get fourAtOnce_run).symm
  exact ⟨armory_windows, armory_start, _, hrun, 100, REROLL_WINDOW, by decide⟩

def oneByOne : List Act :=
  [.request (reroll 1 none)] ++ finish 0 ++ [.request (reroll 2 (some ["T6_Augment_A"]))] ++ finish 1 ++
    [.request (reroll 3 none)] ++ finish 2 ++ [.tick 60000000, .request (reroll 4 none),
      .plan 3 (fun _ _ => 1 / 4)]

theorem oneByOne_run : (exec (step plainRuntime openCatalogue) armory oneByOne).isSome := by
  decide

theorem rerolls_capped_oneByOne :
    ∃ s', exec (step plainRuntime openCatalogue) armory oneByOne = some s' ∧
      inWindow 100 REROLL_WINDOW s'.db.audit.rows = 3 ∧
      ∀ item T, inWindow item T s'.db.audit.rows ≤ REROLL_CAP := by
  have hroomy : Along (step plainRuntime openCatalogue) Sys.Roomy armory oneByOne := by
    decide
  have hrun := (Option.some_get oneByOne_run).symm
  exact ⟨_, hrun, by decide, fun item T => rerolls_capped armory_windows hroomy hrun item T⟩

end LastSietch.Augments
