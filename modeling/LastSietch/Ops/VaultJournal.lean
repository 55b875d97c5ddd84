import LastSietch.Lib.Runs
import LastSietch.Lib.Table

/-!
# The journal of vault captures

Requests for captures of bases and of packed backups, the workers that serve them, and the expiry
of what takes too long, as `admin-helper.py` writes them down. A handler holds `admin.lock` from
its checks to the report of the unit start, and a worker holds `capture.lock` from its read to its
last write. A worker may start at any time; handlers and workers may die between any two writes.

* `Inv`: what holds of the journal, the worker and the vault.
* `journal_true`: in a run in which no start is reported as failed after its worker has ended, the
  journal is true, and rows that are completed or failed stay as they are.
-/

namespace LastSietch.VaultJournal

open Runs (exec Along)

/-- The tables `operations` and `native_operations`. -/
inductive Kind
  | operations | nativeOperations
  deriving DecidableEq

inductive Status
  | pending | running | uncertain | completed | failed
  deriving DecidableEq

inductive ErrorCode
  | captureUncertain | captureRefused
  deriving DecidableEq

/-- A row of either table; `target` is its totem or its backup. -/
structure Operation where
  kind : Kind
  requestId : Nat
  target : Nat
  adminId : Nat
  status : Status
  startedAt : Nat
  completedAt : Option Nat
  snapshotId : Option Nat
  errorCode : Option ErrorCode
  deriving DecidableEq

def Operation.key (r : Operation) : Kind × Nat := (r.kind, r.requestId)

def Operation.active (r : Operation) : Bool :=
  r.status = .pending ∨ r.status = .running ∨ r.status = .uncertain

def Operation.final (r : Operation) : Bool := r.status = .completed ∨ r.status = .failed

structure Payload where
  kind : Kind
  root : Nat
  deriving DecidableEq

structure Snapshot where
  id : Nat
  payload : Payload
  label : Kind × Nat
  deriving DecidableEq

inductive Phase
  | read | running | refused
  | fetched (payload : Payload)
  | ingesting (payload : Payload)
  | catalogued (snapshot : Snapshot)
  | verified (snapshot : Snapshot)
  deriving DecidableEq

/-- `ingest_started`. -/
def Phase.ingestStarted : Phase → Bool
  | .ingesting _ | .catalogued _ | .verified _ => true
  | .read | .running | .refused | .fetched _ => false

structure Sys where
  now : Nat
  captureEnabled : Bool
  rows : Table Operation Operation.key
  /-- The request whose unit is being started, under `admin.lock`. -/
  starting : Option (Kind × Nat)
  /-- The row that the worker has read and where it is, under `capture.lock`. -/
  worker : Option (Operation × Phase)
  vault : List Snapshot
  /-- The snapshots in the table `verification`. -/
  verification : List Nat
  /-- Whose source was fetched. No step reads it. -/
  fetches : List (Kind × Nat)

def Sys.start : Sys := ⟨0, false, Table.empty, none, none, [], [], []⟩

def captureLimit : Nat := 350000000

/-! ## The writes -/

def Operation.expires (now : Nat) (r : Operation) : Bool :=
  (r.status = .pending ∨ r.status = .running) ∧ r.startedAt + captureLimit < now

def Operation.toUncertain (r : Operation) : Operation :=
  { r with status := .uncertain, errorCode := some .captureUncertain }

def Operation.toRunning (r : Operation) : Operation := { r with status := .running }

def Operation.toCompleted (now snapshotId : Nat) (r : Operation) : Operation :=
  { r with
    status := .completed
    completedAt := some now
    snapshotId := some snapshotId
    errorCode := none }

def Operation.toRefused (now : Nat) (ingestStarted : Bool) (r : Operation) : Operation :=
  { r with
    status := if ingestStarted then .uncertain else .failed
    completedAt := some now
    errorCode := some (if ingestStarted then .captureUncertain else .captureRefused) }

def Sys.expire (s : Sys) : Sys :=
  { s with rows := s.rows.update (·.expires s.now) Operation.toUncertain }

inductive Reply
  | requestConflict | captureDisabled | captureBusy
  | operation (r : Operation)
  deriving DecidableEq

/-- `capture` and `backup_capture`, up to the start of the unit. -/
def Sys.capture (s : Sys) (kind : Kind) (requestId target adminId : Nat) : Sys × Reply :=
  let s := s.expire
  match s.rows.get? (kind, requestId) with
  | some old =>
    if old.target ≠ target ∨ old.adminId ≠ adminId then (s, .requestConflict)
    else (s, .operation old)
  | none =>
    if s.captureEnabled = false then (s, .captureDisabled)
    else if s.rows.rows.any (fun r => r.active || r.requestId = requestId) then (s, .captureBusy)
    else
      let row := ⟨kind, requestId, target, adminId, .pending, s.now, none, none, none⟩
      match s.rows.insert? row with
      | none => (s, .captureBusy)
      | some rows => ({ s with rows, starting := some (kind, requestId) }, .operation row)

def Sys.reportFailed (s : Sys) (key : Kind × Nat) : Sys :=
  { s with
    starting := none
    rows := s.rows.update (fun r => r.key = key) Operation.toUncertain }

/-- The row that a worker is started for: one of `operations`, or else a native one. -/
def Sys.rowFor (s : Sys) (requestId : Nat) : Option Operation :=
  (s.rows.get? (.operations, requestId)).or (s.rows.get? (.nativeOperations, requestId))

/-- The worker's `except`. -/
def Sys.workerFails (s : Sys) (row : Operation) (phase : Phase) : Sys :=
  { s with
    worker := none
    rows := s.rows.update
      (fun r => r.key = row.key ∧ (r.status = .pending ∨ r.status = .running))
      (Operation.toRefused s.now phase.ingestStarted) }

inductive Event
  | tick (now : Nat)
  | enable (on : Bool)
  | capture (kind : Kind) (requestId target adminId : Nat)
  | started
  | startFails
  | expire
  | workerReads (requestId : Nat)
  | workerRuns
  | fetch (payload : Option Payload)
  | ingest
  | catalogued (id : Nat)
  | verified
  | complete
  | workerFails
  | workerDies

def step (s : Sys) : Event → Option Sys
  | .tick now => if s.now ≤ now then some { s with now } else none
  | .enable on => some { s with captureEnabled := on }
  | .capture kind requestId target adminId =>
    if s.starting = none then some (s.capture kind requestId target adminId).1 else none
  | .started => some { s with starting := none }
  | .startFails => s.starting.map s.reportFailed
  | .expire => some s.expire
  | .workerReads requestId =>
    match s.worker, s.rowFor requestId with
    | none, some row =>
      if row.status = .pending then some { s with worker := some (row, .read) } else none
    | _, _ => none
  | .workerRuns =>
    match s.worker with
    | some (row, .read) =>
      some { s with
        worker := some (row, .running)
        rows := s.rows.update (fun r => r.key = row.key) Operation.toRunning }
    | _ => none
  | .fetch payload =>
    match s.worker with
    | some (row, .running) =>
      if s.captureEnabled = false then some { s with worker := some (row, .refused) }
      else
        let fetches := row.key :: s.fetches
        match payload with
        | some payload =>
          if payload.kind = row.kind ∧ payload.root = row.target then
            some { s with fetches, worker := some (row, .fetched payload) }
          else some { s with fetches, worker := some (row, .refused) }
        | none => some { s with fetches, worker := some (row, .refused) }
    | _ => none
  | .ingest =>
    match s.worker with
    | some (row, .fetched payload) => some { s with worker := some (row, .ingesting payload) }
    | _ => none
  | .catalogued id =>
    match s.worker with
    | some (row, .ingesting payload) =>
      if id ∈ s.vault.map Snapshot.id then none
      else
        let snapshot := ⟨id, payload, row.key⟩
        some { s with vault := snapshot :: s.vault, worker := some (row, .catalogued snapshot) }
    | _ => none
  | .verified =>
    match s.worker with
    | some (row, .catalogued snapshot) => some { s with worker := some (row, .verified snapshot) }
    | _ => none
  | .complete =>
    match s.worker with
    | some (row, .verified snapshot) =>
      some { s with
        worker := none
        verification := snapshot.id :: s.verification
        rows := s.rows.update (fun r => r.key = row.key)
          (Operation.toCompleted s.now snapshot.id) }
    | _ => none
  | .workerFails =>
    match s.worker with
    | some (row, phase) => if phase = .read then none else some (s.workerFails row phase)
    | none => none
  | .workerDies => some { s with worker := none }

/-! ## The invariant -/

def Sys.Told (s : Sys) (r : Operation) : Prop :=
  ∃ snap ∈ s.vault, r.snapshotId = some snap.id ∧ snap.payload = ⟨r.kind, r.target⟩ ∧
    snap.label = r.key ∧ snap.id ∈ s.verification

def Sys.Blank (s : Sys) (key : Kind × Nat) : Prop := ∀ snap ∈ s.vault, snap.label ≠ key

def Sys.Touched (s : Sys) (key : Kind × Nat) : Prop := key ∈ s.fetches ∨ ¬ s.Blank key

/-- Where a worker can be, whose row has come to be `r`. -/
def Sys.At (s : Sys) (r : Operation) : Phase → Prop
  | .read => ¬ s.Touched r.key
  | .running => r.status ≠ .pending ∧ ¬ s.Touched r.key
  | .refused => r.status ≠ .pending ∧ s.Blank r.key
  | .fetched payload | .ingesting payload =>
    r.status ≠ .pending ∧ s.Blank r.key ∧ payload = ⟨r.kind, r.target⟩
  | .catalogued snap | .verified snap =>
    r.status ≠ .pending ∧ snap ∈ s.vault ∧ snap.payload = ⟨r.kind, r.target⟩ ∧ snap.label = r.key

def Sys.Works (s : Sys) (worker : Option (Operation × Phase)) : Prop :=
  ∀ row phase, worker = some (row, phase) →
    ∃ r ∈ s.rows, r.key = row.key ∧ r.target = row.target ∧ r.final = false ∧ s.At r phase

structure Journal (s : Sys) : Prop where
  active : ∀ r ∈ s.rows, ∀ r' ∈ s.rows, r.active = true → r'.active = true → r = r'
  requests : ∀ r ∈ s.rows, ∀ r' ∈ s.rows, r.requestId = r'.requestId → r = r'
  fetches : s.fetches.Nodup
  completed : ∀ r ∈ s.rows, r.status = .completed → s.Told r
  failed : ∀ r ∈ s.rows, r.status = .failed → s.Blank r.key

structure Inv (s : Sys) : Prop extends Journal s where
  touched : ∀ k, s.Touched k → ∃ r ∈ s.rows, r.key = k ∧ r.status ≠ .pending
  worker : s.Works s.worker

def Sys.Keeps (s s' : Sys) : Prop := ∀ r ∈ s.rows, r.final = true → r ∈ s'.rows

variable {s s' : Sys}

theorem Operation.active_iff (r : Operation) : r.active = true ↔ r.final = false := by
  unfold Operation.active Operation.final
  cases r.status <;> decide

/-- A write to rows that are not final: they stay those of their requests, none becomes pending,
and those that become final say what is true. -/
theorem Inv.written (h : Inv s) {p : Operation → Bool} {f : Operation → Operation}
    (hf : ∀ r, (f r).key = r.key)
    (hopen : ∀ r ∈ s.rows, p r = true → r.final = false)
    (hpending : ∀ r, (f r).status ≠ .pending)
    (hcompleted : ∀ r ∈ s.rows, p r = true → (f r).status = .completed → s'.Told (f r))
    (hfailed : ∀ r ∈ s.rows, p r = true → (f r).status = .failed → s.Blank r.key)
    (hrows : s'.rows = s.rows.update p f hf) (hfetches : s'.fetches = s.fetches)
    (hvault : s'.vault = s.vault) (hverified : s.verification ⊆ s'.verification)
    (hworker : s'.Works s'.worker) :
    Inv s' ∧ s.Keeps s' := by
  have hmem : ∀ r' ∈ s'.rows, ∃ r ∈ s.rows, r' = (if p r then f r else r) ∧ r'.key = r.key ∧
      (r'.active = true → r.active = true) := by
    intro r' hr'
    rw [hrows] at hr'
    obtain ⟨r, hr, rfl⟩ := Table.mem_update.mp hr'
    refine ⟨r, hr, rfl, ?_, fun hactive => ?_⟩
    · split
      · exact hf r
      · rfl
    · split at hactive
      case isTrue hp => exact r.active_iff.mpr (hopen r hr hp)
      case isFalse => exact hactive
  have hblank : ∀ k, s.Blank k → s'.Blank k := fun k hk snap hsnap => hk snap (hvault ▸ hsnap)
  refine ⟨?_, fun r hr hfinal => ?_⟩
  swap
  · have hp : ¬ p r = true := fun hp => by simp [hopen r hr hp] at hfinal
    exact hrows ▸ Table.mem_update.mpr ⟨r, hr, (if_neg hp).symm⟩
  constructor
  · constructor
    · intro r hr r' hr' hactive hactive'
      obtain ⟨r₀, hr₀, rfl, -, hactive₀⟩ := hmem r hr
      obtain ⟨r₁, hr₁, rfl, -, hactive₁⟩ := hmem r' hr'
      rw [h.active r₀ hr₀ r₁ hr₁ (hactive₀ hactive) (hactive₁ hactive')]
    · intro r hr r' hr' hid
      obtain ⟨r₀, hr₀, rfl, hkey₀, -⟩ := hmem r hr
      obtain ⟨r₁, hr₁, rfl, hkey₁, -⟩ := hmem r' hr'
      have hid₀ := congrArg Prod.snd hkey₀
      have hid₁ := congrArg Prod.snd hkey₁
      rw [h.requests r₀ hr₀ r₁ hr₁ (hid₀.symm.trans (hid.trans hid₁))]
    · rw [hfetches]
      exact h.fetches
    · intro r hr hstatus
      obtain ⟨r₀, hr₀, rfl, -⟩ := hmem r hr
      split at hstatus
      case isTrue hp =>
        rw [if_pos hp]
        exact hcompleted r₀ hr₀ hp hstatus
      case isFalse hp =>
        obtain ⟨snap, hsnap, hid, hpayload, hlabel, hverified₀⟩ := h.completed r₀ hr₀ hstatus
        rw [if_neg hp]
        exact ⟨snap, hvault ▸ hsnap, hid, hpayload, hlabel, hverified hverified₀⟩
    · intro r hr hstatus
      obtain ⟨r₀, hr₀, rfl, hkey, -⟩ := hmem r hr
      rw [hkey]
      split at hstatus
      case isTrue hp => exact hblank _ (hfailed r₀ hr₀ hp hstatus)
      case isFalse hp => exact hblank _ (h.failed r₀ hr₀ hstatus)
  · intro k hk
    have hk : s.Touched k := hk.imp (fun h => hfetches ▸ h) (fun h hold => h (hblank k hold))
    obtain ⟨r, hr, hkey, hstatus⟩ := h.touched k hk
    refine ⟨if p r then f r else r, hrows ▸ Table.mem_update.mpr ⟨r, hr, rfl⟩, ?_⟩
    split
    · exact ⟨(hf r).trans hkey, hpending r⟩
    · exact ⟨hkey, hstatus⟩
  · exact hworker

theorem Inv.worker_written (h : Inv s) {p : Operation → Bool} {f : Operation → Operation}
    (hf : ∀ r, (f r).key = r.key) (htarget : ∀ r, (f r).target = r.target)
    (hstatus : ∀ r, (f r).status = .uncertain ∨ (f r).status = .running)
    (hrows : s'.rows = s.rows.update p f hf) (hfetches : s'.fetches = s.fetches)
    (hvault : s'.vault = s.vault) (hworker : s'.worker = s.worker) : s'.Works s'.worker := by
  intro row phase hw
  obtain ⟨r, hr, hkey, htarget', hopen, hat⟩ := h.worker row phase (hworker ▸ hw)
  refine ⟨if p r then f r else r, hrows ▸ Table.mem_update.mpr ⟨r, hr, rfl⟩, ?_⟩
  have hblank : s'.Blank r.key ↔ s.Blank r.key := by
    unfold Sys.Blank
    rw [hvault]
  have htouched : s'.Touched r.key ↔ s.Touched r.key := by
    unfold Sys.Touched
    rw [hfetches, hblank]
  split
  case isFalse =>
    refine ⟨hkey, htarget', hopen, ?_⟩
    cases phase <;> simpa only [Sys.At, hblank, htouched, hvault] using hat
  case isTrue =>
    have hne : (f r).status ≠ .pending ∧ (f r).final = false := by
      unfold Operation.final
      rcases hstatus r with h | h <;> rw [h] <;> decide
    have hkind : (f r).kind = r.kind := congrArg Prod.fst (hf r)
    refine ⟨(hf r).trans hkey, (htarget r).trans htarget', hne.2, ?_⟩
    cases phase <;>
      simpa only [Sys.At, hf r, hkind, htarget r, hne.1, hblank, htouched, hvault, ne_eq,
        not_false_eq_true, true_and] using by first | exact hat | exact hat.2

theorem Inv.expire (h : Inv s) : Inv s.expire ∧ s.Keeps s.expire := by
  have hworker : s.expire.Works s.expire.worker :=
    h.worker_written (p := (·.expires s.now)) (f := Operation.toUncertain) (fun _ => rfl)
      (fun _ => rfl) (fun _ => Or.inl rfl) rfl rfl rfl rfl
  refine h.written (f := Operation.toUncertain) (fun _ => rfl) (fun r hr hp => ?_)
    (fun r hr => by cases hr) (fun r _ _ hr => by cases hr) (fun r _ _ hr => by cases hr)
    rfl rfl rfl (List.Subset.refl _) hworker
  simp only [Operation.expires, decide_eq_true_eq] at hp
  unfold Operation.final
  rcases hp.1 with hp | hp <;> rw [hp] <;> decide

theorem Inv.inserted (h : Inv s) {row : Operation} {rows : Table Operation Operation.key}
    {starting : Option (Kind × Nat)} (hins : s.rows.insert? row = some rows)
    (hfree : ∀ r ∈ s.rows, r.active = false ∧ r.requestId ≠ row.requestId)
    (hpending : row.status = .pending) : Inv { s with rows, starting } := by
  have hmem : ∀ r, r ∈ rows ↔ r = row ∨ r ∈ s.rows := fun r => Table.mem_insert? hins
  refine ⟨⟨?_, ?_, h.fetches, ?_, ?_⟩, ?_, ?_⟩
  · intro r hr r' hr' hactive hactive'
    rcases (hmem r).mp hr with rfl | hr
    · rcases (hmem r').mp hr' with rfl | hr'
      · rfl
      · simp [(hfree r' hr').1] at hactive'
    · simp [(hfree r hr).1] at hactive
  · intro r hr r' hr' hid
    rcases (hmem r).mp hr with rfl | hr
    · rcases (hmem r').mp hr' with rfl | hr'
      · rfl
      · exact absurd hid.symm (hfree r' hr').2
    · rcases (hmem r').mp hr' with rfl | hr'
      · exact absurd hid (hfree r hr).2
      · exact h.requests r hr r' hr' hid
  · intro r hr hstatus
    rcases (hmem r).mp hr with rfl | hr
    · simp [hpending] at hstatus
    · exact h.completed r hr hstatus
  · intro r hr hstatus
    rcases (hmem r).mp hr with rfl | hr
    · simp [hpending] at hstatus
    · exact h.failed r hr hstatus
  · intro k hk
    obtain ⟨r, hr, hrest⟩ := h.touched k hk
    exact ⟨r, (hmem r).mpr (Or.inr hr), hrest⟩
  · intro row' phase hw
    obtain ⟨r, hr, hrest⟩ := h.worker row' phase hw
    exact ⟨r, (hmem r).mpr (Or.inr hr), hrest⟩

theorem Inv.capture (h : Inv s) (kind : Kind) (requestId target adminId : Nat) :
    Inv (s.capture kind requestId target adminId).1 ∧
      s.Keeps (s.capture kind requestId target adminId).1 := by
  obtain ⟨hexpire, hkeeps⟩ := h.expire
  unfold Sys.capture
  dsimp only
  split
  · split <;> exact ⟨hexpire, hkeeps⟩
  split
  · exact ⟨hexpire, hkeeps⟩
  split
  · exact ⟨hexpire, hkeeps⟩
  case isFalse hbusy =>
  split
  · exact ⟨hexpire, hkeeps⟩
  case h_2 rows hins =>
  refine ⟨hexpire.inserted hins (fun r hr => ?_) rfl, fun r hr hfinal => ?_⟩
  · simp only [List.any_eq_true, Bool.or_eq_true, decide_eq_true_eq, not_exists, not_and,
      not_or, Bool.not_eq_true] at hbusy
    exact hbusy r hr
  · exact (Table.mem_insert? hins).mpr (Or.inr (hkeeps r hr hfinal))

theorem Inv.row_of_key (h : Inv s) {row r : Operation} {phase : Phase}
    (hw : s.worker = some (row, phase)) (hr : r ∈ s.rows) (hkey : r.key = row.key) :
    r.target = row.target ∧ r.final = false ∧ s.At r phase := by
  obtain ⟨r', hr', hkey', hrest⟩ := h.worker row phase hw
  rw [Table.eq_of_key_eq hr hr' (hkey.trans hkey'.symm)]
  exact hrest

theorem Inv.unwritten (h : Inv s) {now : Nat} {captureEnabled : Bool}
    {starting : Option (Kind × Nat)} {worker : Option (Operation × Phase)}
    (hworker : s.Works worker) : Inv { s with now, captureEnabled, starting, worker } :=
  ⟨⟨h.active, h.requests, h.fetches, h.completed, h.failed⟩, h.touched, hworker⟩

theorem Inv.moved (h : Inv s) {row : Operation} {phase phase' : Phase}
    (hw : s.worker = some (row, phase)) (hat : ∀ r, s.At r phase → s.At r phase') :
    s.Works (some (row, phase')) := by
  intro row' phase₁ hw'
  obtain ⟨rfl, rfl⟩ := Prod.mk.inj (Option.some.inj hw')
  obtain ⟨r, hr, hkey, htarget, hopen, hat₀⟩ := h.worker _ _ hw
  exact ⟨r, hr, hkey, htarget, hopen, hat r hat₀⟩

theorem Inv.asked (h : Inv s) {row : Operation} {phase : Phase}
    (hw : s.worker = some (row, .running))
    (hphase : phase = .refused ∨ phase = .fetched ⟨row.kind, row.target⟩) :
    Inv { s with fetches := row.key :: s.fetches, worker := some (row, phase) } := by
  obtain ⟨r, hr, hkey, htarget, hopen, hstatus, htouched⟩ := h.worker _ _ hw
  have hfetch : row.key ∉ s.fetches := fun hk => htouched (Or.inl (hkey ▸ hk))
  have hblank : s.Blank r.key := not_not.mp fun hk => htouched (Or.inr hk)
  refine ⟨⟨h.active, h.requests, List.nodup_cons.mpr ⟨hfetch, h.fetches⟩, h.completed, h.failed⟩,
    fun k hk => ?_, fun row' phase' hw' => ?_⟩
  · rcases hk with hk | hk
    · rcases List.mem_cons.mp hk with rfl | hk
      · exact ⟨r, hr, hkey, hstatus⟩
      · exact h.touched k (Or.inl hk)
    · exact h.touched k (Or.inr hk)
  · obtain ⟨rfl, rfl⟩ := Prod.mk.inj (Option.some.inj hw')
    refine ⟨r, hr, hkey, htarget, hopen, ?_⟩
    rcases hphase with rfl | rfl
    · exact ⟨hstatus, hblank⟩
    · exact ⟨hstatus, hblank, by rw [htarget, show r.kind = row.kind from congrArg Prod.fst hkey]⟩

theorem Inv.stored (h : Inv s) {row : Operation} {payload : Payload} (id : Nat)
    (hw : s.worker = some (row, .ingesting payload)) :
    Inv { s with
      vault := ⟨id, payload, row.key⟩ :: s.vault
      worker := some (row, .catalogued ⟨id, payload, row.key⟩) } := by
  obtain ⟨r, hr, hkey, htarget, hopen, hstatus, hblank, hpayload⟩ := h.worker _ _ hw
  refine ⟨⟨h.active, h.requests, h.fetches, fun r' hr' hcompleted => ?_,
    fun r' hr' hfailed snap hsnap hlabel => ?_⟩, fun k hk => ?_, fun row' phase' hw' => ?_⟩
  · obtain ⟨snap, hsnap, hrest⟩ := h.completed r' hr' hcompleted
    exact ⟨snap, List.mem_cons_of_mem _ hsnap, hrest⟩
  · rcases List.mem_cons.mp hsnap with rfl | hsnap
    · have heq : r' = r := Table.eq_of_key_eq hr' hr (hlabel.symm.trans hkey.symm)
      simp [← heq, Operation.final, hfailed] at hopen
    · exact h.failed r' hr' hfailed snap hsnap hlabel
  · by_cases hrow : k = row.key
    · exact ⟨r, hr, hkey.trans hrow.symm, hstatus⟩
    · refine h.touched k (hk.imp_right fun hk hold => hk fun snap hsnap => ?_)
      rcases List.mem_cons.mp hsnap with rfl | hsnap
      · exact Ne.symm hrow
      · exact hold snap hsnap
  · obtain ⟨rfl, rfl⟩ := Prod.mk.inj (Option.some.inj hw')
    exact ⟨r, hr, hkey, htarget, hopen, hstatus, List.mem_cons_self, hpayload, hkey.symm⟩

/-! ## Steps and runs -/

def ReportsOpen (s : Sys) : Event → Prop
  | .startFails => ∀ r ∈ s.rows, s.starting = some r.key → r.final = false
  | _ => True

theorem inv_step {e : Event} (h : Inv s) (hguard : ReportsOpen s e) (hstep : step s e = some s') :
    Inv s' ∧ s.Keeps s' := by
  have hsame : s.Keeps s := fun r hr _ => hr
  cases e with
  | tick now =>
    obtain ⟨-, hstep⟩ := Option.ite_none_right_eq_some.mp hstep
    obtain rfl := Option.some.inj hstep
    exact ⟨h.unwritten h.worker, hsame⟩
  | enable on =>
    obtain rfl := Option.some.inj hstep
    exact ⟨h.unwritten h.worker, hsame⟩
  | started =>
    obtain rfl := Option.some.inj hstep
    exact ⟨h.unwritten h.worker, hsame⟩
  | workerDies =>
    obtain rfl := Option.some.inj hstep
    exact ⟨h.unwritten (fun _ _ hw => by cases hw), hsame⟩
  | capture kind requestId target adminId =>
    obtain ⟨-, hstep⟩ := Option.ite_none_right_eq_some.mp hstep
    obtain rfl := Option.some.inj hstep
    exact h.capture kind requestId target adminId
  | expire =>
    obtain rfl := Option.some.inj hstep
    exact h.expire
  | startFails =>
    obtain ⟨key, hkey, rfl⟩ := Option.map_eq_some_iff.mp hstep
    have hworker : (s.reportFailed key).Works (s.reportFailed key).worker :=
      h.worker_written (p := fun r => r.key = key) (f := Operation.toUncertain) (fun _ => rfl)
        (fun _ => rfl) (fun _ => Or.inl rfl) rfl rfl rfl rfl
    refine h.written (f := Operation.toUncertain) (fun _ => rfl) (fun r hr hp => ?_)
      (fun r hr => by cases hr) (fun r _ _ hr => by cases hr) (fun r _ _ hr => by cases hr)
      rfl rfl rfl (List.Subset.refl _) hworker
    exact hguard r hr (of_decide_eq_true hp ▸ hkey)
  | workerReads requestId =>
    simp only [step] at hstep
    split at hstep
    case h_2 => cases hstep
    case h_1 row hw hrow =>
    obtain ⟨hpending, hstep⟩ := Option.ite_none_right_eq_some.mp hstep
    obtain rfl := Option.some.inj hstep
    have hmem : row ∈ s.rows := by
      rcases Option.or_eq_some_iff.mp hrow with hrow | ⟨-, hrow⟩
      · exact Table.mem_of_get? hrow
      · exact Table.mem_of_get? hrow
    refine ⟨h.unwritten fun row' phase hw' => ?_, hsame⟩
    obtain ⟨rfl, rfl⟩ := Prod.mk.inj (Option.some.inj hw')
    refine ⟨row, hmem, rfl, rfl, by simp [Operation.final, hpending], fun htouched => ?_⟩
    obtain ⟨r, hr, hkey, hstatus⟩ := h.touched _ htouched
    exact hstatus (Table.eq_of_key_eq hr hmem hkey ▸ hpending)
  | workerRuns =>
    simp only [step] at hstep
    split at hstep
    case h_2 => cases hstep
    case h_1 row hw =>
    obtain rfl := Option.some.inj hstep
    refine h.written (f := Operation.toRunning) (fun _ => rfl)
      (fun r hr hp => (h.row_of_key hw hr (of_decide_eq_true hp)).2.1)
      (fun r hr => by cases hr) (fun r _ _ hr => by cases hr) (fun r _ _ hr => by cases hr) rfl rfl
      rfl (List.Subset.refl _) (fun row' phase hw' => ?_)
    obtain ⟨rfl, rfl⟩ := Prod.mk.inj (Option.some.inj hw')
    obtain ⟨r, hr, hkey, htarget, -, hat⟩ := h.worker _ _ hw
    have hrunning : r.toRunning.status ≠ .pending := fun hpending => by cases hpending
    have hmem : r.toRunning ∈ s.rows.update (fun r => r.key = row.key) Operation.toRunning :=
      Table.mem_update.mpr ⟨r, hr, (if_pos (decide_eq_true hkey)).symm⟩
    exact ⟨r.toRunning, hmem, hkey, htarget, rfl, And.intro hrunning hat⟩
  | fetch payload =>
    simp only [step] at hstep
    split at hstep
    case h_2 => cases hstep
    case h_1 row hw =>
    split at hstep
    case isTrue =>
      obtain rfl := Option.some.inj hstep
      exact ⟨h.unwritten (h.moved hw fun _ hat =>
        ⟨hat.1, not_not.mp fun hk => hat.2 (Or.inr hk)⟩), hsame⟩
    case isFalse =>
    cases payload with
    | none =>
      obtain rfl := Option.some.inj hstep
      exact ⟨h.asked hw (Or.inl rfl), hsame⟩
    | some payload =>
      obtain ⟨kind, root⟩ := payload
      dsimp only at hstep
      split at hstep
      case isTrue hmatch =>
        obtain ⟨rfl, rfl⟩ := hmatch
        obtain rfl := Option.some.inj hstep
        exact ⟨h.asked hw (Or.inr rfl), hsame⟩
      case isFalse =>
        obtain rfl := Option.some.inj hstep
        exact ⟨h.asked hw (Or.inl rfl), hsame⟩
  | ingest =>
    simp only [step] at hstep
    split at hstep
    case h_2 => cases hstep
    case h_1 row payload hw =>
    obtain rfl := Option.some.inj hstep
    exact ⟨h.unwritten (h.moved hw fun _ hat => hat), hsame⟩
  | catalogued id =>
    simp only [step] at hstep
    split at hstep
    case h_2 => cases hstep
    case h_1 row payload hw =>
    obtain ⟨-, hstep⟩ := Option.ite_none_left_eq_some.mp hstep
    obtain rfl := Option.some.inj hstep
    exact ⟨h.stored id hw, hsame⟩
  | verified =>
    simp only [step] at hstep
    split at hstep
    case h_2 => cases hstep
    case h_1 row snapshot hw =>
    obtain rfl := Option.some.inj hstep
    exact ⟨h.unwritten (h.moved hw fun _ hat => hat), hsame⟩
  | complete =>
    simp only [step] at hstep
    split at hstep
    case h_2 => cases hstep
    case h_1 row snapshot hw =>
    obtain rfl := Option.some.inj hstep
    refine h.written (f := Operation.toCompleted s.now snapshot.id) (fun _ => rfl)
      (fun r hr hp => (h.row_of_key hw hr (of_decide_eq_true hp)).2.1)
      (fun r hr => by cases hr) (fun r hr hp _ => ?_) (fun r _ _ hr => by cases hr) rfl rfl
      rfl (List.subset_cons_self _ _) (fun _ _ hw' => by cases hw')
    obtain ⟨-, -, -, hsnap, hpayload, hlabel⟩ := h.row_of_key hw hr (of_decide_eq_true hp)
    exact ⟨snapshot, hsnap, rfl, hpayload, hlabel, List.mem_cons_self⟩
  | workerFails =>
    simp only [step] at hstep
    split at hstep
    case h_2 => cases hstep
    case h_1 row phase hw =>
    obtain ⟨-, hstep⟩ := Option.ite_none_left_eq_some.mp hstep
    obtain rfl := Option.some.inj hstep
    refine h.written (f := Operation.toRefused s.now phase.ingestStarted) (fun _ => rfl)
      (fun r hr hp => ?_) (fun r hr => ?_) (fun r hr hp hr' => ?_) (fun r hr hp hr' => ?_)
      rfl rfl rfl (List.Subset.refl _) (fun _ _ hw' => by cases hw')
    · exact (h.row_of_key hw hr (of_decide_eq_true hp).1).2.1
    · unfold Operation.toRefused at hr
      cases hstarted : phase.ingestStarted <;> simp [hstarted] at hr
    · unfold Operation.toRefused at hr'
      cases hstarted : phase.ingestStarted <;> simp [hstarted] at hr'
    · obtain ⟨-, -, hat⟩ := h.row_of_key hw hr (of_decide_eq_true hp).1
      cases phase with
      | read => exact not_not.mp fun hk => hat (Or.inr hk)
      | running => exact not_not.mp fun hk => hat.2 (Or.inr hk)
      | refused => exact hat.2
      | fetched payload => exact hat.2.1
      | ingesting payload | catalogued snap | verified snap => cases hr'

theorem inv_start : Inv Sys.start := by
  have hrows : ∀ r, r ∉ Sys.start.rows := fun r => Table.not_mem_empty r
  exact ⟨⟨fun r hr => absurd hr (hrows r), fun r hr => absurd hr (hrows r), List.nodup_nil,
    fun r hr => absurd hr (hrows r), fun r hr => absurd hr (hrows r)⟩,
    fun k hk => hk.elim (fun hk => absurd hk List.not_mem_nil)
      (fun hk => absurd (fun snap hsnap => absurd hsnap List.not_mem_nil) hk),
    fun _ _ hw => by cases hw⟩

/-- In a run in which every failure of a unit start is reported while the row is open, the journal
is true, and what is completed or failed at some point stays to the end. -/
theorem journal_true {before after : List Event} (hfirst : exec step Sys.start before = some s)
    (hrest : exec step s after = some s')
    (hreports : Along step ReportsOpen Sys.start (before ++ after)) :
    Journal s' ∧ ∀ r ∈ s.rows, r.final = true → r ∈ s'.rows := by
  obtain ⟨hbefore, hafter⟩ := Runs.along_append.mp hreports
  have hs : Inv s := Runs.exec_invariant (fun _ _ _ h hg hstep => (inv_step h hg hstep).1)
    inv_start hbefore hfirst
  have hafter := hafter s hfirst
  have hs' : Inv s' ∧ s.Keeps s' := by
    refine Runs.exec_invariant (I := fun t => Inv t ∧ s.Keeps t) (fun t e t' h hg hstep => ?_)
      ⟨hs, fun r hr _ => hr⟩ hafter hrest
    obtain ⟨hinv, hkeeps⟩ := inv_step h.1 hg hstep
    exact ⟨hinv, fun r hr hfinal => hkeeps r (h.2 r hr hfinal) hfinal⟩
  exact ⟨hs'.1.toJournal, hs'.2⟩

/-! A base is captured. The unit has started, but systemctl is late to say so. -/

instance (s : Sys) (e : Event) : Decidable (ReportsOpen s e) :=
  match e with
  | .startFails =>
    inferInstanceAs (Decidable (∀ r ∈ s.rows.rows, s.starting = some r.key → r.final = false))
  | .tick _ | .enable _ | .capture .. | .started | .expire | .workerReads _ | .workerRuns
  | .fetch _ | .ingest | .catalogued _ | .verified | .complete | .workerFails | .workerDies =>
    .isTrue trivial

def captured : List Event :=
  [.enable true, .capture .operations 1 70 5, .workerReads 1, .workerRuns,
    .fetch (some ⟨.operations, 70⟩), .ingest, .catalogued 9, .verified, .complete]

theorem journal_true_captured : ∃ s s', exec step Sys.start captured = some s ∧
    exec step s [.started] = some s' ∧ Journal s' ∧
      ∀ r ∈ s.rows, r.final = true → r ∈ s'.rows := by
  obtain ⟨s, hrun, hnext⟩ : ∃ s, exec step Sys.start captured = some s ∧
      (exec step s [.started]).isSome = true := Runs.exec_shows (by decide)
  obtain ⟨s', hrest⟩ := Option.isSome_iff_exists.mp hnext
  exact ⟨s, s', hrun, hrest, journal_true hrun hrest (by decide)⟩

/-- The late report of a failed start takes the completed row back. -/
theorem completed_taken_back : ¬ ∀ (before after : List Event) (s s' : Sys),
    exec step Sys.start before = some s → exec step s after = some s' →
      ∀ r ∈ s.rows, r.final = true → r ∈ s'.rows := by
  intro h
  obtain ⟨s, hrun, hlost⟩ : ∃ s, exec step Sys.start captured = some s ∧
      ∃ r ∈ s.rows.rows, r.final = true ∧ ∃ k ∈ s.starting,
        r ∉ (s.reportFailed k).rows.rows := Runs.exec_shows (by decide)
  obtain ⟨r, hr, hfinal, k, hk, hgone⟩ := hlost
  have hrest : exec step s [.startFails] = some (s.reportFailed k) := by
    rw [exec, step, Option.mem_def.mp hk]
    rfl
  exact hgone (h captured [.startFails] s _ hrun hrest r hr hfinal)

end LastSietch.VaultJournal
