import Mathlib.Data.List.Perm.Subperm
import LastSietch.Lib.Pledges
import LastSietch.Lib.Runs
import LastSietch.Portal.RepairWriter

/-!
# The repair allowance

The repair requests of one account side by side, one step for each thing that another request can
come between: the count of the audit rows, the character's resolution, the writer's transaction, and
the audit row. The count reads what has been audited, under the inventory id that the client sent (as
the container list translates it); a vehicle refurbish is of the vehicle that the writer finds.

`repairs` is the history of the writes that have been committed. An audit row remembers the request
that wrote it and a request how many rows there were when it was counted; no query reads either.

* `mem_counted`: a repair of the last window that a request has not missed is one of the rows that
  its count has read.
-/

namespace LastSietch.Repairs

open Pledges (Entry Bounded since within)
open Runs (exec Along)

/-! ## Buckets -/

/-- The limits and switches of `config.py`; windows are seconds. -/
structure Config where
  boxEnabled : Bool
  allEnabled : Bool
  vehicleEnabled : Bool
  boxWindow : Nat
  boxCap : Nat
  allWindow : Nat
  allCap : Nat
  vehicleWindow : Nat
  vehicleCap : Nat

/-- `cap_action` and `audit_action`. -/
inductive AuditAction
  | portalRepair | portalRepairEverything | portalRepairVehicle
  deriving DecidableEq

def Action.audit : Action → AuditAction
  | .everything => .portalRepairEverything
  | .vehicle => .portalRepairVehicle
  | .box | .gear => .portalRepair

def Config.window (c : Config) : AuditAction → Nat
  | .portalRepair => c.boxWindow
  | .portalRepairEverything => c.allWindow
  | .portalRepairVehicle => c.vehicleWindow

def Config.cap (c : Config) : AuditAction → Nat
  | .portalRepair => c.boxCap
  | .portalRepairEverything => c.allCap
  | .portalRepairVehicle => c.vehicleCap

def Config.enabled (c : Config) : Action → Bool
  | .everything => c.allEnabled
  | .vehicle => c.vehicleEnabled
  | .box => c.boxEnabled
  | .gear => true

structure Target where
  accountId : Nat
  invId : Option Nat
  deriving DecidableEq

/-- A row of `audit_log`. -/
structure AuditRow where
  action : AuditAction
  target : Target
  timestamp : Nat
  success : Bool
  request : Option Nat
  deriving DecidableEq

structure Bucket where
  action : AuditAction
  vehicle : Option Nat
  deriving DecidableEq

structure Repair where
  request : Nat
  bucket : Bucket
  time : Nat
  deriving DecidableEq

/-- `recent_action_count`, for one target. -/
def counts (action : AuditAction) (target : Target) (sinceUtc : Nat) (r : AuditRow) : Bool :=
  r.action = action ∧ sinceUtc ≤ r.timestamp ∧ r.target = target ∧ r.success = true

def recentActionCount (log : List AuditRow) (action : AuditAction) (target : Target)
    (sinceUtc : Nat) : Nat :=
  log.countP (counts action target sinceUtc)

/-- The inventory that a container id stands for: `box.get("inv_id") or inv_id`. -/
def translate (containers : List (Nat × Option Nat)) (clientId : Nat) : Nat :=
  match containers.find? (·.1 = clientId) with
  | some (_, some invId) => if invId = 0 then clientId else invId
  | _ => clientId

/-! ## Requests -/

/-- A request that its count has let through, at the time `countedAt`, with `seen` rows in the log. -/
structure Counted where
  countedAt : Nat
  seen : Nat
  counted : Nat

inductive Stage
  | keyed
  | counted (c : Counted)
  | resolved (c : Counted) (ownerCtrl : Nat)
  | written (ok : Bool)
  | closed

structure Request where
  action : Action
  invId : Nat
  stage : Stage

structure Sys where
  now : Nat
  game : Game
  log : List AuditRow
  requests : List Request
  repairs : List Repair

inductive Act
  /-- A request past session and CSRF: the id (0 when it is no number) and the container list. -/
  | arrive (action : Action) (clientId : Nat) (containers : List (Nat × Option Nat))
  | count (i : Nat)
  | resolve (i : Nat) (ownerCtrl : Option Nat)
  /-- The relay call; `reached` when the writer runs, `heard` when its answer comes back. -/
  | write (i : Nat) (reached heard : Bool)
  | audit (i : Nat)
  | tick (seconds : Nat)
  | game (g : Game)

section

variable (cfg : Config) (account : Nat)

/-- `cap_target`. -/
def Request.target (r : Request) : Target :=
  ⟨account, if r.action = .vehicle then some r.invId else none⟩

def Sys.move (s : Sys) (i : Nat) (r : Request) (stage : Stage) : Sys :=
  { s with requests := s.requests.set i { r with stage } }

def Sys.arrive (s : Sys) (action : Action) (clientId : Nat) (containers : List (Nat × Option Nat)) :
    Sys :=
  if cfg.enabled action = false then s
  else
    match action with
    | .gear | .everything => { s with requests := s.requests ++ [⟨action, 0, .keyed⟩] }
    | .box | .vehicle =>
      if clientId = 0 then s
      else { s with requests := s.requests ++ [⟨action, translate containers clientId, .keyed⟩] }

def Sys.recent (s : Sys) (r : Request) : Nat :=
  recentActionCount s.log r.action.audit (r.target account) (s.now - cfg.window r.action.audit)

def Sys.count (s : Sys) (i : Nat) (r : Request) : Sys :=
  if cfg.cap r.action.audit ≤ s.recent cfg account r then s.move i r .closed
  else s.move i r (.counted ⟨s.now, s.log.length, s.recent cfg account r⟩)

def Sys.outcome (s : Sys) (r : Request) (ownerCtrl : Nat) : Option Bucket :=
  match s.game.write ownerCtrl s.now r.action r.invId with
  | .error _ => none
  | .ok (.inl vehicle) => some ⟨r.action.audit, some vehicle⟩
  | .ok (.inr _) => some ⟨r.action.audit, none⟩

def Sys.write (s : Sys) (i : Nat) (r : Request) (ownerCtrl : Nat) (reached heard : Bool) : Sys :=
  match s.outcome r ownerCtrl with
  | none => s.move i r (.written false)
  | some bucket =>
    if reached = true then
      { s.move i r (.written heard) with repairs := s.repairs ++ [⟨i, bucket, s.now⟩] }
    else s.move i r (.written false)

def Sys.audit (s : Sys) (i : Nat) (r : Request) (ok : Bool) : Sys :=
  { s.move i r .closed with
    log := s.log ++ [⟨r.action.audit, r.target account, s.now, ok, some i⟩] }

def step (s : Sys) : Act → Option Sys
  | .arrive action clientId containers => some (s.arrive cfg action clientId containers)
  | .count i => do
    let r ← s.requests[i]?
    match r.stage with
    | .keyed => some (s.count cfg account i r)
    | _ => none
  | .resolve i ownerCtrl => do
    let r ← s.requests[i]?
    match r.stage, ownerCtrl with
    | .counted c, some ctrl => some (s.move i r (.resolved c ctrl))
    | .counted _, none => some (s.move i r .closed)
    | _, _ => none
  | .write i reached heard => do
    let r ← s.requests[i]?
    match r.stage with
    | .resolved _ ctrl => some (s.write i r ctrl reached heard)
    | _ => none
  | .audit i => do
    let r ← s.requests[i]?
    match r.stage with
    | .written ok => some (s.audit account i r ok)
    | _ => none
  | .tick seconds => some { s with now := s.now + seconds }
  | .game g => some { s with game := g }

/-- The repairs of a bucket in the window that begins at `T`. -/
def inWindow (W : Nat) (bucket : Bucket) (repairs : List Repair) (T : Nat) : Nat :=
  repairs.countP (fun q => q.bucket = bucket ∧ T ≤ q.time ∧ q.time ≤ T + W)

def AuditRow.standsFor (account : Nat) (r : Request) (q : Repair) (row : AuditRow) : Bool :=
  row.request = some q.request ∧ row.action = r.action.audit ∧ row.target = r.target account ∧
    row.success = true

/-- The repairs of the last window that a request has missed: on their way when it was counted, under
another inventory of the vehicle, or booked as failed. -/
def Sys.missed (s : Sys) (r : Request) (c : Counted) (bucket : Bucket) : List Repair :=
  s.repairs.filter (fun q => q.bucket = bucket ∧ s.now ≤ q.time + cfg.window bucket.action ∧
    ¬ (s.log.take c.seen).any (AuditRow.standsFor account r q))

def Sys.Roomy (s : Sys) : Act → Prop
  | .write i true _ => ∀ r ∈ s.requests[i]?,
    match r.stage with
    | .resolved c ctrl => ∀ bucket ∈ s.outcome r ctrl,
      c.counted + (s.missed cfg account r c bucket).length < cfg.cap bucket.action
    | _ => True
  | _ => True

instance (s : Sys) (a : Act) : Decidable (s.Roomy cfg account a) := by
  unfold Sys.Roomy
  split
  · refine @Option.decidableForallMem _ _ (fun r => ?_) _
    split <;> infer_instance
  · infer_instance

end

structure Sys.Start (s : Sys) : Prop where
  requests : s.requests = []
  repairs : s.repairs = []
  log : ∀ row ∈ s.log, row.request = none

/-! ## What a step does -/

section

variable {cfg : Config} {account : Nat} {s s' : Sys}

def Stage.counted? : Stage → Option Counted
  | .counted c | .resolved c _ => some c
  | .keyed | .written _ | .closed => none

def Stage.over : Stage → Bool
  | .written _ | .closed => true
  | .keyed | .counted _ | .resolved _ _ => false

def Counted.Read (cfg : Config) (account : Nat) (s : Sys) (r : Request) (c : Counted) : Prop :=
  c.seen ≤ s.log.length ∧ c.countedAt ≤ s.now ∧
    c.counted = recentActionCount (s.log.take c.seen) r.action.audit (r.target account)
      (c.countedAt - cfg.window r.action.audit)

inductive Effect (cfg : Config) (account : Nat) (s : Sys) : Act → Sys → Prop
  | idle (a : Act) (m : Sys) (hlog : m.log = s.log) (hrequests : m.requests = s.requests)
      (hrepairs : m.repairs = s.repairs) (hnow : s.now ≤ m.now) : Effect cfg account s a m
  | opened (a : Act) (action : Action) (invId : Nat) :
      Effect cfg account s a { s with requests := s.requests ++ [⟨action, invId, .keyed⟩] }
  | moved (a : Act) (i : Nat) (r : Request) (stage : Stage) (hr : s.requests[i]? = some r)
      (hopen : r.stage.over = false)
      (hread : ∀ c, stage.counted? = some c → r.stage.counted? = some c ∨ c.Read cfg account s r) :
      Effect cfg account s a (s.move i r stage)
  | wrote (i : Nat) (r : Request) (c : Counted) (ctrl : Nat) (bucket : Bucket) (heard : Bool)
      (hr : s.requests[i]? = some r) (hstage : r.stage = .resolved c ctrl)
      (houtcome : s.outcome r ctrl = some bucket) :
      Effect cfg account s (.write i true heard)
        { s.move i r (.written heard) with repairs := s.repairs ++ [⟨i, bucket, s.now⟩] }
  | audited (a : Act) (i : Nat) (r : Request) (ok : Bool) (hr : s.requests[i]? = some r)
      (hstage : r.stage = .written ok) : Effect cfg account s a (s.audit account i r ok)

variable {r : Request} {ctrl i : Nat} {bucket : Bucket}

theorem outcome_action (h : s.outcome r ctrl = some bucket) : bucket.action = r.action.audit := by
  unfold Sys.outcome at h
  split at h <;> cases h <;> rfl

theorem effect_arrive (a : Act) (action : Action) (clientId : Nat)
    (containers : List (Nat × Option Nat)) :
    Effect cfg account s a (s.arrive cfg action clientId containers) := by
  have hidle : Effect cfg account s a s := .idle a s rfl rfl rfl le_rfl
  unfold Sys.arrive
  split
  · exact hidle
  · split
    · exact .opened a _ _
    · exact .opened a _ _
    · split
      · exact hidle
      · exact .opened a _ _
    · split
      · exact hidle
      · exact .opened a _ _

theorem effect_count (a : Act) (hr : s.requests[i]? = some r)
    (hstage : r.stage = .keyed) : Effect cfg account s a (s.count cfg account i r) := by
  have hopen : r.stage.over = false := by
    rw [hstage]
    rfl
  unfold Sys.count
  split
  · exact .moved a i r _ hr hopen (fun _ => nofun)
  · refine .moved a i r _ hr hopen ?_
    rintro c ⟨⟩
    refine Or.inr ⟨le_rfl, le_rfl, ?_⟩
    rw [List.take_length]
    rfl

variable {c : Counted}

theorem effect_write {reached heard : Bool}
    (hr : s.requests[i]? = some r) (hstage : r.stage = .resolved c ctrl) :
    Effect cfg account s (.write i reached heard) (s.write i r ctrl reached heard) := by
  have hopen : r.stage.over = false := by
    rw [hstage]
    rfl
  unfold Sys.write
  split
  · exact .moved _ i r _ hr hopen (fun _ => nofun)
  · rename_i bucket houtcome
    split
    · rename_i hreached
      subst hreached
      exact .wrote i r c ctrl bucket heard hr hstage houtcome
    · exact .moved _ i r _ hr hopen (fun _ => nofun)

theorem step_effect {a : Act} (h : step cfg account s a = some s') :
    Effect cfg account s a s' := by
  cases a with
  | arrive action clientId containers =>
    cases h
    exact effect_arrive _ action clientId containers
  | count i =>
    obtain ⟨r, hr, h⟩ := Option.bind_eq_some_iff.mp h
    split at h
    · cases h
      exact effect_count _ hr ‹_›
    · cases h
  | resolve i ownerCtrl =>
    obtain ⟨r, hr, h⟩ := Option.bind_eq_some_iff.mp h
    split at h
    · rename_i c ctrl hstage h
      cases h
      refine .moved _ i r _ hr (by rw [hstage]; rfl) (fun c' hc' => Or.inl ?_)
      rw [hstage]
      exact hc'
    · rename_i c hstage h
      cases h
      exact .moved _ i r _ hr (by rw [hstage]; rfl) (fun _ => nofun)
    · cases h
  | write i reached heard =>
    obtain ⟨r, hr, h⟩ := Option.bind_eq_some_iff.mp h
    split at h
    · cases h
      exact effect_write hr ‹_›
    · cases h
  | audit i =>
    obtain ⟨r, hr, h⟩ := Option.bind_eq_some_iff.mp h
    split at h
    · cases h
      exact .audited _ i r _ hr ‹_›
    · cases h
  | tick seconds =>
    cases h
    exact .idle _ _ rfl rfl rfl (Nat.le_add_right ..)
  | game g =>
    cases h
    exact .idle _ _ rfl rfl rfl le_rfl

/-! ## The invariant -/

def entries (bucket : Bucket) (repairs : List Repair) : List Entry :=
  (repairs.filter (·.bucket = bucket)).map (fun q => (q.time, 1))

structure Inv (cfg : Config) (account : Nat) (s : Sys) : Prop where
  read : ∀ r ∈ s.requests, ∀ c, r.stage.counted? = some c → c.Read cfg account s r
  past : ∀ q ∈ s.repairs, q.time ≤ s.now ∧ ∃ r, s.requests[q.request]? = some r ∧ r.stage.over = true
  rows : ∀ row ∈ s.log, ∀ i, row.request = some i →
    (∃ r, s.requests[i]? = some r ∧ r.stage = .closed) ∧
      ∀ q ∈ s.repairs, q.request = i → q.time ≤ row.timestamp
  once : (s.repairs.map (·.request)).Nodup
  bounded : ∀ bucket, Bounded (cfg.window bucket.action) (cfg.cap bucket.action)
    (entries bucket s.repairs)

theorem Sys.Start.inv (h : s.Start) : Inv cfg account s where
  read := by simp [h.requests]
  past := by simp [h.repairs]
  rows row hrow i hi := by
    rw [h.log row hrow] at hi
    cases hi
  once := by simp [h.repairs]
  bounded bucket := by
    rw [h.repairs]
    exact ⟨fun e he => absurd he List.not_mem_nil, fun T => Int.natCast_nonneg _⟩

theorem Counted.Read.later {r' : Request} {more : List AuditRow}
    (h : c.Read cfg account s r) (hlog : s'.log = s.log ++ more) (hnow : s.now ≤ s'.now)
    (haction : r'.action = r.action) (hinv : r'.invId = r.invId) : c.Read cfg account s' r' := by
  obtain ⟨hseen, htime, hcounted⟩ := h
  have htarget : r'.target account = r.target account := by
    unfold Request.target
    rw [haction, hinv]
  refine ⟨?_, htime.trans hnow, ?_⟩
  · rw [hlog, List.length_append]
    exact Nat.le_add_right_of_le hseen
  · rw [hlog, List.take_append_of_le_length hseen, haction, htarget]
    exact hcounted

variable {stage : Stage}

theorem getElem?_moved {j : Nat} {q : Request} (hr : s.requests[i]? = some r)
    (hq : s.requests[j]? = some q) :
    (s.move i r stage).requests[j]? = some (if j = i then { r with stage } else q) := by
  have hi : i < s.requests.length := (List.getElem?_eq_some_iff.mp hr).1
  by_cases hji : j = i
  · subst hji
    rw [if_pos rfl]
    exact List.getElem?_set_self hi
  · rw [if_neg hji]
    exact (List.getElem?_set_ne (Ne.symm hji)).trans hq

theorem Inv.none_of_open (h : Inv cfg account s)
    (hr : s.requests[i]? = some r) (hopen : r.stage.over = false) :
    (∀ q ∈ s.repairs, q.request ≠ i) ∧ ∀ row ∈ s.log, row.request ≠ some i := by
  constructor
  · rintro q hq rfl
    obtain ⟨-, r', hr', hover⟩ := h.past q hq
    cases hr.symm.trans hr'
    exact Bool.noConfusion (hover.symm.trans hopen)
  · intro row hrow hi
    obtain ⟨⟨r', hr', hclosed⟩, -⟩ := h.rows row hrow i hi
    cases hr.symm.trans hr'
    rw [hclosed] at hopen
    cases hopen

theorem Inv.read_moved (h : Inv cfg account s) (hr : s.requests[i]? = some r)
    (hread : ∀ c, stage.counted? = some c → r.stage.counted? = some c ∨ c.Read cfg account s r) :
    ∀ q ∈ (s.move i r stage).requests, ∀ c, q.stage.counted? = some c → c.Read cfg account s q := by
  intro q hq c hc
  rcases List.mem_or_eq_of_mem_set hq with hq | rfl
  · exact h.read q hq c hc
  · have hold : c.Read cfg account s r := by
      rcases hread c hc with hsame | hnew
      · exact h.read r (List.mem_of_getElem? hr) c hsame
      · exact hnew
    exact hold.later (List.append_nil _).symm le_rfl rfl rfl

theorem Inv.past_moved (h : Inv cfg account s)
    (hr : s.requests[i]? = some r) (hover : r.stage.over = true → stage.over = true) :
    ∀ q ∈ s.repairs, q.time ≤ s.now ∧
      ∃ r', (s.move i r stage).requests[q.request]? = some r' ∧ r'.stage.over = true := by
  intro q hq
  obtain ⟨hat, r', hr', hover'⟩ := h.past q hq
  refine ⟨hat, _, getElem?_moved hr hr', ?_⟩
  split
  · rename_i heq
    rw [heq] at hr'
    cases hr.symm.trans hr'
    exact hover hover'
  · exact hover'

theorem Inv.rows_moved (h : Inv cfg account s)
    (hr : s.requests[i]? = some r) (hclosed : r.stage ≠ .closed) :
    ∀ row ∈ s.log, ∀ j, row.request = some j →
      (∃ r', (s.move i r stage).requests[j]? = some r' ∧ r'.stage = .closed) ∧
        ∀ q ∈ s.repairs, q.request = j → q.time ≤ row.timestamp := by
  intro row hrow j hj
  obtain ⟨⟨r', hr', hstage'⟩, htime⟩ := h.rows row hrow j hj
  refine ⟨⟨_, getElem?_moved hr hr', ?_⟩, htime⟩
  rw [if_neg]
  · exact hstage'
  · rintro rfl
    cases hr.symm.trans hr'
    exact hclosed hstage'

theorem ne_closed_of_open (h : stage.over = false) : stage ≠ .closed := by
  rintro rfl
  cases h

/-! ## What a count has read -/

/-- A repair of the last window that has not been missed is one of the rows that were counted. -/
theorem Inv.mem_counted (h : Inv cfg account s)
    {q : Repair} (hread : c.Read cfg account s r) (hbucket : bucket.action = r.action.audit)
    (hq : q ∈ s.repairs) (hqb : q.bucket = bucket)
    (hlast : s.now ≤ q.time + cfg.window bucket.action) (hseen : q ∉ s.missed cfg account r c bucket) :
    ∃ row ∈ (s.log.take c.seen).filter (counts r.action.audit (r.target account)
      (c.countedAt - cfg.window r.action.audit)), row.request = some q.request := by
  have hstands : (s.log.take c.seen).any (AuditRow.standsFor account r q) = true := by
    by_contra hnone
    exact hseen (List.mem_filter.mpr ⟨hq, decide_eq_true ⟨hqb, hlast, hnone⟩⟩)
  obtain ⟨row, hrow, hfor⟩ := List.any_eq_true.mp hstands
  obtain ⟨hrequest, haction, htarget, hsuccess⟩ := of_decide_eq_true hfor
  refine ⟨row, List.mem_filter.mpr ⟨hrow, decide_eq_true ⟨haction, ?_, htarget, hsuccess⟩⟩, hrequest⟩
  have hlate := (h.rows row (List.mem_of_mem_take hrow) q.request hrequest).2 q hq rfl
  have htime := hread.2.1
  rw [hbucket] at hlast
  omega

theorem Inv.last_le (h : Inv cfg account s)
    (hread : c.Read cfg account s r) (hbucket : bucket.action = r.action.audit) :
    (s.repairs.filter (fun q =>
      q.bucket = bucket ∧ s.now ≤ q.time + cfg.window bucket.action)).length ≤
      c.counted + (s.missed cfg account r c bucket).length := by
  let last := s.repairs.filter (fun q =>
    q.bucket = bucket ∧ s.now ≤ q.time + cfg.window bucket.action)
  let stood := last.filter (fun q => (s.log.take c.seen).any (AuditRow.standsFor account r q))
  have hmissed : s.missed cfg account r c bucket =
      last.filter (fun q => !(s.log.take c.seen).any (AuditRow.standsFor account r q)) := by
    show _ = List.filter _ (List.filter _ _)
    rw [List.filter_filter]
    unfold Sys.missed
    apply List.filter_congr
    intro q _
    rw [Bool.eq_iff_iff]
    simp only [decide_eq_true_eq, Bool.and_eq_true, Bool.not_eq_true', Bool.not_eq_true]
    tauto
  have hsplit : last.length = stood.length + (s.missed cfg account r c bucket).length := by
    rw [hmissed]
    exact List.length_eq_length_filter_add _
  have hstood : stood.length ≤ c.counted := by
    have hsub : stood.map (fun q => some q.request) ⊆
        ((s.log.take c.seen).filter (counts r.action.audit (r.target account)
          (c.countedAt - cfg.window r.action.audit))).map (·.request) := by
      intro x hx
      obtain ⟨q, hq, rfl⟩ := List.mem_map.mp hx
      obtain ⟨hlast, hfor⟩ := List.mem_filter.mp hq
      obtain ⟨hmem, hin⟩ := List.mem_filter.mp hlast
      obtain ⟨hqb, hnow⟩ := of_decide_eq_true hin
      obtain ⟨row, hrow, hreq⟩ := h.mem_counted hread hbucket hmem hqb hnow (fun hmiss =>
        (of_decide_eq_true (List.mem_filter.mp hmiss).2).2.2 hfor)
      exact List.mem_map.mpr ⟨row, hrow, hreq⟩
    have hnodup : (stood.map (fun q => some q.request)).Nodup := by
      have hsublist : (stood.map (·.request)).Sublist (s.repairs.map (·.request)) :=
        (List.filter_sublist.trans List.filter_sublist).map _
      have hmap : stood.map (fun q => some q.request) = (stood.map (·.request)).map some := by
        rw [List.map_map]
        rfl
      rw [hmap]
      exact (h.once.sublist hsublist).map (Option.some_injective _)
    have hle := (hnodup.subperm hsub).length_le
    rw [List.length_map, List.length_map] at hle
    rw [hread.2.2]
    exact hle.trans (List.countP_eq_length_filter).ge
  exact hsplit.le.trans (Nat.add_le_add_right hstood _)

/-! ## The bound -/

theorem since_entries (W t : Nat) (bucket : Bucket) (repairs : List Repair) :
    since W t (entries bucket repairs) =
      ((repairs.filter (fun q => q.bucket = bucket ∧ t ≤ q.time + W)).length : Int) := by
  unfold since entries
  rw [List.filter_map, List.map_map, List.filter_filter]
  have hone : (Prod.snd ∘ fun q : Repair => (q.time, (1 : Int))) = fun _ => 1 := rfl
  rw [hone, List.map_const', List.sum_replicate, nsmul_eq_mul, mul_one]
  congr 2
  apply List.filter_congr
  intro q _
  simp only [Function.comp_apply, Bool.decide_and, Bool.and_comm]

theorem within_entries (W T : Nat) (bucket : Bucket) (repairs : List Repair) :
    within W T (entries bucket repairs) = (inWindow W bucket repairs T : Int) := by
  unfold within entries inWindow
  rw [List.filter_map, List.map_map, List.filter_filter, List.countP_eq_length_filter]
  have hone : (Prod.snd ∘ fun q : Repair => (q.time, (1 : Int))) = fun _ => 1 := rfl
  rw [hone, List.map_const', List.sum_replicate, nsmul_eq_mul, mul_one]
  congr 2
  apply List.filter_congr
  intro q _
  simp only [Function.comp_apply, Bool.decide_and, Bool.and_comm]

theorem bounded_snoc {W : Nat} {L : Int} {repairs : List Repair} {q : Repair}
    (h : Bounded W L (entries bucket repairs))
    (hfits : q.bucket = bucket → since W q.time (entries bucket repairs) + 1 ≤ L) :
    Bounded W L (entries bucket (repairs ++ [q])) := by
  unfold entries at h hfits ⊢
  rw [List.filter_append, List.map_append]
  by_cases hq : q.bucket = bucket
  · rw [List.filter_cons_of_pos (by simpa using hq)]
    exact (h.cons (by decide) (hfits hq)).perm List.perm_append_comm
  · rw [List.filter_cons_of_neg (by simpa using hq)]
    simpa using h

theorem Inv.wrote (h : Inv cfg account s) (heard : Bool) (hr : s.requests[i]? = some r)
    (hstage : r.stage = .resolved c ctrl) (houtcome : s.outcome r ctrl = some bucket)
    (hroom : c.counted + (s.missed cfg account r c bucket).length < cfg.cap bucket.action) :
    Inv cfg account
      { s.move i r (.written heard) with repairs := s.repairs ++ [⟨i, bucket, s.now⟩] } := by
  have hopen : r.stage.over = false := by
    rw [hstage]
    rfl
  obtain ⟨hnoRepair, hnoRow⟩ := h.none_of_open hr hopen
  have hread := h.read r (List.mem_of_getElem? hr) c (by rw [hstage]; rfl)
  refine ⟨h.read_moved hr (fun _ => nofun), fun q hq => ?_, fun row hrow j hj => ?_, ?_,
    fun b => bounded_snoc (h.bounded b) ?_⟩
  · rcases List.mem_append.mp hq with hq | hq
    · exact h.past_moved hr (fun _ => rfl) q hq
    · rw [List.mem_singleton.mp hq]
      refine ⟨le_rfl, _, getElem?_moved hr hr, ?_⟩
      rw [if_pos rfl]
      rfl
  · obtain ⟨hclosed, htime⟩ := h.rows_moved hr (ne_closed_of_open hopen) row hrow j hj
    refine ⟨hclosed, fun q hq hqj => ?_⟩
    rcases List.mem_append.mp hq with hq | hq
    · exact htime q hq hqj
    · rw [List.mem_singleton.mp hq] at hqj
      exact absurd (hj.trans (congrArg some hqj.symm)) (hnoRow row hrow)
  · rw [List.map_append, List.map_singleton, List.nodup_append]
    refine ⟨h.once, List.nodup_singleton _, fun j hj k hk => ?_⟩
    obtain ⟨q, hq, rfl⟩ := List.mem_map.mp hj
    rw [List.mem_singleton.mp hk]
    exact hnoRepair q hq
  · rintro rfl
    have hlast := h.last_le hread (outcome_action houtcome)
    rw [since_entries]
    exact_mod_cast (Nat.add_le_add_right hlast 1).trans hroom

theorem Inv.audited (h : Inv cfg account s) {ok : Bool}
    (hr : s.requests[i]? = some r) (hstage : r.stage = .written ok) :
    Inv cfg account (s.audit account i r ok) := by
  have hnotClosed : r.stage ≠ .closed := by
    rw [hstage]
    exact nofun
  refine ⟨fun q hq c hc => ?_, h.past_moved hr (fun _ => rfl), fun row hrow j hj => ?_, h.once,
    h.bounded⟩
  · have hclosed : ∀ q ∈ (s.move i r .closed).requests, ∀ c, q.stage.counted? = some c →
        c.Read cfg account s q := h.read_moved hr (fun _ => nofun)
    exact (hclosed q hq c hc).later rfl le_rfl rfl rfl
  · rcases List.mem_append.mp hrow with hrow | hrow
    · exact h.rows_moved hr hnotClosed row hrow j hj
    · rw [List.mem_singleton.mp hrow] at hj ⊢
      cases hj
      refine ⟨⟨_, getElem?_moved hr hr, ?_⟩, fun q hq _ => (h.past q hq).1⟩
      rw [if_pos rfl]

theorem Inv.step {a : Act} (h : Inv cfg account s) (hroomy : s.Roomy cfg account a)
    (hstep : step cfg account s a = some s') : Inv cfg account s' := by
  cases step_effect hstep with
  | idle _ _ hlog hrequests hrepairs hnow =>
    refine ⟨fun r hr c hc => ?_, fun q hq => ?_, fun row hrow i hi => ?_, ?_, fun b => ?_⟩
    · rw [hrequests] at hr
      exact (h.read r hr c hc).later (hlog.trans (List.append_nil _).symm) hnow rfl rfl
    · rw [hrepairs] at hq
      rw [hrequests]
      exact ⟨(h.past q hq).1.trans hnow, (h.past q hq).2⟩
    · rw [hlog] at hrow
      rw [hrequests, hrepairs]
      exact h.rows row hrow i hi
    · rw [hrepairs]
      exact h.once
    · rw [hrepairs]
      exact h.bounded b
  | opened _ action invId =>
    have hkeep : ∀ {j : Nat} {q : Request}, s.requests[j]? = some q →
        (s.requests ++ [⟨action, invId, .keyed⟩])[j]? = some q := fun {j q} hq =>
      (List.getElem?_append_left (List.getElem?_eq_some_iff.mp hq).1).trans hq
    refine ⟨fun r hr c hc => ?_, fun q hq => ?_, fun row hrow j hj => ?_, h.once, h.bounded⟩
    · rcases List.mem_append.mp hr with hr | hr
      · exact (h.read r hr c hc).later (List.append_nil _).symm le_rfl rfl rfl
      · rw [List.mem_singleton.mp hr] at hc
        cases hc
    · obtain ⟨hat, r, hr, hover⟩ := h.past q hq
      exact ⟨hat, r, hkeep hr, hover⟩
    · obtain ⟨⟨r, hr, hclosed⟩, htime⟩ := h.rows row hrow j hj
      exact ⟨⟨r, hkeep hr, hclosed⟩, htime⟩
  | moved _ i r stage hr hopen hread =>
    refine ⟨fun q hq c hc => ?_, h.past_moved hr (fun hover => ?_),
      h.rows_moved hr (ne_closed_of_open hopen), h.once, h.bounded⟩
    · exact (h.read_moved hr hread q hq c hc).later (List.append_nil _).symm le_rfl rfl rfl
    · exact Bool.noConfusion (hover.symm.trans hopen)
  | wrote i r c ctrl bucket heard hr hstage houtcome =>
    have hmine := hroomy r hr
    rw [hstage] at hmine
    exact h.wrote heard hr hstage houtcome (hmine bucket houtcome)
  | audited _ i r ok hr hstage => exact h.audited hr hstage

/-- In every run in which each repair that is committed has room beside what its count has read and
what it has missed. -/
theorem allowance_holds (hstart : s.Start) {acts : List Act}
    (hroomy : Along (step cfg account) (Sys.Roomy cfg account) s acts)
    (hrun : exec (step cfg account) s acts = some s') (bucket : Bucket) (T : Nat) :
    inWindow (cfg.window bucket.action) bucket s'.repairs T ≤ cfg.cap bucket.action := by
  have hinv := Runs.exec_invariant (I := Inv cfg account)
    (fun _ _ _ h hroomy hstep => h.step hroomy hstep) hstart.inv hroomy hrun
  have hwindow := (hinv.bounded bucket).windows T
  rw [within_entries] at hwindow
  exact_mod_cast hwindow

end

def defaults : Config := ⟨true, true, true, 7200, 3, 86400, 1, 7200, 3⟩

def garage : Sys where
  now := 100000
  game :=
    { players := [⟨7, 5, some .offline, none⟩]
      inventories := [⟨50, 5, 0⟩, ⟨61, 6, 1⟩, ⟨62, 6, 2⟩]
      vehicles := [6]
      ranks := [⟨6, 7⟩]
      placeables := []
      entities := [] }
  log := []
  requests := []
  repairs := []

def repair (i : Nat) : List Act := [.count i, .resolve i (some 7), .write i true true]

def oneByOne (invIds : List Nat) : List Act :=
  invIds.zipIdx.flatMap (fun (inv, i) => .arrive .vehicle inv [] :: repair i ++ [.audit i])

def together : List Act :=
  [.arrive .everything 0 [], .arrive .everything 0 []] ++ repair 0 ++ repair 1 ++ [.audit 0, .audit 1]

theorem garage_start : garage.Start := ⟨rfl, rfl, fun _ h => absurd h List.not_mem_nil⟩

def threeAndOne : List Act := oneByOne [61, 61, 61] ++ [.arrive .vehicle 61 [], .count 3]

theorem threeAndOne_goes : (exec (step defaults 1) garage threeAndOne).isSome = true := by
  decide

theorem allowance_holds_threeAndOne :
    ∃ s', exec (step defaults 1) garage threeAndOne = some s' ∧
      inWindow 7200 ⟨.portalRepairVehicle, some 6⟩ s'.repairs 100000 = 3 ∧
      inWindow 7200 ⟨.portalRepairVehicle, some 6⟩ s'.repairs 100000 ≤ 3 := by
  have hroomy : Along (step defaults 1) (Sys.Roomy defaults 1) garage threeAndOne := by
    decide
  have hrun := (Option.some_get threeAndOne_goes).symm
  refine ⟨_, hrun, by decide, ?_⟩
  exact allowance_holds garage_start hroomy hrun ⟨.portalRepairVehicle, some 6⟩ 100000

/-- Two everything-refurbishes where the cap is one, and six of one vehicle where it is three. -/
theorem allowance_breaches :
    garage.Start ∧
      (exec (step defaults 1) garage together).map (fun s =>
        inWindow 86400 ⟨.portalRepairEverything, none⟩ s.repairs 100000) = some 2 ∧
      defaults.allCap = 1 ∧
      (exec (step defaults 1) garage (oneByOne [61, 61, 61, 62, 62, 62])).map (fun s =>
        inWindow 7200 ⟨.portalRepairVehicle, some 6⟩ s.repairs 100000) = some 6 ∧
      defaults.vehicleCap = 3 :=
  ⟨garage_start, by decide, rfl, by decide, rfl⟩

end LastSietch.Repairs
