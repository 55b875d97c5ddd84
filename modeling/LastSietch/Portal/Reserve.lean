import LastSietch.Portal.Profiles

/-!
# Reserve, then settle

The idiom that `portal_refinery_events`, `portal_gift_limits` and `portal_transfer_events` share:
a table of attempts with one row for each idempotency key, caps that add up the rows of a rolling
window, `checkAndReserve` and `settle`. A `Lane` is what one of the three tables brings of its
own: the statuses that count and the caps an attempt faces.

* `checkAndReserve_cases`: a key that has a row which was not refused goes through as it is; any
  other attempt is refused by a cap or reserved.
* `used_add_le`: a reserved attempt fits under each of its caps.
-/

namespace LastSietch.Portal

inductive EventStatus
  | pending | applied | replay | deferred | refused | failed
  deriving DecidableEq, Repr

/-- A row of one of the three tables: `facts` are the columns that say what was attempted. -/
structure Event (φ : Type) where
  idempotencyKey : Nat
  createdAt : Nat
  facts : φ
  status : EventStatus
  deriving DecidableEq, Repr

abbrev Events (φ : Type) := Table (Event φ) (·.idempotencyKey)

/-- `PENDING_TTL_SECONDS`, the same in the three modules. -/
def pendingTtlSeconds : Nat := 180

/-- One cap. An attempt draws on the allowance `group` and takes `weight` of it; `scope` is the
`WHERE` clause of the sum that an attempt faces. -/
structure Cap (φ : Type) where
  reason : String
  window : Nat
  limit : Nat
  weight : φ → Nat
  group : φ → List String
  scope : Directory → φ → φ → Bool

structure Lane (φ : Type) where
  settled : EventStatus → Bool
  caps : φ → List (Cap φ)

variable {φ : Type}

def Event.live (settled : EventStatus → Bool) (now : Nat) (e : Event φ) : Bool :=
  settled e.status || (e.status == .pending && now ≤ e.createdAt + pendingTtlSeconds)

def Lane.counts (lane : Lane φ) (cap : Cap φ) (d : Directory) (facts : φ) (now : Nat)
    (e : Event φ) : Bool :=
  cap.scope d facts e.facts && now ≤ e.createdAt + cap.window && e.live lane.settled now

def Lane.counted (lane : Lane φ) (cap : Cap φ) (d : Directory) (facts : φ) (now : Nat)
    (t : Events φ) : List (Event φ) :=
  t.rows.filter (lane.counts cap d facts now)

def Lane.used (lane : Lane φ) (cap : Cap φ) (d : Directory) (facts : φ) (now : Nat)
    (t : Events φ) : Nat :=
  ((lane.counted cap d facts now t).map (fun e => cap.weight e.facts)).sum

def EventStatus.passes : EventStatus → Bool
  | .applied | .replay | .pending => true
  | .deferred | .refused | .failed => false

/-- `_refuse`: a row that is there keeps what was attempted and when. -/
def Events.refuse (t : Events φ) (key : Nat) (facts : φ) (now : Nat) : Events φ :=
  match t.get? key with
  | some e => t.put { e with status := .refused }
  | none => t.put ⟨key, now, facts, .refused⟩

def Events.passes (t : Events φ) (key : Nat) : Bool := (t.get? key).any (fun e => e.status.passes)

def Lane.breached (lane : Lane φ) (d : Directory) (t : Events φ) (facts : φ) (now : Nat) :
    Option (Cap φ) :=
  (lane.caps facts).find? (fun cap => cap.limit < lane.used cap d facts now t + cap.weight facts)

/-- `check_and_reserve`: the cap that refuses the attempt, if one does. -/
def Lane.checkAndReserve (lane : Lane φ) (d : Directory) (t : Events φ) (key : Nat) (facts : φ)
    (now : Nat) : Option (Cap φ) × Events φ :=
  if t.passes key then (none, t)
  else
    match lane.breached d t facts now with
    | some cap => (some cap, t.refuse key facts now)
    | none => (none, t.put ⟨key, now, facts, .pending⟩)

/-- `settle`: only a pending row is closed. -/
def Events.settle (t : Events φ) (key : Nat) (status : EventStatus) : Events φ :=
  t.update (fun e => e.idempotencyKey = key ∧ e.status = .pending)
    (fun e => { e with status })

theorem Lane.checkAndReserve_cases (lane : Lane φ) (d : Directory) (t : Events φ) (key : Nat)
    (facts : φ) (now : Nat) :
    t.passes key = true ∧ lane.checkAndReserve d t key facts now = (none, t) ∨
      t.passes key = false ∧
        ((∃ cap, lane.breached d t facts now = some cap ∧
          lane.checkAndReserve d t key facts now = (some cap, t.refuse key facts now)) ∨
        lane.breached d t facts now = none ∧
          lane.checkAndReserve d t key facts now = (none, t.put ⟨key, now, facts, .pending⟩)) := by
  unfold Lane.checkAndReserve
  cases hpasses : t.passes key with
  | true => exact Or.inl ⟨rfl, rfl⟩
  | false =>
    refine Or.inr ⟨rfl, ?_⟩
    cases hbreached : lane.breached d t facts now with
    | some cap => exact Or.inl ⟨cap, rfl, rfl⟩
    | none => exact Or.inr ⟨rfl, rfl⟩

theorem Lane.used_add_le {lane : Lane φ} {d : Directory} {t : Events φ} {facts : φ} {now : Nat}
    (h : lane.breached d t facts now = none) {cap : Cap φ} (hcap : cap ∈ lane.caps facts) :
    lane.used cap d facts now t + cap.weight facts ≤ cap.limit := by
  have := List.find?_eq_none.mp h cap hcap
  simpa using this

end LastSietch.Portal
