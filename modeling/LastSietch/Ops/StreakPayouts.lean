import LastSietch.Lib.Runs
import LastSietch.Lib.Table

/-!
# Streak bounties

The ticks of `amtal-streak-payouts.py`, one step for each thing that happens in them: the process
reads its file, fetches the board, goes through its entries, asks the guild check and calls
`deliver-item.py` for one after the other, and writes the file at its end. What the board, the check
and the deliveries answer is an input of the step; a tick may be cut off between any two steps, and a
check that raises cuts it off. `history` is what has happened outside the process, and `firstLive` the
time of the first live tick.

* `Inv.step`: the file, or the memory of the tick that runs, knows everything that forbids a grant.

Times are microseconds.
-/

namespace LastSietch.Amtal

open Runs (exec Along)

def second : Nat := 1000000

/-! ## The file -/

structure Key where
  victim : Nat
  occurredEpoch : Nat
  deriving DecidableEq

def Key.endedAt (k : Key) : Nat := k.occurredEpoch * second

inductive Status
  | pending | paid | expired | voidRelated | needsReview
  deriving DecidableEq

structure Payout where
  key : Key
  collector : Nat
  streak : Nat
  bounty : Nat
  endedAt : String
  seen : Nat
  attempts : Nat
  status : Status
  related : Option Bool
  lastRc : Option Int
  lastOut : Option String
  paidAt : Option Nat
  deriving DecidableEq

/-- `state.json`; the entry that was booked last stands first. -/
structure State where
  start : Option Nat
  payouts : Table Payout (·.key)

def State.empty : State := ⟨none, Table.empty⟩

/-- An entry of `collected`. -/
structure Collected where
  victimAccountId : Nat
  collectorAccountId : Option Nat
  bounty : Option Nat
  streak : Nat
  occurredEpoch : Nat
  occurredAt : String

def Collected.key (c : Collected) : Key := ⟨c.victimAccountId, c.occurredEpoch⟩

def Collected.counts (c : Collected) : Option (Nat × Nat) :=
  match c.collectorAccountId, c.bounty with
  | some collector, some bounty => if collector ≠ 0 ∧ bounty ≠ 0 then some (collector, bounty) else none
  | _, _ => none

def State.book (now start : Nat) (st : State) (c : Collected) : State :=
  match c.counts with
  | none => st
  | some (collector, bounty) =>
    if c.key.endedAt < start then st
    else
      match st.payouts.insert? {
        key := c.key
        collector, bounty
        streak := c.streak
        endedAt := c.occurredAt
        seen := now
        attempts := 0
        status := .pending
        related := none
        lastRc := none
        lastOut := none
        paidAt := none } with
      | none => st
      | some payouts => { st with payouts }

def State.change (st : State) (k : Key) (f : Payout → Payout) (hf : ∀ p, (f p).key = p.key) : State :=
  { st with payouts := st.payouts.update (·.key = k) f hf }

/-- The `deliver-item.py` exit codes. -/
def rcOk : Int := 0
def rcOffline : Int := 3
def rcPublishFailed : Int := 4
def rcUnconfirmed : Int := 5

def Grants (rc : Int) (granted : Bool) : Prop :=
  (rc = rcOk → granted = true) ∧ (rc = rcOffline ∨ rc = rcPublishFailed → granted = false)

instance (rc : Int) (granted : Bool) : Decidable (Grants rc granted) := by
  unfold Grants
  infer_instance

inductive Event
  | voided (k : Key)
  /-- `deliver-item.py` has been called with `--send`. -/
  | sent (k : Key) (rc : Int) (granted : Bool)
  deriving DecidableEq

def Event.grants (k : Key) : Event → Bool
  | .sent k' _ granted => k' == k && granted
  | .voided _ => false

/-- What forbids a later grant of the entry: a grant, a delivery that was neither confirmed nor
refused, and a void. -/
def Event.bars (k : Key) : Event → Bool
  | .voided k' => k' == k
  | .sent k' rc granted => k' == k && (granted || !(rc == rcOffline || rc == rcPublishFailed))

def Payout.booked (now : Nat) (rc : Int) (out : String) (p : Payout) : Payout :=
  { p with
    attempts := p.attempts + 1
    lastRc := some rc
    lastOut := some (String.ofList (out.toList.take 300))
    status :=
      if rc = rcOk then .paid
      else if rc = rcOffline ∨ rc = rcPublishFailed then p.status
      else .needsReview
    paidAt := if rc = rcOk then some now else p.paidAt }

/-! ## Ticks -/

inductive Phase
  | fetch
  | loop (todo : List Key)
  | check (k : Key) (todo : List Key)
  | deliver (k : Key) (todo : List Key)

/-- A tick under way; `seenBefore` is the length of the history when it began. -/
structure Tick where
  live : Bool
  now : Nat
  st : State
  phase : Phase
  seenBefore : Nat

structure Sys where
  now : Nat
  file : Option State
  tick : Option Tick
  history : List Event
  firstLive : Option Nat

inductive Act
  | wait (time : Nat)
  | begin_ (kill live : Bool)
  | board (collected : List Collected)
  | look
  | check (answer : Option Bool)
  | deliver (rc : Int) (out : String) (granted : Bool)
  | save
  | abort

def Sys.go (s : Sys) (t : Tick) (st : State) (phase : Phase) : Sys :=
  { s with tick := some { t with st, phase } }

/-- `main` up to the fetch. -/
def Sys.begin_ (s : Sys) (kill live : Bool) : Sys :=
  if kill = true then s
  else
    let st := s.file.getD State.empty
    { s with
      tick := some
        { live, now := s.now
          st := if live = true then { st with start := st.start.or (some s.now) } else st
          phase := .fetch
          seenBefore := s.history.length }
      firstLive := if live = true then s.firstLive.or (some s.now) else s.firstLive }

/-- `start = st.get("start", now)`. -/
def Tick.start (t : Tick) : Nat := t.st.start.getD t.now

def PENDING_DAYS : Nat := 14

def Sys.look (s : Sys) (t : Tick) (k : Key) (todo : List Key) : Sys :=
  match t.st.payouts.get? k with
  | none => s.go t t.st (.loop todo)
  | some p =>
    if p.status ≠ .pending then s.go t t.st (.loop todo)
    else if p.seen + PENDING_DAYS * 86400 * second < t.now then
      s.go t (t.st.change k ({ · with status := .expired }) (fun _ => rfl)) (.loop todo)
    else if p.related = none then s.go t t.st (.check k todo)
    else s.go t t.st (.deliver k todo)

def Sys.check (s : Sys) (t : Tick) (k : Key) (todo : List Key) : Option Bool → Sys
  | none => { s with tick := none }
  | some true =>
    { s.go t (t.st.change k ({ · with related := some true, status := .voidRelated }) (fun _ => rfl))
        (.loop todo) with
      history := s.history ++ [.voided k] }
  | some false =>
    s.go t (t.st.change k ({ · with related := some false }) (fun _ => rfl)) (.deliver k todo)

def Sys.deliver (s : Sys) (t : Tick) (k : Key) (todo : List Key) (rc : Int) (out : String)
    (granted : Bool) : Option Sys :=
  if t.live = true then
    if Grants rc granted then
      some { s.go t (t.st.change k (Payout.booked t.now rc out) (fun _ => rfl)) (.loop todo) with
        history := s.history ++ [.sent k rc granted] }
    else none
  else some (s.go t t.st (.loop todo))

def step (s : Sys) : Act → Option Sys
  | .wait time => some { s with now := s.now + time }
  | .begin_ kill live =>
    match s.tick with
    | none => some (s.begin_ kill live)
    | some _ => none
  | .board collected => do
    let t ← s.tick
    match t.phase with
    | .fetch =>
      let st := collected.foldl (State.book t.now t.start) t.st
      some (s.go t st (.loop (st.payouts.rows.reverse.map (·.key))))
    | _ => none
  | .look => do
    let t ← s.tick
    match t.phase with
    | .loop (k :: todo) => some (s.look t k todo)
    | _ => none
  | .check answer => do
    let t ← s.tick
    match t.phase with
    | .check k todo => some (s.check t k todo answer)
    | _ => none
  | .deliver rc out granted => do
    let t ← s.tick
    match t.phase with
    | .deliver k todo => s.deliver t k todo rc out granted
    | _ => none
  | .save => do
    let t ← s.tick
    match t.phase with
    | .loop [] => some { s with file := some t.st, tick := none }
    | _ => none
  | .abort => do
    let _ ← s.tick
    some { s with tick := none }

def Event.Apart (e e' : Event) : Prop := ∀ k, e.bars k = true → e'.bars k = false

def Allowed (history : List Event) : Prop := history.Pairwise Event.Apart

def granted (history : List Event) (k : Key) : Nat := history.countP (·.grants k)

/-- Each entry is granted at most once, not when it is voided, not after an unconfirmed delivery, and
not when the streak ended before the first live tick. -/
structure PaidOnce (s : Sys) : Prop where
  once : ∀ k, granted s.history k ≤ 1
  notVoided : ∀ k, .voided k ∈ s.history → granted s.history k = 0
  notAgain : s.history.Pairwise (fun e e' => ∀ k, e.bars k = true → e'.grants k = false)
  started : ∀ k, granted s.history k ≠ 0 → ∃ t, s.firstLive = some t ∧ t ≤ k.endedAt

def Event.refused : Event → Bool
  | .sent _ rc granted => !granted && (rc == rcOffline || rc == rcPublishFailed)
  | .voided _ => false

def Sys.Harmless (s : Sys) (t : Tick) : Prop :=
  ∀ e ∈ s.history.drop t.seenBefore, e.refused = true

instance (s : Sys) (t : Tick) : Decidable (s.Harmless t) := by
  unfold Sys.Harmless
  infer_instance

def Sys.Careful (s : Sys) : Act → Prop
  | .abort | .check none => ∀ t ∈ s.tick, s.Harmless t
  | .board collected => s.firstLive = none → ∀ t ∈ s.tick, ∀ c ∈ collected,
      c.counts ≠ none → c.key.endedAt < t.start
  | _ => True

instance (s : Sys) (a : Act) : Decidable (s.Careful a) := by
  unfold Sys.Careful
  split <;> infer_instance

def Sys.Start (s : Sys) : Prop :=
  s.file = none ∧ s.tick = none ∧ s.history = [] ∧ s.firstLive = none

/-! ## Events -/

section

variable {s s' : Sys} {st : State} {history : List Event} {firstLive : Option Nat}

variable {e : Event} {k : Key}

theorem Event.bars_of_grants (h : e.grants k = true) : e.bars k = true := by
  cases e with
  | voided k' => cases h
  | sent k' rc granted =>
    simp only [Event.grants, Bool.and_eq_true] at h
    simp [Event.bars, h]

theorem Event.bars_of_refused (h : e.refused = true) : e.bars k = false := by
  cases e with
  | voided k' => cases h
  | sent k' rc granted =>
    simp only [Event.refused, Bool.and_eq_true, Bool.not_eq_true'] at h
    simp [Event.bars, h]

instance : Std.Symm Event.Apart where
  symm e e' h k he' := by
    by_contra he
    rw [Bool.not_eq_false] at he
    exact Bool.noConfusion (he'.symm.trans (h k he))

theorem allowed_snoc (h : Allowed history)
    (hnew : ∀ k, e.bars k = true → ∀ e' ∈ history, e'.bars k = false) :
    Allowed (history ++ [e]) := by
  unfold Allowed
  rw [List.pairwise_append]
  refine ⟨h, List.pairwise_singleton .., fun e' he' e'' he'' k hbars => ?_⟩
  rw [List.mem_singleton.mp he'']
  by_contra hne
  rw [Bool.not_eq_false] at hne
  exact Bool.noConfusion (hbars.symm.trans (hnew k hne e' he'))

theorem Allowed.count_bars_le (h : Allowed history) (k : Key) :
    history.countP (·.bars k) ≤ 1 := by
  unfold Allowed at h
  induction history with
  | nil => exact Nat.zero_le 1
  | cons e history ih =>
    rw [List.pairwise_cons] at h
    by_cases he : e.bars k = true
    · have hnone : history.countP (·.bars k) = 0 := by
        rw [List.countP_eq_zero]
        intro e' he'
        simp [h.1 e' he' k he]
      rw [List.countP_cons_of_pos he, hnone]
    · rw [List.countP_cons_of_neg he]
      exact ih h.2

theorem granted_le_bars (history : List Event) (k : Key) :
    granted history k ≤ history.countP (·.bars k) :=
  List.countP_mono_left (fun _ _ h => Event.bars_of_grants h)

theorem Allowed.voided (h : Allowed history) (hk : .voided k ∈ history) :
    granted history k = 0 := by
  unfold granted
  rw [List.countP_eq_zero]
  intro e he hgrants
  have hne : Event.voided k ≠ e := by
    rintro rfl
    cases hgrants
  have hvoid : (Event.voided k).bars k = true := by simp [Event.bars]
  have hfree := List.Pairwise.forall h hk he hne k hvoid
  exact Bool.noConfusion ((Event.bars_of_grants hgrants).symm.trans hfree)

/-! ## What a state knows -/

structure Knows (st : State) (history : List Event) (firstLive : Option Nat) : Prop where
  settled : ∀ e ∈ history, ∀ k, e.bars k = true → ∃ p ∈ st.payouts, p.key = k ∧ p.status ≠ .pending
  late : ∀ p ∈ st.payouts, ∃ t, firstLive = some t ∧ t ≤ p.key.endedAt
  mark : ∀ u, st.start = some u → ∃ t, firstLive = some t ∧ t ≤ u

variable {p : Payout}

theorem Knows.free (h : Knows st history firstLive) (hp : p ∈ st.payouts)
    (hpending : p.status = .pending) : ∀ e ∈ history, e.bars p.key = false := by
  intro e he
  by_contra hbars
  rw [Bool.not_eq_false] at hbars
  obtain ⟨q, hq, hkey, hstatus⟩ := h.settled e he p.key hbars
  cases Table.eq_of_key_eq hq hp hkey
  exact hstatus hpending

theorem Knows.snoc (h : Knows st history firstLive) {e : Event}
    (he : ∀ k, e.bars k = true → ∃ p ∈ st.payouts, p.key = k ∧ p.status ≠ .pending) :
    Knows st (history ++ [e]) firstLive where
  settled e' he' := by
    rcases List.mem_append.mp he' with he' | he'
    · exact h.settled e' he'
    · rw [List.mem_singleton.mp he']
      exact he
  late := h.late
  mark := h.mark

variable {f : Payout → Payout}

theorem mem_change {hf : ∀ p, (f p).key = p.key} :
    p ∈ (st.change k f hf).payouts ↔ ∃ q ∈ st.payouts, p = if q.key = k then f q else q := by
  have hmem := @Table.mem_update _ _ _ st.payouts (fun q => q.key = k) f hf p
  simpa [State.change] using hmem

theorem Knows.change (h : Knows st history firstLive) (k : Key)
    (hf : ∀ p, (f p).key = p.key) (hkeep : ∀ p, p.status ≠ .pending → (f p).status ≠ .pending) :
    Knows (st.change k f hf) history firstLive where
  settled e he k' hbars := by
    obtain ⟨p, hp, hkey, hstatus⟩ := h.settled e he k' hbars
    refine ⟨_, mem_change.mpr ⟨p, hp, rfl⟩, ?_, ?_⟩
    · split
      · exact (hf p).trans hkey
      · exact hkey
    · split
      · exact hkeep p hstatus
      · exact hstatus
  late p hp := by
    obtain ⟨q, hq, rfl⟩ := mem_change.mp hp
    have hkey : (if q.key = k then f q else q).key = q.key := by
      split
      · exact hf q
      · rfl
    rw [hkey]
    exact h.late q hq
  mark := h.mark

theorem mem_changed {hf : ∀ p, (f p).key = p.key}
    (hp : p ∈ st.payouts) : f p ∈ (st.change p.key f hf).payouts :=
  mem_change.mpr ⟨p, hp, (if_pos rfl).symm⟩

theorem Knows.later {history' : List Event} (h : Knows st history firstLive)
    (hrefused : ∀ e ∈ history', e.refused = true) : Knows st (history ++ history') firstLive where
  settled e he k hbars := by
    rcases List.mem_append.mp he with he | he
    · exact h.settled e he k hbars
    · exact Bool.noConfusion (hbars.symm.trans (Event.bars_of_refused (hrefused e he)))
  late := h.late
  mark := h.mark

theorem Knows.live (h : Knows st history firstLive) (now : Nat) :
    Knows st history (firstLive.or (some now)) where
  settled := h.settled
  late p hp := by
    obtain ⟨t, ht, hle⟩ := h.late p hp
    exact ⟨t, by rw [ht]; rfl, hle⟩
  mark u hu := by
    obtain ⟨t, ht, hle⟩ := h.mark u hu
    exact ⟨t, by rw [ht]; rfl, hle⟩

theorem Knows.book {now start : Nat} (h : Knows st history firstLive) {c : Collected}
    (hlate : c.counts ≠ none → start ≤ c.key.endedAt →
      ∃ t, firstLive = some t ∧ t ≤ c.key.endedAt) :
    Knows (st.book now start c) history firstLive := by
  unfold State.book
  split
  · exact h
  · rename_i collector bounty hcounts
    split
    · exact h
    · rename_i hstart
      split
      · exact h
      · rename_i payouts hinsert
        refine ⟨fun e he k hbars => ?_, fun p hp => ?_, h.mark⟩
        · obtain ⟨p, hp, hkey, hstatus⟩ := h.settled e he k hbars
          exact ⟨p, (Table.mem_insert? hinsert).mpr (Or.inr hp), hkey, hstatus⟩
        · rcases (Table.mem_insert? hinsert).mp hp with rfl | hp
          · exact hlate (by rw [hcounts]; exact Option.some_ne_none _) (not_lt.mp hstart)
          · exact h.late p hp

theorem Knows.board {now start : Nat} (h : Knows st history firstLive) {collected : List Collected}
    (hlate : ∀ c ∈ collected, c.counts ≠ none → start ≤ c.key.endedAt →
      ∃ t, firstLive = some t ∧ t ≤ c.key.endedAt) :
    Knows (collected.foldl (State.book now start) st) history firstLive := by
  induction collected generalizing st with
  | nil => exact h
  | cons c collected ih =>
    rw [List.forall_mem_cons] at hlate
    exact ih (h.book hlate.1) hlate.2

/-! ## The invariant -/

structure Running (s : Sys) (t : Tick) : Prop where
  memory : Knows t.st s.history s.firstLive
  before : t.seenBefore ≤ s.history.length
  stored : Knows (s.file.getD State.empty) (s.history.take t.seenBefore) s.firstLive
  now : ∀ u, s.firstLive = some u → u ≤ t.now
  pending : ∀ k todo, t.phase = .check k todo ∨ t.phase = .deliver k todo →
    ∃ p ∈ t.st.payouts, p.key = k ∧ p.status = .pending

structure Inv (s : Sys) : Prop where
  allowed : Allowed s.history
  started : ∀ e ∈ s.history, ∀ k, e.grants k = true → ∃ t, s.firstLive = some t ∧ t ≤ k.endedAt
  clock : ∀ u, s.firstLive = some u → u ≤ s.now
  idle : s.tick = none → Knows (s.file.getD State.empty) s.history s.firstLive
  running : ∀ t, s.tick = some t → Running s t

theorem Sys.Start.inv (h : s.Start) : Inv s where
  allowed := by simp [Allowed, h.2.2.1]
  started := by simp [h.2.2.1]
  clock := by simp [h.2.2.2]
  idle _ := by
    rw [h.1, h.2.2.1]
    exact ⟨by simp, fun p hp => absurd hp (Table.not_mem_empty p), fun _ => nofun⟩
  running t ht := by
    rw [h.2.1] at ht
    cases ht

variable {t : Tick}

theorem Inv.go (h : Inv s) {st : State} {phase : Phase} (ht : s.tick = some t)
    (hst : Knows st s.history s.firstLive) (hpending : ∀ k todo,
      phase = .check k todo ∨ phase = .deliver k todo →
        ∃ p ∈ st.payouts, p.key = k ∧ p.status = .pending) :
    Inv (s.go t st phase) := by
  have hrun := h.running t ht
  refine ⟨h.allowed, h.started, h.clock, nofun, fun t' ht' => ?_⟩
  cases ht'
  exact ⟨hst, hrun.before, hrun.stored, hrun.now, hpending⟩

variable {todo : List Key}

theorem Inv.happened (h : Inv s) {hf : ∀ p, (f p).key = p.key} (ht : s.tick = some t)
    (hp : p ∈ t.st.payouts) (hpending : p.status = .pending)
    (hkeep : ∀ p, p.status ≠ .pending → (f p).status ≠ .pending)
    (he : ∀ k, e.bars k = true → k = p.key ∧ (f p).status ≠ .pending) :
    Inv { s.go t (t.st.change p.key f hf) (.loop todo) with history := s.history ++ [e] } := by
  have hrun := h.running t ht
  refine ⟨?_, fun e' he' k hgrants => ?_, h.clock, nofun, fun t' ht' => ?_⟩
  · refine allowed_snoc h.allowed (fun k hbars => ?_)
    rw [(he k hbars).1]
    exact hrun.memory.free hp hpending
  · rcases List.mem_append.mp he' with he' | he'
    · exact h.started e' he' k hgrants
    · rw [List.mem_singleton.mp he'] at hgrants
      rw [(he k (Event.bars_of_grants hgrants)).1]
      exact hrun.memory.late p hp
  · cases ht'
    refine ⟨?_, ?_, ?_, hrun.now, fun k todo hphase => ?_⟩
    · refine (hrun.memory.change p.key hf hkeep).snoc (fun k hbars => ?_)
      obtain ⟨rfl, hdone⟩ := he k hbars
      exact ⟨f p, mem_changed hp, hf p, hdone⟩
    · exact hrun.before.trans (by rw [List.length_append]; exact Nat.le_add_right ..)
    · show Knows _ ((s.history ++ [e]).take t.seenBefore) _
      rw [List.take_append_of_le_length hrun.before]
      exact hrun.stored
    · rcases hphase with hphase | hphase <;> cases hphase

theorem Inv.cut (h : Inv s) (ht : s.tick = some t) (hharmless : s.Harmless t) :
    Inv { s with tick := none } := by
  have hrun := h.running t ht
  refine ⟨h.allowed, h.started, h.clock, fun _ => ?_, fun _ => nofun⟩
  have hknows := hrun.stored.later hharmless
  rw [List.take_append_drop] at hknows
  exact hknows

theorem Inv.begin_ (h : Inv s) (hidle : s.tick = none) (kill live : Bool) :
    Inv (s.begin_ kill live) := by
  have hfile := h.idle hidle
  unfold Sys.begin_
  split
  · exact h
  · by_cases hlive : live = true
    · have hfirst : ∀ u, s.firstLive.or (some s.now) = some u → u ≤ s.now := by
        intro u hu
        cases hf : s.firstLive with
        | none =>
          rw [hf] at hu
          cases hu
          exact le_rfl
        | some v =>
          rw [hf] at hu
          cases hu
          exact h.clock _ hf
      have hfile' := hfile.live s.now
      simp only [hlive, if_true]
      refine ⟨h.allowed, fun e he k hgrants => ?_, hfirst, nofun,
        fun t ht => ?_⟩
      · obtain ⟨t, ht, hle⟩ := h.started e he k hgrants
        exact ⟨t, by rw [ht]; rfl, hle⟩
      · cases ht
        refine ⟨⟨hfile'.settled, hfile'.late, fun u hu => ?_⟩, le_rfl, ?_, hfirst,
          fun k todo hphase => by rcases hphase with hphase | hphase <;> cases hphase⟩
        · cases hstart : (s.file.getD State.empty).start with
          | some v =>
            simp only [hstart] at hu
            cases hu
            exact hfile'.mark _ hstart
          | none =>
            simp only [hstart] at hu
            cases hu
            cases hf : s.firstLive with
            | none => exact ⟨s.now, rfl, le_rfl⟩
            | some v => exact ⟨v, rfl, h.clock v hf⟩
        · rw [List.take_length]
          exact hfile'
    · simp only [hlive]
      refine ⟨h.allowed, h.started, h.clock, nofun, fun t ht => ?_⟩
      cases ht
      refine ⟨hfile, le_rfl, ?_, h.clock,
        fun k todo hphase => by rcases hphase with hphase | hphase <;> cases hphase⟩
      rw [List.take_length]
      exact hfile

theorem Inv.board (h : Inv s) (ht : s.tick = some t) {collected : List Collected}
    (hcareful : s.firstLive = none → ∀ c ∈ collected, c.counts ≠ none → c.key.endedAt < t.start) :
    Inv (s.go t (collected.foldl (State.book t.now t.start) t.st)
      (.loop ((collected.foldl (State.book t.now t.start) t.st).payouts.rows.reverse.map
        (·.key)))) := by
  have hrun := h.running t ht
  refine h.go ht (hrun.memory.board (fun c hc hcounts hstart => ?_)) (fun k todo hphase => ?_)
  · cases hf : s.firstLive with
    | none => exact absurd hstart (not_le.mpr (hcareful hf c hc hcounts))
    | some u =>
      refine ⟨u, rfl, le_trans ?_ hstart⟩
      unfold Tick.start
      cases hmark : t.st.start with
      | none => exact hrun.now u hf
      | some v =>
        obtain ⟨w, hw, hle⟩ := hrun.memory.mark v hmark
        cases hf.symm.trans hw
        exact hle
  · rcases hphase with hphase | hphase <;> cases hphase

theorem Inv.look (h : Inv s) (ht : s.tick = some t) (k : Key) (todo : List Key) :
    Inv (s.look t k todo) := by
  have hrun := h.running t ht
  have hloop : ∀ st, Knows st s.history s.firstLive → Inv (s.go t st (.loop todo)) :=
    fun st hst => h.go ht hst
      (fun k todo hphase => by rcases hphase with hphase | hphase <;> cases hphase)
  unfold Sys.look
  split
  · exact hloop _ hrun.memory
  · rename_i p hget
    obtain ⟨hp, hkey⟩ := Table.get?_eq_some.mp hget
    split
    · exact hloop _ hrun.memory
    · rename_i hstatus
      rw [not_not] at hstatus
      split
      · exact hloop _ (hrun.memory.change k _ (fun _ _ => nofun))
      · split
        · refine h.go ht hrun.memory (fun k' todo' hphase => ?_)
          rcases hphase with hphase | hphase <;> cases hphase
          exact ⟨p, hp, hkey, hstatus⟩
        · refine h.go ht hrun.memory (fun k' todo' hphase => ?_)
          rcases hphase with hphase | hphase <;> cases hphase
          exact ⟨p, hp, hkey, hstatus⟩

theorem Inv.check (h : Inv s) (ht : s.tick = some t)
    (hphase : t.phase = .check k todo) {answer : Option Bool}
    (hcareful : answer = none → s.Harmless t) : Inv (s.check t k todo answer) := by
  have hrun := h.running t ht
  obtain ⟨p, hp, rfl, hpending⟩ := hrun.pending k todo (Or.inl hphase)
  rcases answer with _ | answer | answer
  · exact h.cut ht (hcareful rfl)
  · refine h.go ht (hrun.memory.change p.key _ (fun _ hq => hq)) (fun k' todo' hphase' => ?_)
    rcases hphase' with hphase' | hphase' <;> cases hphase'
    exact ⟨_, mem_changed hp, rfl, hpending⟩
  · refine h.happened ht hp hpending (fun _ _ => nofun) (fun k' hbars => ?_)
    simp only [Event.bars, beq_iff_eq] at hbars
    exact ⟨hbars.symm, nofun⟩

theorem booked_status {now : Nat} {rc : Int} {out : String}
    (h : ¬ (rc = rcOffline ∨ rc = rcPublishFailed)) : (p.booked now rc out).status ≠ .pending := by
  unfold Payout.booked
  by_cases hok : rc = rcOk <;> simp [hok, h]

theorem booked_keeps {now : Nat} {rc : Int} {out : String}
    (h : p.status ≠ .pending) : (p.booked now rc out).status ≠ .pending := by
  by_cases hrc : rc = rcOffline ∨ rc = rcPublishFailed
  · have hok : rc ≠ rcOk := by
      rcases hrc with rfl | rfl <;> decide
    simpa [Payout.booked, hok, hrc] using h
  · exact booked_status hrc

theorem Inv.deliver (h : Inv s) (ht : s.tick = some t)
    (hphase : t.phase = .deliver k todo) {rc : Int} {out : String} {granted : Bool}
    (hstep : s.deliver t k todo rc out granted = some s') : Inv s' := by
  have hrun := h.running t ht
  obtain ⟨p, hp, rfl, hpending⟩ := hrun.pending k todo (Or.inr hphase)
  unfold Sys.deliver at hstep
  split at hstep
  · split at hstep
    · rename_i hgrants
      cases hstep
      refine h.happened ht hp hpending (fun _ => booked_keeps) (fun k' hbars => ?_)
      simp only [Event.bars, Bool.and_eq_true, beq_iff_eq, Bool.or_eq_true, Bool.not_eq_true',
        Bool.or_eq_false_iff, beq_eq_false_iff_ne] at hbars
      refine ⟨hbars.1.symm, booked_status (fun hrefused => ?_)⟩
      rcases hbars.2 with hgranted | ⟨hoffline, hfailed⟩
      · exact Bool.noConfusion (hgranted.symm.trans (hgrants.2 hrefused))
      · rcases hrefused with hrc | hrc
        · exact hoffline hrc
        · exact hfailed hrc
    · cases hstep
  · cases hstep
    exact h.go ht hrun.memory
      (fun k todo hphase => by rcases hphase with hphase | hphase <;> cases hphase)

theorem Inv.step {a : Act} (h : Inv s) (hcareful : s.Careful a) (hstep : step s a = some s') :
    Inv s' := by
  cases a with
  | wait time =>
    cases hstep
    refine ⟨h.allowed, h.started, fun u hu => Nat.le_add_right_of_le (h.clock u hu), h.idle,
      fun t ht => ?_⟩
    have hrun := h.running t ht
    exact ⟨hrun.memory, hrun.before, hrun.stored, hrun.now, hrun.pending⟩
  | begin_ kill live =>
    simp only [Amtal.step] at hstep
    split at hstep
    · rename_i hidle
      cases hstep
      exact h.begin_ hidle kill live
    · cases hstep
  | board collected =>
    obtain ⟨t, ht, hstep⟩ := Option.bind_eq_some_iff.mp hstep
    split at hstep
    · cases hstep
      exact h.board ht (fun hf => hcareful hf t ht)
    · cases hstep
  | look =>
    obtain ⟨t, ht, hstep⟩ := Option.bind_eq_some_iff.mp hstep
    split at hstep
    · cases hstep
      exact h.look ht _ _
    · cases hstep
  | check answer =>
    obtain ⟨t, ht, hstep⟩ := Option.bind_eq_some_iff.mp hstep
    split at hstep
    · rename_i k todo hphase
      cases hstep
      refine h.check ht hphase (fun hraise => ?_)
      subst hraise
      exact hcareful t ht
    · cases hstep
  | deliver rc out granted =>
    obtain ⟨t, ht, hstep⟩ := Option.bind_eq_some_iff.mp hstep
    split at hstep
    · rename_i k todo hphase
      exact h.deliver ht hphase hstep
    · cases hstep
  | save =>
    obtain ⟨t, ht, hstep⟩ := Option.bind_eq_some_iff.mp hstep
    split at hstep
    · cases hstep
      exact ⟨h.allowed, h.started, h.clock, fun _ => (h.running t ht).memory,
        fun _ => nofun⟩
    · cases hstep
  | abort =>
    obtain ⟨t, ht, hstep⟩ := Option.bind_eq_some_iff.mp hstep
    cases hstep
    exact h.cut ht (hcareful t ht)

theorem Inv.paidOnce (h : Inv s) : PaidOnce s where
  once k := le_trans (granted_le_bars s.history k) (h.allowed.count_bars_le k)
  notVoided _ hk := h.allowed.voided hk
  notAgain := by
    refine h.allowed.imp (fun hapart k hbars => ?_)
    by_contra hgrants
    rw [Bool.not_eq_false] at hgrants
    exact Bool.noConfusion ((Event.bars_of_grants hgrants).symm.trans (hapart k hbars))
  started k hk := by
    obtain ⟨e, he, hgrants⟩ := List.countP_pos_iff.mp (Nat.pos_of_ne_zero hk)
    exact h.started e he k hgrants

/-- In every run in which a tick is cut off only while it is harmless, and no dry run before the
first live tick books an entry. -/
theorem bounty_once (hstart : s.Start) {acts : List Act} (hcareful : Along step Sys.Careful s acts)
    (hrun : exec step s acts = some s') : PaidOnce s' :=
  (Runs.exec_invariant (I := Inv) (fun _ _ _ h hg hstep => h.step hg hstep) hstart.inv hcareful
    hrun).paidOnce

end

def installed : Sys := ⟨0, none, none, [], none⟩

def firstStreak : Collected := ⟨1, some 2, some 2500, 5, 1, "00:00:01"⟩
def secondStreak : Collected := ⟨3, some 4, some 2500, 5, 30, "00:00:30"⟩

def untilSecond : List Act := [.begin_ false true, .board [], .save, .wait (60 * second)]

def upToDeliver : List Act :=
  [.begin_ false true, .board [firstStreak, secondStreak], .look, .check (some false)]

def goodRun : List Act :=
  untilSecond ++ upToDeliver ++ [.deliver 0 "" true, .look, .check (some false), .deliver 3 "" false,
    .save, .begin_ false true, .board [firstStreak, secondStreak], .look]

def raisingRun (rc : Int) : List Act :=
  untilSecond ++ upToDeliver ++ [.deliver rc "" true, .look, .check none] ++ upToDeliver ++
    [.deliver 0 "" true]

def voidRun : List Act :=
  untilSecond ++ [.begin_ false true, .board [firstStreak, secondStreak], .look, .check (some true),
    .look, .check none] ++ upToDeliver ++ [.deliver 0 "" true]

def dryRun : List Act :=
  [.begin_ false false, .board [firstStreak], .look, .check (some false), .deliver 0 "" false, .save,
    .wait (60 * second), .begin_ false true, .board [firstStreak], .look, .deliver 0 "" true]

theorem goodRun_goes : (exec step installed goodRun).isSome = true := by decide

theorem bounty_once_goodRun :
    ∃ s', exec step installed goodRun = some s' ∧ granted s'.history ⟨1, 1⟩ = 1 ∧ PaidOnce s' := by
  have hrun := (Option.some_get goodRun_goes).symm
  have hcareful : Along step Sys.Careful installed goodRun := by decide
  exact ⟨_, hrun, by decide, bounty_once ⟨rfl, rfl, rfl, rfl⟩ hcareful hrun⟩

/-- One entry granted twice, once more after an unconfirmed delivery, although it has been voided, and
although it ended before the first live tick. -/
theorem paid_breaches :
    (exec step installed (raisingRun rcOk)).map (fun s => granted s.history ⟨1, 1⟩) = some 2 ∧
      (exec step installed (raisingRun rcUnconfirmed)).map (·.history) =
        some [.sent ⟨1, 1⟩ rcUnconfirmed true, .sent ⟨1, 1⟩ rcOk true] ∧
      (exec step installed voidRun).map (·.history) =
        some [.voided ⟨1, 1⟩, .sent ⟨1, 1⟩ rcOk true] ∧
      (exec step installed dryRun).map (fun s => (granted s.history ⟨1, 1⟩, s.firstLive)) =
        some (1, some (60 * second)) ∧
      (⟨1, 1⟩ : Key).endedAt < 60 * second := by
  refine ⟨?_, ?_, ?_, ?_, ?_⟩ <;> decide

end LastSietch.Amtal
