import Mathlib.Algebra.Order.Ring.Nat
import LastSietch.Lib.Runs

/-!
# The BattleGroup watchdog

One tick of `watchdog.sh`, and runs of ticks between which the pause file is written and removed.
Only a patch that succeeds is put into the list of attempts that the rate limit counts.

* `tick_cases`: what a tick can do.
* `runs_in_turn`: a patch is attempted only when enough reads have confirmed the stop, never under a
  pause, and within the limit of the window in a run in which no patch fails.
-/

namespace LastSietch.Watchdog

open Runs (exec)

structure Config where
  confirmTicks : Nat
  maxAttempts : Nat
  attemptWindow : Nat

/-- `state.json`. -/
structure State where
  consecutive : Nat
  acted : Bool
  attempts : List Nat
  exhaustedAlerted : Bool
  deriving DecidableEq

inductive Exit
  | unreadable | healthy | paused | confirming | exhausted | patched | patchFailed
  deriving DecidableEq

def expiry (line : String) : Option Nat :=
  match line.toList.filter Char.isDigit with
  | [] => none
  | ds => some (ds.foldl (fun n d => 10 * n + (d.toNat - '0'.toNat)) 0)

/-- A pause in force; `[` cannot compare what does not fit into 64 bits. -/
def inForce (pause : Option String) (now : Nat) : Bool :=
  (pause.bind expiry).any (fun exp => now < exp ∧ exp < 2 ^ 63)

/-- `select(. > (N - ATTEMPT_WINDOW_SECS))`. -/
def Config.recent (c : Config) (now : Nat) (attempts : List Nat) : List Nat :=
  attempts.filter (fun a => now < a + c.attemptWindow)

/-- One run of the script at `now`. `phase` is what the read gives, `none` when it fails, and `ok`
whether a patch would succeed. -/
def tick (c : Config) (now : Nat) (phase : Option String) (ok : Bool) (s : State)
    (pause : Option String) : State × Option String × Exit :=
  if phase = none ∨ phase = some "" then (s, pause, .unreadable)
  else if phase ≠ some "Stopped" then
    ({ s with consecutive := 0, acted := false, exhaustedAlerted := false }, pause, .healthy)
  else if inForce pause now then ({ s with consecutive := 0 }, pause, .paused)
  else
    -- `paused` has cleared a marker that is not in force.
    let s := { s with consecutive := s.consecutive + 1 }
    if s.consecutive < c.confirmTicks then (s, none, .confirming)
    else
      let s := { s with attempts := c.recent now s.attempts }
      if c.maxAttempts ≤ s.attempts.length then
        ({ s with exhaustedAlerted := true }, none, .exhausted)
      else if ok then
        ({ s with attempts := s.attempts ++ [now], acted := true }, none, .patched)
      else (s, none, .patchFailed)

structure Tick where
  now : Nat
  phase : Option String
  paused : Bool
  exit : Exit
  deriving DecidableEq

def Tick.attempted (t : Tick) : Bool := t.exit = .patched ∨ t.exit = .patchFailed

def Tick.stopped (t : Tick) : Bool := t.phase = some "Stopped"

/-- A readable phase that is not `Stopped`, or a stop under a pause. -/
def Tick.resets (t : Tick) : Bool :=
  t.phase ≠ none ∧ t.phase ≠ some "" ∧ (t.phase ≠ some "Stopped" ∨ t.paused)

/-- The `Stopped` reads since the last reset, of the newest ticks first. -/
def confirmed (hist : List Tick) : Nat := (hist.takeWhile (! ·.resets)).countP (·.stopped)

structure World where
  state : State
  pause : Option String
  hist : List Tick

def fresh : World := ⟨⟨0, false, [], false⟩, none, []⟩

inductive Act
  | tick (now : Nat) (phase : Option String) (ok : Bool)
  | pause (line : Option String)

def step (c : Config) (w : World) : Act → Option World
  | .pause line => some { w with pause := line }
  | .tick now phase ok =>
    if ∀ t ∈ w.hist.head?, t.now ≤ now then
      let (state, pause, exit) := tick c now phase ok w.state w.pause
      some ⟨state, pause, ⟨now, phase, inForce w.pause now, exit⟩ :: w.hist⟩
    else none

/-- The patch attempts of the window that ends at `T`. -/
def World.tries (w : World) (c : Config) (T : Nat) : Nat :=
  w.hist.countP (fun t => t.attempted ∧ t.now ≤ T ∧ T < t.now + c.attemptWindow)

inductive Ticked (c : Config) (now : Nat) (phase : Option String) (s : State)
    (pause : Option String) : State → Exit → Prop
  | unreadable (hread : phase = none ∨ phase = some "") : Ticked c now phase s pause s .unreadable
  | reset {s' : State} {exit : Exit} (hread : phase ≠ none ∧ phase ≠ some "")
      (hphase : phase ≠ some "Stopped" ∨ inForce pause now = true) (hzero : s'.consecutive = 0)
      (hsame : s'.attempts = s.attempts) (hexit : exit = .healthy ∨ exit = .paused) :
      Ticked c now phase s pause s' exit
  | waits {s' : State} {exit : Exit} (hstop : phase = some "Stopped")
      (hfree : inForce pause now = false) (hnext : s'.consecutive = s.consecutive + 1)
      (hsame : s'.attempts = s.attempts ∨ s'.attempts = c.recent now s.attempts)
      (hexit : exit = .confirming ∨ exit = .exhausted) : Ticked c now phase s pause s' exit
  | tries {s' : State} {exit : Exit} (hstop : phase = some "Stopped")
      (hfree : inForce pause now = false) (hnext : s'.consecutive = s.consecutive + 1)
      (hconfirmed : c.confirmTicks ≤ s'.consecutive)
      (hroom : (c.recent now s.attempts).length < c.maxAttempts)
      (hexit : exit = .patchFailed ∨
        exit = .patched ∧ s'.attempts = c.recent now s.attempts ++ [now]) :
      Ticked c now phase s pause s' exit

theorem tick_ticked (c : Config) (now : Nat) (phase : Option String) (ok : Bool) (s : State)
    (pause : Option String) : Ticked c now phase s pause (tick c now phase ok s pause).1
      (tick c now phase ok s pause).2.2 := by
  unfold tick
  split
  case isTrue hread => exact .unreadable hread
  case isFalse hread =>
  rw [not_or] at hread
  split
  case isTrue hphase => exact .reset hread (Or.inl hphase) rfl rfl (Or.inl rfl)
  case isFalse hstop =>
  rw [not_not] at hstop
  split
  case isTrue hforce => exact .reset hread (Or.inr hforce) rfl rfl (Or.inr rfl)
  case isFalse hforce =>
  rw [Bool.not_eq_true] at hforce
  dsimp only
  split
  case isTrue => exact .waits hstop hforce rfl (Or.inl rfl) (Or.inl rfl)
  case isFalse hconfirmed =>
  rw [not_lt] at hconfirmed
  split
  case isTrue => exact .waits hstop hforce rfl (Or.inr rfl) (Or.inr rfl)
  case isFalse hroom =>
  rw [not_le] at hroom
  cases ok with
  | true => exact .tries hstop hforce rfl hconfirmed hroom (Or.inr ⟨rfl, rfl⟩)
  | false => exact .tries hstop hforce rfl hconfirmed hroom (Or.inl rfl)

theorem step_tick {c : Config} {w w' : World} {now : Nat} {phase : Option String} {ok : Bool}
    (h : step c w (.tick now phase ok) = some w') : (∀ t ∈ w.hist.head?, t.now ≤ now) ∧
      ∃ exit, Ticked c now phase w.state w.pause w'.state exit ∧
        w'.hist = ⟨now, phase, inForce w.pause now, exit⟩ :: w.hist := by
  obtain ⟨hclock, h⟩ := Option.ite_none_right_eq_some.mp h
  have hw := Option.some.inj h
  subst hw
  exact ⟨hclock, _, tick_ticked c now phase ok w.state w.pause, rfl⟩

/-! ## Confirmation and pauses -/

def InTurn (c : Config) (hist : List Tick) : Prop :=
  ∀ t older, t :: older <:+ hist → t.attempted = true →
    t.stopped = true ∧ t.paused = false ∧ c.confirmTicks ≤ confirmed (t :: older)

def Counts (c : Config) (w : World) : Prop :=
  w.state.consecutive = confirmed w.hist ∧ InTurn c w.hist

theorem inTurn_cons {c : Config} {t : Tick} {hist : List Tick} (h : InTurn c hist)
    (ht : t.attempted = true → t.stopped = true ∧ t.paused = false ∧
      c.confirmTicks ≤ confirmed (t :: hist)) : InTurn c (t :: hist) := by
  intro t' older hsuffix hattempt
  rcases List.suffix_cons_iff.mp hsuffix with heq | hsuffix
  · obtain ⟨rfl, rfl⟩ := List.cons.inj heq
    exact ht hattempt
  · exact h t' older hsuffix hattempt

theorem confirmed_cons (t : Tick) (hist : List Tick) : confirmed (t :: hist) =
    if t.resets then 0 else confirmed hist + (if t.stopped then 1 else 0) := by
  unfold confirmed
  rw [List.takeWhile_cons]
  by_cases h : t.resets = true
  · simp [h]
  · simp only [h, Bool.not_false, if_true, List.countP_cons]
    rfl

theorem counts_step {c : Config} (w : World) (a : Act) (w' : World) (h : Counts c w)
    (hstep : step c w a = some w') : Counts c w' := by
  cases a with
  | pause line =>
    cases hstep
    exact h
  | tick now phase ok =>
    obtain ⟨-, exit, hticked, hhist⟩ := step_tick hstep
    obtain ⟨hcount, hturn⟩ := h
    unfold Counts
    rw [hhist]
    generalize w'.state = s' at hticked ⊢
    cases hticked with
    | unreadable hread =>
      refine ⟨?_, inTurn_cons hturn (fun h => by simp [Tick.attempted] at h)⟩
      rw [confirmed_cons]
      rcases hread with rfl | rfl <;> simpa [Tick.resets, Tick.stopped] using hcount
    | reset hread hphase hzero _ hexit =>
      have hresets : Tick.resets ⟨now, phase, inForce w.pause now, exit⟩ = true := by
        simp [Tick.resets, hread, hphase]
      rw [confirmed_cons, if_pos hresets]
      refine ⟨hzero, inTurn_cons hturn (fun h => ?_)⟩
      rcases hexit with rfl | rfl <;> simp [Tick.attempted] at h
    | waits hstop hfree hnext _ hexit =>
      refine ⟨?_, inTurn_cons hturn (fun h => ?_)⟩
      · rw [confirmed_cons]
        simp [Tick.resets, Tick.stopped, hstop, hfree, hnext, hcount]
      · rcases hexit with rfl | rfl <;> simp [Tick.attempted] at h
    | tries hstop hfree hnext hconfirmed _ _ =>
      have hcount' : s'.consecutive =
          confirmed (⟨now, phase, inForce w.pause now, exit⟩ :: w.hist) := by
        rw [confirmed_cons]
        simp [Tick.resets, Tick.stopped, hstop, hfree, hnext, hcount]
      refine ⟨hcount', inTurn_cons hturn (fun _ => ⟨?_, hfree, hcount' ▸ hconfirmed⟩)⟩
      simp [Tick.stopped, hstop]

/-! ## The rate limit -/

def tried (hist : List Tick) : List Nat := (hist.filter (·.attempted)).map (·.now)

/-- What the limit counts in a window that ends at `N` or later is what was tried in it, and no
window holds more attempts than the limit. -/
structure Limited (c : Config) (w : World) : Prop where
  sorted : ∀ t ∈ w.hist, ∀ n ∈ w.hist.head?, t.now ≤ n.now
  recent : ∀ N, (∀ t ∈ w.hist, t.now ≤ N) →
    (c.recent N w.state.attempts).length = (c.recent N (tried w.hist)).length
  windows : ∀ T, w.tries c T ≤ c.maxAttempts

theorem recent_recent (c : Config) {now N : Nat} (h : now ≤ N) (l : List Nat) :
    c.recent N (c.recent now l) = c.recent N l := by
  unfold Config.recent
  rw [List.filter_filter]
  apply List.filter_congr
  intro a _
  rw [← Bool.decide_and]
  exact decide_eq_decide.mpr (and_iff_left_of_imp (fun hN => lt_of_le_of_lt h hN))

/-- A window that ends at `now` or later holds no more attempts than the limit counts at `now`. -/
theorem tries_le (c : Config) (w : World) {now T : Nat} (h : now ≤ T) :
    w.tries c T ≤ (c.recent now (tried w.hist)).length := by
  unfold World.tries Config.recent tried
  rw [← List.countP_eq_length_filter, List.countP_map, List.countP_filter]
  apply List.countP_mono_left
  intro t _ ht
  simp only [decide_eq_true_eq, Function.comp_apply, Bool.and_eq_true] at ht ⊢
  exact ⟨by omega, ht.1⟩

theorem limited_step {c : Config} (w : World) (a : Act) (w' : World) (h : Limited c w)
    (hok : ∀ t ∈ w'.hist, t.exit ≠ .patchFailed) (hstep : step c w a = some w') :
    Limited c w' := by
  cases a with
  | pause line =>
    cases hstep
    exact ⟨h.sorted, h.recent, h.windows⟩
  | tick now phase ok =>
    obtain ⟨hclock, exit, hticked, hhist⟩ := step_tick hstep
    have hold : ∀ t ∈ w.hist, t.now ≤ now := by
      intro t ht
      cases hhead : w.hist.head? with
      | none =>
        rw [List.head?_eq_none_iff.mp hhead] at ht
        cases ht
      | some n => exact le_trans (h.sorted t ht n hhead) (hclock n hhead)
    have hsorted : ∀ t ∈ w'.hist, ∀ n ∈ w'.hist.head?, t.now ≤ n.now := by
      rw [hhist]
      intro t ht n hn
      obtain rfl := Option.some.inj hn
      rcases List.mem_cons.mp ht with rfl | ht
      · exact le_refl _
      · exact hold t ht
    have hwindow : ∀ T, w'.tries c T = w.tries c T +
        if (exit = .patched ∨ exit = .patchFailed) ∧ now ≤ T ∧ T < now + c.attemptWindow
          then 1 else 0 := by
      intro T
      unfold World.tries
      rw [hhist, List.countP_cons]
      simp [Tick.attempted]
    have hquiet : ¬(exit = .patched ∨ exit = .patchFailed) →
        (w'.state.attempts = w.state.attempts ∨
          w'.state.attempts = c.recent now w.state.attempts) → Limited c w' := by
      intro hexit hattempts
      have htried : tried w'.hist = tried w.hist := by
        rw [hhist]
        simp [tried, Tick.attempted, hexit]
      refine ⟨hsorted, fun N hN => ?_, fun T => ?_⟩
      · have hnow : now ≤ N := hN _ (hhist ▸ List.mem_cons_self)
        have hbefore := h.recent N (fun t ht => hN t (hhist ▸ List.mem_cons_of_mem _ ht))
        rcases hattempts with heq | heq
        · rw [heq, htried, hbefore]
        · rw [heq, htried, recent_recent c hnow, hbefore]
      · rw [hwindow T, if_neg (fun hT => hexit hT.1)]
        exact h.windows T
    generalize hs' : w'.state = s' at hticked
    cases hticked with
    | unreadable _ => exact hquiet (by decide) (Or.inl (congrArg State.attempts hs'))
    | reset _ _ _ hsame hexit =>
      refine hquiet ?_ (Or.inl (hs' ▸ hsame))
      rcases hexit with rfl | rfl <;> decide
    | waits _ _ _ hsame hexit =>
      refine hquiet ?_ (hs' ▸ hsame)
      rcases hexit with rfl | rfl <;> decide
    | tries _ _ _ _ hroom hexit =>
      rcases hexit with rfl | ⟨rfl, happend⟩
      · exact absurd rfl (hok _ (hhist ▸ List.mem_cons_self))
      have htried : tried w'.hist = now :: tried w.hist := by
        rw [hhist]
        simp [tried, Tick.attempted]
      refine ⟨hsorted, fun N hN => ?_, fun T => ?_⟩
      · have hnow : now ≤ N := hN _ (hhist ▸ List.mem_cons_self)
        have hbefore := h.recent N (fun t ht => hN t (hhist ▸ List.mem_cons_of_mem _ ht))
        have hlast : c.recent N (c.recent now w.state.attempts ++ [now]) =
            c.recent N w.state.attempts ++ c.recent N [now] := by
          rw [← recent_recent c hnow w.state.attempts]
          exact List.filter_append _ _
        rw [hs', happend, htried, hlast, List.length_append, hbefore]
        have hfirst : c.recent N (now :: tried w.hist) =
            c.recent N [now] ++ c.recent N (tried w.hist) :=
          List.filter_append [now] _
        rw [hfirst, List.length_append, Nat.add_comm]
      · rw [hwindow T]
        by_cases hT : now ≤ T ∧ T < now + c.attemptWindow
        · have hle := tries_le c w hT.1
          rw [← h.recent now hold] at hle
          rw [if_pos ⟨Or.inl rfl, hT⟩]
          omega
        · rw [if_neg (fun hT' => hT hT'.2)]
          exact h.windows T

/-- Every attempt comes in turn, and in a run in which no patch fails no window holds more attempts
than the limit. -/
theorem runs_in_turn (c : Config) {acts : List Act} {w : World}
    (hrun : exec (step c) fresh acts = some w) :
    InTurn c w.hist ∧
      ((∀ t ∈ w.hist, t.exit ≠ .patchFailed) → ∀ T, w.tries c T ≤ c.maxAttempts) := by
  have hcounts : Counts c w := by
    refine Runs.exec_invariant' counts_step ⟨rfl, ?_⟩ hrun
    intro t older hsuffix
    cases List.suffix_nil.mp hsuffix
  refine ⟨hcounts.2, fun hok T => ?_⟩
  have hlimited : (∀ t ∈ w.hist, t.exit ≠ .patchFailed) → Limited c w := by
    refine Runs.exec_invariant' (I := fun w => (∀ t ∈ w.hist, t.exit ≠ .patchFailed) → Limited c w)
      ?_ ?_ hrun
    · intro w a w' hw hstep hok
      refine limited_step w a w' (hw (fun t ht => hok t ?_)) hok hstep
      cases a with
      | pause line =>
        cases hstep
        exact ht
      | tick now phase ok =>
        obtain ⟨-, exit, -, hhist⟩ := step_tick hstep
        exact hhist ▸ List.mem_cons_of_mem _ ht
    · intro _
      exact ⟨fun t ht => absurd ht List.not_mem_nil, fun _ _ => rfl, fun T => Nat.zero_le _⟩
  exact (hlimited hok).windows T

/-! ### Runs with the defaults -/

def defaults : Config := ⟨2, 3, 21600⟩

/-- Reads of `Stopped` a minute apart. -/
def stops (ok : Bool) (n : Nat) : List Act :=
  (List.range n).map (fun i => .tick (60 * i) (some "Stopped") ok)

theorem runs_in_turn_stops : ∃ w, exec (step defaults) fresh (stops true 5) = some w ∧
    InTurn defaults w.hist ∧ ∀ T, w.tries defaults T ≤ 3 := by
  obtain ⟨w, hrun, hok⟩ : ∃ w, exec (step defaults) fresh (stops true 5) = some w ∧
      ∀ t ∈ w.hist, t.exit ≠ .patchFailed := Runs.exec_shows (by decide)
  obtain ⟨hturn, hlimit⟩ := runs_in_turn defaults hrun
  exact ⟨w, hrun, hturn, hlimit hok⟩

/-- A patch that fails is no attempt that the limit counts, and the fourth is tried at once. -/
theorem failing_patches : ∃ w, exec (step defaults) fresh (stops false 5) = some w ∧
    ¬ ∀ T, w.tries defaults T ≤ defaults.maxAttempts := by
  obtain ⟨w, hrun, htries⟩ : ∃ w, exec (step defaults) fresh (stops false 5) = some w ∧
      w.tries defaults 240 = 4 := Runs.exec_shows (by decide)
  exact ⟨w, hrun, fun h => absurd (h 240) (by rw [htries]; decide)⟩

end LastSietch.Watchdog
