import Mathlib.Algebra.Order.Ring.Int
import Mathlib.Data.List.Sort
import LastSietch.Lib.Streak

/-!
# The daily ramp

Dates are day numbers; a login history is the list of the days an account was seen online.
The ramp repeats in cycles of seven days: a day pays the rung at the cycle day of the run of
logins that ends on it. `computeStreak`, `claimPool` and `cycleCells` walk the current cycle,
whose first day is `today - (C - 1)` for today's cycle day `C`.

* `todayCycleDay_eq`: today's cycle day from the run that ended yesterday.
-/

namespace LastSietch.Rewards

open Streak

def dailySolariRamp : List Int := [10000, 12000, 15000, 18000, 20000, 22000, 25000]

def dailyCycleLen : Nat := dailySolariRamp.length

def dailyMilestoneDays : List Nat := [3, 7]

def rung (cycleDay : Nat) : Int := dailySolariRamp.getD (cycleDay - 1) 0

def cycleDay (dayNumber : Nat) : Nat :=
  if dayNumber < 1 then 1 else (dayNumber - 1) % dailyCycleLen + 1

def dailyAmount (dayNumber : Nat) : Int := rung (cycleDay dayNumber)

theorem cycleDay_succ (n : Nat) : cycleDay (n + 1) = n % 7 + 1 := by
  simp [cycleDay, dailyCycleLen, dailySolariRamp]

theorem dailyAmount_nonneg (n : Nat) : 0 ≤ dailyAmount n := by
  have hall : ∀ i < 7, 0 ≤ dailySolariRamp.getD i 0 := by decide
  apply hall
  cases n with
  | zero => decide
  | succ n =>
    rw [cycleDay_succ]
    omega

def longestRun (days : List Int) : Nat :=
  if days = [] then 0
  else
    let parsed := days.dedup.insertionSort (· ≤ ·)
    ((parsed.zip parsed.tail).foldl (fun acc days =>
      let run := if days.2 - days.1 = 1 then acc.2 + 1 else 1
      (max acc.1 run, run)) (1, 1)).1

/-- The length of the login run that ends at `d`, 0 without a login on `d`. -/
def runEnding (loginDates : List Int) (d : Int) : Nat :=
  if d ∉ loginDates then 0 else run loginDates d

structure StreakState where
  current : Nat
  best : Nat
  loggedToday : Bool
  todayDayNumber : Nat
  todayCycleDay : Nat
  cycleDay : Nat
  deriving DecidableEq, Repr

def computeStreak (loginDates : List Int) (today : Int) : StreakState :=
  let prev := run loginDates (today - 1)
  let loggedToday := decide (today ∈ loginDates)
  let todayDayNumber := prev + 1
  let current := if loggedToday then todayDayNumber else prev
  { current
    best := max (longestRun loginDates) current
    loggedToday
    todayDayNumber
    todayCycleDay := Rewards.cycleDay todayDayNumber
    cycleDay := if current = 0 then 0 else Rewards.cycleDay current }

theorem runEnding_eq (s : List Int) (d : Int) : runEnding s d = run s d := by
  unfold runEnding
  by_cases hd : d ∈ s
  · rw [if_neg (not_not.mpr hd)]
  · rw [if_pos hd, run_eq_zero hd]

theorem todayCycleDay_eq (s : List Int) (today : Int) :
    (computeStreak s today).todayCycleDay = run s (today - 1) % 7 + 1 :=
  cycleDay_succ _

/-! ## The current cycle -/

/-- `_cycle_window`: the cycle days so far, with their dates. -/
def cycleWindow (today : Int) (cycleDayToday : Nat) : List (Nat × Int) :=
  (List.range cycleDayToday).map (fun i => (i + 1, today - (cycleDayToday - (i + 1 : Nat))))

def claimPool (loginDates dailyClaimed : List Int) (today : Int) : Int × List (Int × Int) :=
  let cycleDayToday := (computeStreak loginDates today).todayCycleDay
  let entries := (cycleWindow today cycleDayToday).filterMap (fun pd =>
    if pd.2 ∈ loginDates ∧ pd.2 ∉ dailyClaimed then some (pd.2, rung pd.1) else none)
  ((entries.map Prod.snd).sum, entries)

inductive CellState
  | claimed | upcoming | pending | claimable
  deriving DecidableEq, Repr

structure Cell where
  cycleDay : Nat
  amount : Int
  state : CellState
  isToday : Bool
  milestone : Bool
  deriving DecidableEq, Repr

/-- The date of cycle day `p`, when today is at `cycleDayToday`. -/
def cellDate (today : Int) (cycleDayToday p : Nat) : Int := today - (cycleDayToday - p)

def cycleCell (loginDates dailyClaimed : List Int) (today : Int) (p : Nat) : Cell :=
  let st := computeStreak loginDates today
  let day := cellDate today st.todayCycleDay p
  let state :=
    if day ∈ dailyClaimed then .claimed
    else if st.todayCycleDay < p then .upcoming
    else if p = st.todayCycleDay ∧ ¬ st.loggedToday then .pending
    else if day ∈ loginDates then .claimable
    else .upcoming
  ⟨p, rung p, state, decide (p = st.todayCycleDay), decide (p ∈ dailyMilestoneDays)⟩

def cycleCells (loginDates dailyClaimed : List Int) (today : Int) : List Cell :=
  (List.range dailyCycleLen).map (fun i => cycleCell loginDates dailyClaimed today (i + 1))

section

variable {s claimed : List Int} {today d : Int}

theorem mem_cycleWindow {n p : Nat} :
    (p, d) ∈ cycleWindow today n ↔ 1 ≤ p ∧ p ≤ n ∧ d = cellDate today n p := by
  simp only [cycleWindow, List.mem_map, List.mem_range, Prod.mk.injEq, cellDate]
  constructor
  · rintro ⟨i, hi, rfl, rfl⟩
    exact ⟨by omega, by omega, rfl⟩
  · rintro ⟨hlow, hhigh, rfl⟩
    refine ⟨p - 1, by omega, by omega, ?_⟩
    have heq : p - 1 + 1 = p := by omega
    rw [heq]

theorem mem_claimPool {amount : Int} :
    (d, amount) ∈ (claimPool s claimed today).2 ↔
      ∃ p, 1 ≤ p ∧ p ≤ (computeStreak s today).todayCycleDay ∧
        d = cellDate today (computeStreak s today).todayCycleDay p ∧ d ∈ s ∧ d ∉ claimed ∧
        amount = rung p := by
  simp only [claimPool, List.mem_filterMap]
  constructor
  · rintro ⟨⟨p, e⟩, hpe, hin⟩
    obtain ⟨hlow, hhigh, he⟩ := mem_cycleWindow.mp hpe
    by_cases hin' : e ∈ s ∧ e ∉ claimed
    · rw [if_pos hin', Option.some.injEq, Prod.mk.injEq] at hin
      obtain ⟨rfl, rfl⟩ := hin
      exact ⟨p, hlow, hhigh, he, hin'.1, hin'.2, rfl⟩
    · rw [if_neg hin'] at hin
      cases hin
  · rintro ⟨p, hlow, hhigh, he, hs, hclaimed, rfl⟩
    refine ⟨(p, d), mem_cycleWindow.mpr ⟨hlow, hhigh, he⟩, ?_⟩
    rw [if_pos ⟨hs, hclaimed⟩]

theorem cellDate_back {p : Nat} (hlow : 1 ≤ p)
    (hp : p ≤ (computeStreak s today).todayCycleDay) :
    ∃ x : Nat, cellDate today (computeStreak s today).todayCycleDay p = today - x ∧
      x + p = (computeStreak s today).todayCycleDay ∧ x ≤ 6 ∧ x ≤ run s (today - 1) := by
  rw [todayCycleDay_eq] at hp ⊢
  have hmod := Nat.mod_le (run s (today - 1)) 7
  refine ⟨run s (today - 1) % 7 + 1 - p, ?_, by omega, by omega, by omega⟩
  rw [cellDate]
  omega

theorem cycleDay_runEnding {p : Nat} (hlow : 1 ≤ p)
    (hp : p ≤ (computeStreak s today).todayCycleDay)
    (hd : cellDate today (computeStreak s today).todayCycleDay p ∈ s) :
    cycleDay (runEnding s (cellDate today (computeStreak s today).todayCycleDay p)) = p := by
  obtain ⟨x, hdate, hx, -, hback⟩ := cellDate_back hlow hp
  rw [hdate] at hd ⊢
  have hrun := run_back hback hd
  have hn : run s (today - x) = run s (today - 1) - x + 1 := by omega
  rw [todayCycleDay_eq] at hx
  rw [runEnding_eq, hn, cycleDay_succ]
  omega

theorem amount_claimPool {amount : Int} (h : (d, amount) ∈ (claimPool s claimed today).2) :
    amount = dailyAmount (runEnding s d) := by
  obtain ⟨p, hlow, hp, rfl, hs, -, rfl⟩ := mem_claimPool.mp h
  rw [dailyAmount, cycleDay_runEnding hlow hp hs]

end

end LastSietch.Rewards
