import LastSietch.Rewards.Ramp

/-!
# The calendar and the claim

Three functions show the same dates: `claimPool` pays them, `cycleCells` shows the current
cycle of seven, `periodCells` the current period of twenty-eight. A cycle can have begun in
the period before; its days are then in the pool and in the cycle but not in the period.
-/

namespace LastSietch.Rewards

open Streak

/-- `MONTHLY_PERIOD_ANCHOR`, 13 July 2026, counted from the epoch. -/
def monthlyPeriodAnchor : Int := 20647

def monthlyPeriodLengthDays : Nat := 28

/-- The start of the period of `d`; the division is by floor. -/
def monthlyPeriodStart (d : Int) : Int :=
  monthlyPeriodAnchor + (d - monthlyPeriodAnchor) / monthlyPeriodLengthDays * monthlyPeriodLengthDays

structure PeriodCell where
  date : Int
  logged : Bool
  claimed : Bool
  isToday : Bool
  isFuture : Bool
  amount : Option Int
  rampDay : Option Nat
  milestone : Bool
  deriving DecidableEq, Repr

def periodCell (loginDates dailyClaimed : List Int) (today day : Int) : PeriodCell :=
  let logged := decide (day ∈ loginDates)
  let isFuture := decide (today < day)
  let shown := !isFuture && logged
  let raw := runEnding loginDates day
  { date := day
    logged
    claimed := decide (day ∈ dailyClaimed)
    isToday := decide (day = today)
    isFuture
    amount := if shown then some (dailyAmount raw) else none
    rampDay := if shown then some (cycleDay raw) else none
    milestone := shown && decide (cycleDay raw ∈ dailyMilestoneDays) }

def periodCells (loginDates dailyClaimed : List Int) (today : Int) : List PeriodCell :=
  (List.range monthlyPeriodLengthDays).map (fun idx =>
    periodCell loginDates dailyClaimed today (monthlyPeriodStart today + (idx : Nat)))

theorem monthlyPeriodStart_le (d : Int) :
    monthlyPeriodStart d ≤ d ∧ d < monthlyPeriodStart d + monthlyPeriodLengthDays := by
  simp only [monthlyPeriodStart, monthlyPeriodLengthDays]
  omega

/-! ## What is shown is what is paid -/

def claimableDays (loginDates dailyClaimed : List Int) (today : Int) : List Int :=
  ((cycleCells loginDates dailyClaimed today).filter (fun cell => cell.state = .claimable)).map
    (fun cell =>
      cellDate today (computeStreak loginDates today).todayCycleDay cell.cycleDay)

section

variable {s claimed : List Int} {today d : Int}

theorem mem_periodCells {cell : PeriodCell} :
    cell ∈ periodCells s claimed today ↔
      ∃ day, monthlyPeriodStart today ≤ day ∧
        day < monthlyPeriodStart today + monthlyPeriodLengthDays ∧
        cell = periodCell s claimed today day := by
  simp only [periodCells, List.mem_map, List.mem_range]
  constructor
  · rintro ⟨idx, hidx, rfl⟩
    exact ⟨_, by omega, by omega, rfl⟩
  · rintro ⟨day, hlow, hhigh, rfl⟩
    refine ⟨(day - monthlyPeriodStart today).toNat, by omega, ?_⟩
    have heq : monthlyPeriodStart today + ((day - monthlyPeriodStart today).toNat : Int) = day := by
      omega
    rw [heq]

theorem amount_periodCell (hs : d ∈ s) (hpast : d ≤ today) :
    (periodCell s claimed today d).amount = some (dailyAmount (runEnding s d)) := by
  simp [periodCell, hs, hpast]

theorem claimable_iff {p : Nat} :
    (cycleCell s claimed today p).state = .claimable ↔
      p ≤ (computeStreak s today).todayCycleDay ∧
        cellDate today (computeStreak s today).todayCycleDay p ∈ s ∧
        cellDate today (computeStreak s today).todayCycleDay p ∉ claimed := by
  simp only [cycleCell]
  generalize hC : (computeStreak s today).todayCycleDay = C
  by_cases hclaimed : cellDate today C p ∈ claimed
  · simp [hclaimed]
  · by_cases hlate : C < p
    · have hnot : ¬ p ≤ C := by omega
      simp [hclaimed, hlate, hnot]
    · have hle : p ≤ C := by omega
      by_cases hs : cellDate today C p ∈ s
      · -- today's own cell waits for its login
        have hlogged : p = C → (computeStreak s today).loggedToday = true := by
          intro heq
          have htoday : cellDate today C p = today := by
            rw [cellDate, heq]
            omega
          rw [htoday] at hs
          exact decide_eq_true hs
        have hpending : ¬ (p = C ∧ ¬ (computeStreak s today).loggedToday = true) :=
          fun h => h.2 (hlogged h.1)
        rw [if_neg hclaimed, if_neg hlate, if_neg hpending, if_pos hs]
        simp [hle, hs, hclaimed]
      · by_cases hpending : p = C ∧ ¬ (computeStreak s today).loggedToday = true
        · rw [if_neg hclaimed, if_neg hlate, if_pos hpending]
          simp [hs]
        · rw [if_neg hclaimed, if_neg hlate, if_neg hpending, if_neg hs]
          simp [hs]

/-- The date of cycle day `i + 1`, when the pool has it. -/
def pooled (s claimed : List Int) (today : Int) (i : Nat) : Option Int :=
  let C := (computeStreak s today).todayCycleDay
  if i + 1 ≤ C ∧ cellDate today C (i + 1) ∈ s ∧ cellDate today C (i + 1) ∉ claimed then
    some (cellDate today C (i + 1))
  else none

theorem filterMap_pooled (s claimed : List Int) (today : Int) (k : Nat) :
    (List.range ((computeStreak s today).todayCycleDay + k)).filterMap (pooled s claimed today) =
      (List.range (computeStreak s today).todayCycleDay).filterMap (pooled s claimed today) := by
  induction k with
  | zero => rfl
  | succ k ih =>
    have hlast : pooled s claimed today ((computeStreak s today).todayCycleDay + k) = none := by
      unfold pooled
      rw [if_neg (fun h => by omega)]
    rw [← Nat.add_assoc, List.range_succ, List.filterMap_append, ih]
    simp [hlast]

theorem map_claimPool (s claimed : List Int) (today : Int) :
    (claimPool s claimed today).2.map Prod.fst =
      (List.range (computeStreak s today).todayCycleDay).filterMap (pooled s claimed today) := by
  simp only [claimPool, cycleWindow, List.map_filterMap, List.filterMap_map]
  apply List.filterMap_congr
  intro i hi
  have hle : i + 1 ≤ (computeStreak s today).todayCycleDay := List.mem_range.mp hi
  simp only [Function.comp_apply, pooled, hle, true_and, cellDate]
  split
  · rfl
  · rfl

theorem claimableDays_eq (s claimed : List Int) (today : Int) :
    claimableDays s claimed today =
      (List.range dailyCycleLen).filterMap (pooled s claimed today) := by
  simp only [claimableDays, cycleCells]
  rw [List.filter_map, List.map_map, ← List.filterMap_eq_map, ← List.filterMap_eq_filter,
    List.filterMap_filterMap]
  apply List.filterMap_congr
  intro i _
  have hiff : (cycleCell s claimed today (i + 1)).state = .claimable ↔ _ := claimable_iff
  unfold pooled
  by_cases hstate : (cycleCell s claimed today (i + 1)).state = .claimable
  · rw [if_pos (hiff.mp hstate)]
    simp [hstate, Option.guard]
    rfl
  · rw [if_neg (fun h => hstate (hiff.mpr h))]
    simp [hstate, Option.guard]

theorem amount_cycleCells {amount : Int} (h : (d, amount) ∈ (claimPool s claimed today).2)
    {cell : Cell} (hcell : cell ∈ cycleCells s claimed today)
    (hdate : cellDate today (computeStreak s today).todayCycleDay cell.cycleDay = d) :
    cell.amount = amount := by
  obtain ⟨p, -, -, rfl, -, -, rfl⟩ := mem_claimPool.mp h
  obtain ⟨i, -, rfl⟩ := List.mem_map.mp hcell
  have hp : i + 1 = p := by
    have hdate' : cellDate today (computeStreak s today).todayCycleDay (i + 1) =
      cellDate today (computeStreak s today).todayCycleDay p := hdate
    rw [cellDate, cellDate] at hdate'
    omega
  rw [← hp]
  rfl

theorem claimPool_past {amount : Int} (h : (d, amount) ∈ (claimPool s claimed today).2) :
    d ∈ s ∧ d ≤ today := by
  obtain ⟨p, -, hp, rfl, hs, -⟩ := mem_claimPool.mp h
  refine ⟨hs, ?_⟩
  rw [cellDate]
  omega

end

/-- What the calendar shows is what the claim pays: the pool has exactly the days that the
cycle marks claimable, at the ramp amount of their runs, which the cycle shows and, for the
days of the current period, the period. -/
theorem calendar_pays (s claimed : List Int) (today : Int) :
    (claimPool s claimed today).2.map Prod.fst = claimableDays s claimed today ∧
    ∀ d amount, (d, amount) ∈ (claimPool s claimed today).2 →
      amount = dailyAmount (runEnding s d) ∧
      (∀ cell ∈ cycleCells s claimed today,
        cellDate today (computeStreak s today).todayCycleDay cell.cycleDay = d →
          cell.amount = dailyAmount (runEnding s d)) ∧
      (∀ cell ∈ periodCells s claimed today, cell.date = d →
        cell.amount = some (dailyAmount (runEnding s d))) ∧
      (monthlyPeriodStart today ≤ d → ∃ cell ∈ periodCells s claimed today, cell.date = d) := by
  constructor
  · have hcycle : (computeStreak s today).todayCycleDay ≤ dailyCycleLen := by
      rw [todayCycleDay_eq]
      simp only [dailyCycleLen, dailySolariRamp, List.length_cons, List.length_nil]
      omega
    obtain ⟨k, hk⟩ := Nat.exists_eq_add_of_le hcycle
    rw [map_claimPool, claimableDays_eq, hk, filterMap_pooled]
  · intro d amount h
    have hamount := amount_claimPool h
    obtain ⟨hs, hpast⟩ := claimPool_past h
    refine ⟨hamount, fun cell hcell hdate => ?_, fun cell hcell hdate => ?_, fun hperiod => ?_⟩
    · rw [amount_cycleCells h hcell hdate, hamount]
    · obtain ⟨day, -, -, rfl⟩ := mem_periodCells.mp hcell
      obtain rfl : day = d := hdate
      exact amount_periodCell hs hpast
    · have hend := (monthlyPeriodStart_le today).2
      exact ⟨_, mem_periodCells.mpr ⟨d, hperiod, by omega, rfl⟩, rfl⟩

/-- Logins on the last day of a period and on the first of the next: the pool of that first
day has both, the period shows one. -/
theorem firstDay_hidden :
    ¬ ∀ (s claimed : List Int) (today d amount : Int),
      (d, amount) ∈ (claimPool s claimed today).2 →
        ∃ cell ∈ periodCells s claimed today, cell.date = d ∧ cell.amount = some amount := by
  intro hclaim
  have hshown := hclaim [20646, 20647] [] 20647 20646 10000 (by decide)
  revert hshown
  decide

end LastSietch.Rewards
