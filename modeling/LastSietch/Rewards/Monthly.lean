import Mathlib.Data.Int.Interval
import Mathlib.Data.List.ReduceOption
import LastSietch.Lib.Runs
import LastSietch.Rewards.Calendar

/-!
# The windows of the monthly reward

A period of twenty-eight days is earned with fifteen login days in it. The reward can be claimed
from the day it unlocks on, and for seven days into the next period, under the key of its own
period, which is the period's start date. `monthlyClaimState` decides by the logins of the
current and of the prior period.
-/

namespace LastSietch.Rewards

open Runs

/-! ## The state of the claim -/

def monthlyLoginDaysRequired : Nat := 15

def monthlyClaimGraceDays : Nat := 7

def monthlyPeriodEnd (d : Int) : Int := monthlyPeriodStart d + (monthlyPeriodLengthDays - 1)

def monthlyPriorPeriodKey (d : Int) : Int := monthlyPeriodStart (monthlyPeriodStart d - 1)

def monthlyInGraceWindow (d : Int) : Bool :=
  d - monthlyPeriodStart d < monthlyClaimGraceDays

def monthlyGraceDeadline (d : Int) : Int := monthlyPeriodStart d + monthlyClaimGraceDays

/-- The distinct login days in the period; an entry that is empty or not a date is `none`. -/
def monthlyLoginDaysCount (loginDates : List (Option Int)) (periodKey : Int) : Nat :=
  ((loginDates.reduceOption.filter (fun d =>
    periodKey ≤ d ∧ d ≤ periodKey + (monthlyPeriodLengthDays - 1))).dedup).length

structure MonthlyState where
  currentKey : Int
  priorKey : Int
  currentProgress : Nat
  currentUnlocked : Bool
  currentClaimed : Bool
  currentPeriodEnd : Int
  priorProgress : Nat
  priorUnlocked : Bool
  priorClaimed : Bool
  priorPeriodEnd : Int
  inGrace : Bool
  graceActive : Bool
  claimKey : Option Int
  claimable : Bool
  graceDeadline : Option Int
  deriving DecidableEq, Repr

def monthlyClaimState (loginDates : List (Option Int)) (claimedKeys : List Int) (today : Int) :
    MonthlyState :=
  let curKey := monthlyPeriodStart today
  let priorKey := monthlyPriorPeriodKey today
  let curProgress := monthlyLoginDaysCount loginDates curKey
  let curUnlocked := decide (monthlyLoginDaysRequired ≤ curProgress)
  let curClaimed := decide (curKey ∈ claimedKeys)
  let priorProgress := monthlyLoginDaysCount loginDates priorKey
  let priorUnlocked := decide (monthlyLoginDaysRequired ≤ priorProgress)
  let priorClaimed := decide (priorKey ∈ claimedKeys)
  let inGrace := monthlyInGraceWindow today
  let graceActive := inGrace && priorUnlocked && !priorClaimed
  let claimKey :=
    if curUnlocked && !curClaimed then some curKey
    else if graceActive then some priorKey
    else none
  { currentKey := curKey
    priorKey
    currentProgress := curProgress
    currentUnlocked := curUnlocked
    currentClaimed := curClaimed
    currentPeriodEnd := monthlyPeriodEnd today
    priorProgress
    priorUnlocked
    priorClaimed
    priorPeriodEnd := monthlyPeriodStart today - 1
    inGrace
    graceActive
    claimKey
    claimable := claimKey.isSome
    graceDeadline := if graceActive then some (monthlyGraceDeadline today) else none }

/-! ## Windows -/

/-- The entries of the history that are on record on the day `today`. -/
def upTo (today : Int) (loginDates : List (Option Int)) : List (Option Int) :=
  loginDates.filter (fun d => d.all (· ≤ today))

/-- On the day `u` the fifteenth login day of the period is on record, and not before. -/
structure UnlocksOn (loginDates : List (Option Int)) (period u : Int) : Prop where
  reached : monthlyLoginDaysRequired ≤ monthlyLoginDaysCount (upTo u loginDates) period
  first : ∀ t < u, monthlyLoginDaysCount (upTo t loginDates) period < monthlyLoginDaysRequired

def graceEnd (period : Int) : Int :=
  period + monthlyPeriodLengthDays + monthlyClaimGraceDays - 1

/-- On `today` the period is earned and unclaimed, from the day it unlocks through the end of
its grace. -/
structure InWindow (loginDates : List (Option Int)) (claimedKeys : List Int) (today period : Int) :
    Prop where
  isPeriod : monthlyPeriodStart period = period
  unclaimed : period ∉ claimedKeys
  unlocked : ∃ u, UnlocksOn loginDates period u ∧ u ≤ today
  inTime : today ≤ graceEnd period

section

variable {loginDates : List (Option Int)} {claimedKeys : List Int} {today period t u : Int}

theorem upTo_of_past (h : ∀ d ∈ loginDates.reduceOption, d ≤ today) :
    upTo today loginDates = loginDates := by
  unfold upTo
  rw [List.filter_eq_self]
  intro d hd
  cases d with
  | none => rfl
  | some d => exact decide_eq_true (h d (List.reduceOption_mem_iff.mpr hd))

def loginDays (loginDates : List (Option Int)) (period : Int) : Finset Int :=
  loginDates.reduceOption.toFinset.filter (fun d =>
    period ≤ d ∧ d ≤ period + (monthlyPeriodLengthDays - 1))

theorem monthlyLoginDaysCount_eq :
    monthlyLoginDaysCount loginDates period = (loginDays loginDates period).card := by
  unfold monthlyLoginDaysCount loginDays
  rw [← List.card_toFinset, List.toFinset_filter]
  simp only [decide_eq_true_eq]

theorem mem_loginDays_upTo {d : Int} : d ∈ loginDays (upTo t loginDates) period ↔
    some d ∈ loginDates ∧ d ≤ t ∧ period ≤ d ∧ d ≤ period + (monthlyPeriodLengthDays - 1) := by
  rw [loginDays, Finset.mem_filter, List.mem_toFinset, List.reduceOption_mem_iff, upTo, List.mem_filter,
    Option.all_some, decide_eq_true_eq, and_assoc]

theorem count_mono (h : t ≤ u) : monthlyLoginDaysCount (upTo t loginDates) period ≤
    monthlyLoginDaysCount (upTo u loginDates) period := by
  rw [monthlyLoginDaysCount_eq, monthlyLoginDaysCount_eq]
  apply Finset.card_le_card
  intro d hd
  rw [mem_loginDays_upTo] at hd ⊢
  exact ⟨hd.1, by omega, hd.2.2⟩

theorem count_le_days : monthlyLoginDaysCount (upTo t loginDates) period ≤ (t + 1 - period).toNat := by
  rw [monthlyLoginDaysCount_eq, ← Int.card_Icc]
  apply Finset.card_le_card
  intro d hd
  rw [mem_loginDays_upTo] at hd
  rw [Finset.mem_Icc]
  omega

theorem unlocked_iff : (∃ u, UnlocksOn loginDates period u ∧ u ≤ today) ↔
    monthlyLoginDaysRequired ≤ monthlyLoginDaysCount (upTo today loginDates) period := by
  constructor
  · rintro ⟨u, hu, hle⟩
    exact hu.reached.trans (count_mono hle)
  · intro h
    -- the first day after the start of the period on which the count is reached
    have hreached : ∃ n : Nat, monthlyLoginDaysRequired ≤
        monthlyLoginDaysCount (upTo (period + n) loginDates) period := by
      refine ⟨(today - period).toNat, h.trans (count_mono ?_)⟩
      omega
    refine ⟨period + (Nat.find hreached : Nat), ⟨Nat.find_spec hreached, fun s hs => ?_⟩, ?_⟩
    · by_cases hstart : s < period
      · have hnone := @count_le_days loginDates period s
        have hzero : (s + 1 - period).toNat = 0 := by omega
        rw [hzero] at hnone
        unfold monthlyLoginDaysRequired
        omega
      · have hbefore := Nat.find_min hreached (show (s - period).toNat < _ by omega)
        have heq : period + ((s - period).toNat : Int) = s := by omega
        rw [heq] at hbefore
        omega
    · have hstart : period ≤ today := by
        have hdays := h.trans count_le_days
        unfold monthlyLoginDaysRequired at hdays
        omega
      have hfind : Nat.find hreached ≤ (today - period).toNat := by
        refine Nat.find_min' hreached ?_
        have heq : period + ((today - period).toNat : Int) = today := by omega
        rw [heq]
        exact h
      omega

theorem monthlyPriorPeriodKey_eq (d : Int) :
    monthlyPriorPeriodKey d = monthlyPeriodStart d - monthlyPeriodLengthDays := by
  simp only [monthlyPriorPeriodKey, monthlyPeriodStart, monthlyPeriodLengthDays]
  omega

theorem not_inGrace (h : monthlyLoginDaysRequired ≤
    monthlyLoginDaysCount (upTo today loginDates) (monthlyPeriodStart today)) :
    monthlyInGraceWindow today = false := by
  have hdays := h.trans count_le_days
  unfold monthlyLoginDaysRequired at hdays
  unfold monthlyInGraceWindow monthlyClaimGraceDays
  rw [decide_eq_false_iff_not]
  omega

/-- The two periods whose window `today` can fall into. -/
theorem period_cases (hperiod : monthlyPeriodStart period = period) (hstart : period ≤ today)
    (hend : today ≤ graceEnd period) : period = monthlyPeriodStart today ∨
      period = monthlyPriorPeriodKey today ∧ monthlyInGraceWindow today = true := by
  rw [monthlyPriorPeriodKey_eq, monthlyInGraceWindow, decide_eq_true_eq]
  simp only [graceEnd, monthlyClaimGraceDays, monthlyPeriodStart, monthlyPeriodLengthDays] at *
  omega

/-- The period `key` is earned by the logins on record and not claimed. -/
def Owed (loginDates : List (Option Int)) (claimedKeys : List Int) (key : Int) : Prop :=
  monthlyLoginDaysRequired ≤ monthlyLoginDaysCount loginDates key ∧ key ∉ claimedKeys

instance (loginDates : List (Option Int)) (claimedKeys : List Int) (key : Int) :
    Decidable (Owed loginDates claimedKeys key) :=
  inferInstanceAs (Decidable (_ ∧ _))

theorem claimKey_eq : (monthlyClaimState loginDates claimedKeys today).claimKey =
    if Owed loginDates claimedKeys (monthlyPeriodStart today) then some (monthlyPeriodStart today)
    else if monthlyInGraceWindow today = true ∧
        Owed loginDates claimedKeys (monthlyPriorPeriodKey today) then
      some (monthlyPriorPeriodKey today)
    else none := by
  simp only [monthlyClaimState, Owed, Bool.and_eq_true, Bool.not_eq_true', decide_eq_true_eq,
    decide_eq_false_iff_not, and_assoc]
  rfl

theorem claimKey_iff :
    (monthlyClaimState (upTo today loginDates) claimedKeys today).claimKey = some period ↔
      InWindow loginDates claimedKeys today period := by
  have hcurrent := monthlyPeriodStart_le today
  have hperiod := monthlyPriorPeriodKey_eq today
  rw [claimKey_eq]
  constructor
  · intro h
    split at h
    · rename_i howed
      cases h
      refine ⟨?_, howed.2, unlocked_iff.mpr howed.1, ?_⟩
      · simp only [monthlyPeriodStart, monthlyPeriodLengthDays]
        omega
      · unfold graceEnd monthlyClaimGraceDays
        omega
    · split at h
      · rename_i hgrace
        cases h
        have hweek := of_decide_eq_true hgrace.1
        refine ⟨?_, hgrace.2.2, unlocked_iff.mpr hgrace.2.1, ?_⟩
        · rw [hperiod]
          simp only [monthlyPeriodStart, monthlyPeriodLengthDays]
          omega
        · unfold graceEnd
          omega
      · cases h
  · rintro ⟨hstart, hunclaimed, hunlocked, hend⟩
    have hreached := unlocked_iff.mp hunlocked
    have hbegun : period ≤ today := by
      have hdays := hreached.trans count_le_days
      unfold monthlyLoginDaysRequired at hdays
      omega
    rcases period_cases hstart hbegun hend with hcur | ⟨hprior, hgrace⟩
    · rw [← hcur, if_pos ⟨hreached, hunclaimed⟩]
    · -- in the grace of the prior period the current one cannot have unlocked
      have hlocked : ¬ Owed (upTo today loginDates) claimedKeys (monthlyPeriodStart today) := by
        intro howed
        rw [not_inGrace howed.1] at hgrace
        cases hgrace
      rw [if_neg hlocked, ← hprior, if_pos ⟨hgrace, hreached, hunclaimed⟩]

end

/-! ## Claims in a row -/

structure MonthlyClaim where
  today : Int
  loginDates : List (Option Int)
  deriving DecidableEq, Repr

/-- What is on record of an account's monthly claims: the claimed keys, and the keys in the
order in which the claims took them. -/
structure MonthlyRecord where
  claimedKeys : List Int
  taken : List Int
  deriving DecidableEq, Repr

def MonthlyRecord.claim (r : MonthlyRecord) (c : MonthlyClaim) : Option MonthlyRecord :=
  match (monthlyClaimState c.loginDates r.claimedKeys c.today).claimKey with
  | some key => some ⟨key :: r.claimedKeys, key :: r.taken⟩
  | none => none

theorem claimKey_unclaimed {loginDates : List (Option Int)} {claimedKeys : List Int}
    {today key : Int} (h : (monthlyClaimState loginDates claimedKeys today).claimKey = some key) :
    key ∉ claimedKeys := by
  rw [claimKey_eq] at h
  split at h
  · rename_i howed
    cases h
    exact howed.2
  · split at h
    · rename_i hgrace
      cases h
      exact hgrace.2.2
    · cases h

structure MonthlyRecord.Sound (r : MonthlyRecord) : Prop where
  once : r.taken.Nodup
  recorded : ∀ key ∈ r.taken, key ∈ r.claimedKeys

theorem MonthlyRecord.Sound.claim {r r' : MonthlyRecord} {c : MonthlyClaim} (hr : r.Sound)
    (h : r.claim c = some r') : r'.Sound := by
  unfold MonthlyRecord.claim at h
  split at h
  · rename_i key hkey
    cases h
    have hfresh := claimKey_unclaimed hkey
    refine ⟨List.nodup_cons.mpr ⟨fun hmem => hfresh (hr.recorded key hmem), hr.once⟩, ?_⟩
    intro k hk
    rcases List.mem_cons.mp hk with rfl | hk
    · exact List.mem_cons_self
    · exact List.mem_cons_of_mem _ (hr.recorded k hk)
  · cases h

/-- The windows of the monthly periods. With the logins up to today, the claim key is the one
period that is earned, unclaimed and inside its window; and whatever the days and logins of a
sequence of claims, no period is taken twice. -/
theorem monthly_windows :
    (∀ (loginDates : List (Option Int)) (claimedKeys : List Int) (today : Int),
      (∀ d ∈ loginDates.reduceOption, d ≤ today) →
        (∀ day ≤ today, ∀ period,
          (monthlyClaimState (upTo day loginDates) claimedKeys day).claimKey = some period ↔
            InWindow loginDates claimedKeys day period) ∧
        (∀ period, (monthlyClaimState loginDates claimedKeys today).claimKey = some period ↔
          InWindow loginDates claimedKeys today period) ∧
        ∀ period period', InWindow loginDates claimedKeys today period →
          InWindow loginDates claimedKeys today period' → period = period') ∧
    ∀ (claimedKeys : List Int) (claims : List MonthlyClaim) (r : MonthlyRecord),
      exec MonthlyRecord.claim ⟨claimedKeys, []⟩ claims = some r → r.taken.Nodup := by
  refine ⟨fun loginDates claimedKeys today hpast => ?_, fun claimedKeys claims r hrun => ?_⟩
  · have hnow := fun period => @claimKey_iff loginDates claimedKeys today period
    rw [upTo_of_past hpast] at hnow
    refine ⟨fun day _ period => claimKey_iff, hnow, fun period period' h h' => ?_⟩
    exact Option.some.inj (((hnow period).mpr h).symm.trans ((hnow period').mpr h'))
  · have hsound := exec_invariant' (fun r c r' hr hc => hr.claim hc)
      (⟨List.nodup_nil, fun key hkey => absurd hkey List.not_mem_nil⟩ :
        MonthlyRecord.Sound ⟨claimedKeys, []⟩) hrun
    exact hsound.once

def fifteenLogins : List (Option Int) :=
  none :: (List.range 15).map (fun n => some (monthlyPeriodAnchor + (n : Nat)))

/-- The period unlocks on its fifteenth day, the claim takes it, and a second one is refused. -/
theorem monthly_windows_fifteenth :
    InWindow fifteenLogins [] 20661 20647 ∧ ¬ InWindow fifteenLogins [] 20660 20647 ∧
      ([20647] : List Int).Nodup := by
  have h := (monthly_windows.1 fifteenLogins [] 20661 (by decide))
  refine ⟨(h.2.1 20647).mp (by decide), fun hopen => ?_,
    monthly_windows.2 [] [⟨20661, fifteenLogins⟩] ⟨[20647], [20647]⟩ (by decide)⟩
  exact absurd ((h.1 20660 (by decide) 20647).mpr hopen) (by decide)

end LastSietch.Rewards
