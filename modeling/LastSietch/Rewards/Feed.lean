import LastSietch.Rewards.Ramp

/-!
# The windowed login feed

The portal derives streak and claims from the logins of the last sixty days. The run that
ended yesterday is then counted up to sixty, so the feed puts today at the rung of the full
history if and only if that run is no longer, or as long modulo seven.

* `feed_agrees`: the exact condition under which every claimable day gets the position and
  the amount of the full history.
* `longRun_disagrees`: a run of sixty-one days does not meet it.
-/

namespace LastSietch.Rewards

open Streak

/-- The window of `login_days`. -/
def feedDays : Int := 60

/-- The login days that the feed of `today` shows. -/
def feed (logins : List Int) (today : Int) : List Int :=
  logins.filter (fun d => today - feedDays ≤ d)

/-- The cell that shows the date `d` in the grid of the current cycle. -/
def cellOn (loginDates dailyClaimed : List Int) (today d : Int) : Option Cell :=
  (cycleCells loginDates dailyClaimed today).find? (fun cell =>
    cellDate today (computeStreak loginDates today).todayCycleDay cell.cycleDay = d)

/-- `d` is in the claim pool. -/
def Claimable (loginDates dailyClaimed : List Int) (today d : Int) : Prop :=
  d ∈ (claimPool loginDates dailyClaimed today).2.map Prod.fst

instance (s claimed : List Int) (today d : Int) : Decidable (Claimable s claimed today d) :=
  inferInstanceAs (Decidable (d ∈ _))

/-- The feed gives `d` the position and the amount that the full history gives it. -/
structure FeedAgrees (logins claimed : List Int) (today d : Int) : Prop where
  position : cycleDay (runEnding (feed logins today) d) = cycleDay (runEnding logins d)
  amount : dailyAmount (runEnding (feed logins today) d) = dailyAmount (runEnding logins d)
  pool : (claimPool (feed logins today) claimed today).2.lookup d =
    (claimPool logins claimed today).2.lookup d
  cell : cellOn (feed logins today) claimed today d = cellOn logins claimed today d

section

variable {logins claimed : List Int} {today d : Int}

theorem mem_feed : d ∈ feed logins today ↔ d ∈ logins ∧ today - 60 ≤ d := by
  rw [feed, List.mem_filter]
  exact and_congr_right (fun _ => decide_eq_true_iff)

theorem run_feed (logins : List Int) (today : Int) :
    run (feed logins today) (today - 1) = min (run logins (today - 1)) 60 := by
  have hrun := run_from logins (today - feedDays) (today - 1)
  have hdays : (today - 1 + 1 - (today - feedDays)).toNat = 60 := by
    rw [feedDays]
    omega
  rw [hdays] at hrun
  exact hrun

theorem Claimable.back {s : List Int} (h : Claimable s claimed today d) :
    ∃ x : Nat, d = today - x ∧ d ∈ s ∧ x ≤ 6 ∧ x ≤ run s (today - 1) := by
  obtain ⟨⟨e, amount⟩, hmem, rfl⟩ := List.mem_map.mp h
  obtain ⟨p, hlow, hp, hd, hs, -⟩ := mem_claimPool.mp hmem
  obtain ⟨x, hdate, -, hx, hback⟩ := cellDate_back hlow hp
  exact ⟨x, hd.trans hdate, hs, hx, hback⟩

theorem pool_feed (hpos : (computeStreak (feed logins today) today).todayCycleDay =
      (computeStreak logins today).todayCycleDay) (claimed : List Int) :
    claimPool (feed logins today) claimed today = claimPool logins claimed today := by
  have hentries : (claimPool (feed logins today) claimed today).2 =
      (claimPool logins claimed today).2 := by
    simp only [claimPool]
    rw [hpos]
    apply List.filterMap_congr
    rintro ⟨p, e⟩ hpe
    obtain ⟨hlow, hp, he⟩ := mem_cycleWindow.mp hpe
    obtain ⟨x, hdate, -, hx, -⟩ := cellDate_back hlow hp
    have hin : e ∈ feed logins today ↔ e ∈ logins := by
      rw [mem_feed, he, hdate]
      constructor
      · exact And.left
      · intro hmem
        exact ⟨hmem, by omega⟩
    simp only [hin]
  exact Prod.ext (congrArg (fun l => (l.map Prod.snd).sum) hentries) hentries

theorem cells_feed (hpos : (computeStreak (feed logins today) today).todayCycleDay =
      (computeStreak logins today).todayCycleDay) (claimed : List Int) :
    cycleCells (feed logins today) claimed today = cycleCells logins claimed today := by
  have hcycle : (computeStreak logins today).todayCycleDay ≤ 7 := by
    rw [todayCycleDay_eq]
    omega
  have htoday : (computeStreak (feed logins today) today).loggedToday =
      (computeStreak logins today).loggedToday := by
    show decide (today ∈ feed logins today) = decide (today ∈ logins)
    rw [decide_eq_decide, mem_feed]
    constructor
    · exact And.left
    · intro hmem
      exact ⟨hmem, by omega⟩
  simp only [cycleCells, cycleCell]
  rw [hpos, htoday]
  apply List.map_congr_left
  intro i _
  have hin : cellDate today (computeStreak logins today).todayCycleDay (i + 1) ∈
      feed logins today ↔
      cellDate today (computeStreak logins today).todayCycleDay (i + 1) ∈ logins := by
    rw [mem_feed]
    constructor
    · exact And.left
    · intro hmem
      refine ⟨hmem, ?_⟩
      rw [cellDate]
      omega
  simp only [hin]

/-- The windowed feed pays like the full history for exactly those runs that it counts in
full or cuts by whole cycles. -/
theorem feed_agrees (hd : Claimable (feed logins today) claimed today d ∨
      Claimable logins claimed today d) :
    FeedAgrees logins claimed today d ↔
      runEnding logins (today - 1) ≤ 60 ∨ runEnding logins (today - 1) % 7 = 4 := by
  have hfeed := run_feed logins today
  -- both histories see the day, `x` days back in the run that ended yesterday
  obtain ⟨x, rfl, hlog, hx, hback⟩ : ∃ x : Nat, d = today - x ∧ d ∈ logins ∧ x ≤ 6 ∧
      x ≤ run logins (today - 1) := by
    rcases hd with h | h
    · obtain ⟨x, rfl, hmem, hx, hback⟩ := h.back
      rw [hfeed] at hback
      exact ⟨x, rfl, (mem_feed.mp hmem).1, hx, by omega⟩
    · exact h.back
  have hmem : today - (x : Int) ∈ feed logins today := mem_feed.mpr ⟨hlog, by omega⟩
  have hfull := run_back hback hlog
  have hwindow := run_back (by rw [hfeed]; omega) hmem
  rw [hfeed] at hwindow
  have hfull' : runEnding logins (today - x) = run logins (today - 1) - x + 1 := by
    rw [runEnding_eq]
    omega
  have hwindow' : runEnding (feed logins today) (today - x) =
      min (run logins (today - 1)) 60 - x + 1 := by
    rw [runEnding_eq]
    omega
  rw [runEnding_eq]
  constructor
  · intro h
    have hpos := h.position
    rw [hfull', hwindow', cycleDay_succ, cycleDay_succ] at hpos
    omega
  · intro h
    have hposition : cycleDay (runEnding (feed logins today) (today - x)) =
        cycleDay (runEnding logins (today - x)) := by
      rw [hfull', hwindow', cycleDay_succ, cycleDay_succ]
      omega
    have hcycle : (computeStreak (feed logins today) today).todayCycleDay =
        (computeStreak logins today).todayCycleDay := by
      rw [todayCycleDay_eq, todayCycleDay_eq, hfeed]
      omega
    refine ⟨hposition, ?_, ?_, ?_⟩
    · rw [dailyAmount, dailyAmount, hposition]
    · rw [pool_feed hcycle]
    · rw [cellOn, cellOn, cells_feed hcycle, hcycle]

/-- `days` shows `s` from `since` on, up to its own last day. -/
structure Views (s : List Int) (since : Int) (days : List Int) : Prop where
  sound : ∀ e ∈ days, e ∈ s ∧ since ≤ e
  whole : ∀ e ∈ s, since ≤ e → ∀ e' ∈ days, e ≤ e' → e ∈ days

theorem views_feed (s : List Int) (today : Int) : Views s (today - feedDays) (feed s today) where
  sound e he := by
    obtain ⟨hmem, hge⟩ := List.mem_filter.mp he
    exact ⟨hmem, of_decide_eq_true hge⟩
  whole e he hge _ _ _ := List.mem_filter.mpr ⟨he, decide_eq_true hge⟩

namespace Views

variable {s days : List Int} {since : Int}

theorem run_eq (h : Views s since days) (hd : d ∈ days) :
    run days d = min (run s d) (d + 1 - since).toNat := by
  rw [← run_from]
  apply run_congr
  intro e he
  rw [List.mem_filter, decide_eq_true_iff]
  constructor
  · exact h.sound e
  · rintro ⟨hmem, hge⟩
    exact h.whole e hmem hge d hd he

/-- A pool computed from an older view still pays the full history's amounts, if the view
reaches back over the whole run that ended yesterday or cuts whole cycles off it. -/
theorem amount_eq (h : Views s since days) {amount : Int}
    (hpool : (d, amount) ∈ (claimPool days claimed today).2)
    (hfits : run s (today - 1) ≤ (today - since).toNat ∨
      run s (today - 1) % 7 = (today - since).toNat % 7) :
    d ∈ s ∧ amount = dailyAmount (runEnding s d) := by
  rw [amount_claimPool hpool]
  have hclaim : Claimable days claimed today d := List.mem_map.mpr ⟨_, hpool, rfl⟩
  obtain ⟨x, rfl, hmem, -, hback⟩ := hclaim.back
  obtain ⟨hs, hsince⟩ := h.sound _ hmem
  have hmono := run_mono (fun e he => (h.sound e he).1) (today - 1)
  have hfull := run_back (le_trans hback hmono) hs
  have hview := h.run_eq hmem
  have hn : runEnding s (today - x) = run s (today - 1) - x + 1 := by
    rw [runEnding_eq]
    omega
  have hn' : runEnding days (today - x) =
      min (run s (today - 1)) (today - since).toNat - x + 1 := by
    rw [runEnding_eq]
    omega
  refine ⟨hs, ?_⟩
  rw [dailyAmount, dailyAmount, hn, hn', cycleDay_succ, cycleDay_succ]
  congr 1
  omega

end Views

end

/-! A login on each of the days 1 to 62 and no claim: on day 62 the run that ended yesterday
is 61 days long. -/

def dailyLogins (n : Nat) : List Int := (List.range n).map (fun i : Nat => (i : Int) + 1)

theorem longRun_disagrees :
    ¬ ∀ (logins claimed : List Int) (today d : Int),
      Claimable (feed logins today) claimed today d ∨ Claimable logins claimed today d →
      FeedAgrees logins claimed today d := by
  intro hclaim
  have hagrees := hclaim (dailyLogins 62) [] 62 62 (Or.inr (by decide))
  have hamount := hagrees.amount
  revert hamount
  decide

theorem feed_agrees_week :
    FeedAgrees (dailyLogins 7) [] 7 5 ↔
      runEnding (dailyLogins 7) 6 ≤ 60 ∨ runEnding (dailyLogins 7) 6 % 7 = 4 :=
  feed_agrees (Or.inr (by decide))

end LastSietch.Rewards
