import Mathlib.Data.Char
import Mathlib.Data.List.Sort
import LastSietch.Events.Store
import LastSietch.Lib.Last
import LastSietch.Lib.Runs

/-!
# The windows on the game host

`event-effect-worker`: the recorded windows of the live effects, the jobs that open and end one, and
the assert timer, which goes through the windows in the order of their file names. Every ServerExec
reaches the pods that it is routed to.
-/

namespace LastSietch.Events.Windows

open Runs (exec Along along_iff)

/-! ## Settings, pods and windows -/

structure Settings where
  on : List (String × String)
  off : List (String × String)

def LIVE : Effect → Option Settings
  | .specXp => some
    ⟨[("dw.LandsraadMissionRewardMultiplierSpecializationXP", "2.0")],
      [("dw.LandsraadMissionRewardMultiplierSpecializationXP", "1.0")]⟩
  | .harvest => some
    ⟨[("Dune.GlobalMiningOutputMultiplier", "2.0"),
        ("Dune.GlobalVehicleMiningOutputMultiplier", "2.0")],
      [("Dune.GlobalMiningOutputMultiplier", "1.0"),
        ("Dune.GlobalVehicleMiningOutputMultiplier", "1.0")]⟩
  | .none_ | .xp | .crafting => none

def DEADMAN_GRACE_S : Int := 1800

/-- `SCOPE_POD`, for the one scope that is not the fleet. -/
def SCOPE_POD : String := "-sg-survival-1-pod-33"

/-- A file of `WINDOW_DIR`, with the number that its name is of. -/
structure Window where
  id : Nat
  effect : Effect
  scope : Scope
  stop : Int
  deriving DecidableEq

def Window.name (w : Window) : List Char := Nat.toDigits 10 w.id

abbrev Cvars := String → String → String

structure Job where
  id : Nat
  phase : String
  ok : Bool
  deriving DecidableEq

/-- `enabled` is the kill switch, and `pods` are the game pods that run. -/
structure Host where
  enabled : Bool
  pods : List String
  windows : Table Window Window.name
  cvars : Cvars
  jobs : List Job

namespace Host

def targetPods (h : Host) : Scope → List String
  | .fleet => h.pods
  | .amtal => h.pods.filter (fun p => SCOPE_POD.toList.isSuffixOf p.toList)

def setCvars (values : List (String × String)) (scope : Scope) (h : Host) : Host :=
  { h with cvars := fun pod name =>
    if pod ∈ h.targetPods scope then (values.lookup name).getD (h.cvars pod name)
    else h.cvars pod name }

/-- `readback`: every target pod has every value, and there is one. -/
def readback (values : List (String × String)) (scope : Scope) (h : Host) : Bool :=
  h.targetPods scope ≠ [] ∧
    ∀ pod ∈ h.targetPods scope, ∀ c ∈ values, h.cvars pod c.1 = c.2

def baselineCheck (s : Settings) (scope : Scope) (h : Host) : Bool :=
  h.targetPods scope ≠ [] ∧ ∀ pod ∈ h.targetPods scope, ∀ c ∈ s.on,
    h.cvars pod c.1 = c.2 ∨ s.off.lookup c.1 = some (h.cvars pod c.1)

def writeJob (id : Nat) (phase : String) (ok : Bool) (h : Host) : Host :=
  { h with jobs := ⟨id, phase, ok⟩ :: h.jobs }

/-- `windows`: the live ones, sorted by the names of their files. -/
def sortedWindows (h : Host) : List Window :=
  (h.windows.rows.filter (fun w => (LIVE w.effect).isSome)).insertionSort
    (fun w w' => w.name ≤ w'.name)

def removeWindow (w : Window) (h : Host) : Host :=
  { h with windows := h.windows.filter (fun w' => w'.name ≠ w.name) }

/-- `run_live` of a start. -/
def runStart (s : Settings) (w : Window) (h : Host) : Host :=
  if h.baselineCheck s w.scope then
    let h := h.setCvars s.on w.scope
    if h.readback s.on w.scope then { h with windows := h.windows.put w }
    else h.setCvars s.off w.scope
  else h

/-- `run_live` of an end, whose arguments name the effect and the scope. -/
def runEnd (s : Settings) (w : Window) (h : Host) : Host :=
  (h.removeWindow w).setCvars s.off w.scope

/-- One turn of the loop of `do_assert`. -/
def assertWindow (now : Int) (h : Host) (w : Window) : Host :=
  match LIVE w.effect with
  | none => h
  | some s =>
    if now < w.stop then
      let h := h.setCvars s.on w.scope
      h.writeJob w.id "assert" (h.readback s.on w.scope)
    else if w.stop + DEADMAN_GRACE_S ≤ now then
      let h := h.runEnd s w
      h.writeJob w.id "end" (h.readback s.off w.scope)
    else h

def doAssert (now : Int) (h : Host) : Host :=
  if h.enabled then h.sortedWindows.foldl (assertWindow now) h else h

def Follows (now : Int) (h : Host) : Prop :=
  ∀ w ∈ h.windows, now < w.stop → ∀ s, LIVE w.effect = some s →
    ∀ pod ∈ h.targetPods w.scope, ∀ c ∈ s.on, h.cvars pod c.1 = c.2

end Host

def Window.acts (now : Int) (w : Window) : Prop :=
  now < w.stop ∨ w.stop + DEADMAN_GRACE_S ≤ now

instance (now : Int) (w : Window) : Decidable (w.acts now) := inferInstanceAs (Decidable (_ ∨ _))

/-- Wherever a window is open, each window of its effect that is past its dead-man time there has
an open one after it, in the order of their names. -/
def Host.Ordered (now : Int) (h : Host) : Prop :=
  ∀ w ∈ h.windows, now < w.stop → (LIVE w.effect).isSome = true → ∀ pod ∈ h.targetPods w.scope,
    ∀ d ∈ h.windows, d.effect = w.effect → d.stop + DEADMAN_GRACE_S ≤ now →
      pod ∈ h.targetPods d.scope → ∃ w' ∈ h.windows, w'.effect = w.effect ∧ now < w'.stop ∧
        pod ∈ h.targetPods w'.scope ∧ d.name < w'.name

/-! ## What an assert leaves -/

section Assert

variable {now : Int} {h : Host} {w : Window} {e e' : Effect} {s s' : Settings}
  {c : String × String} {pod : String}

theorem live_lookup (he : LIVE e = some s) (he' : LIVE e' = some s') (hc : c ∈ s.on) :
    s'.on.lookup c.1 = (if e' = e then some c.2 else none) ∧
      s'.off.lookup c.1 = (if e' = e then some "1.0" else none) ∧ c.2 = "2.0" := by
  cases e <;> cases he <;> cases e' <;> cases he' <;>
    simp only [List.mem_cons, List.not_mem_nil, or_false] at hc <;>
    rcases hc with rfl | rfl <;> decide

theorem mem_sortedWindows :
    w ∈ h.sortedWindows ↔ w ∈ h.windows ∧ (LIVE w.effect).isSome = true := by
  simp [Host.sortedWindows, Table.mem_def]

theorem sortedWindows_sorted (h : Host) :
    h.sortedWindows.Pairwise (fun w w' => w.name < w'.name) := by
  have hnodup : (h.sortedWindows.map Window.name).Nodup := by
    refine ((List.perm_insertionSort _ _).map Window.name).nodup_iff.mpr ?_
    exact h.windows.unique.sublist (List.filter_sublist.map _)
  have hne : h.sortedWindows.Pairwise (fun w w' => w.name ≠ w'.name) := List.pairwise_map.mp hnodup
  have htotal : Std.Total (fun w w' : Window => w.name ≤ w'.name) := ⟨fun w w' => le_total _ _⟩
  have htrans : IsTrans Window (fun w w' => w.name ≤ w'.name) := ⟨fun _ _ _ => le_trans⟩
  have hle : h.sortedWindows.Pairwise (fun w w' => w.name ≤ w'.name) :=
    List.pairwise_insertionSort _ _
  exact hle.imp₂ (fun _ _ hle hne => lt_of_le_of_ne hle hne) hne

def touches (now : Int) (h : Host) (e : Effect) (pod : String) (w : Window) : Bool :=
  w.effect = e ∧ pod ∈ h.targetPods w.scope ∧ w.acts now

theorem setCvars_apply (values : List (String × String)) (scope : Scope) (h : Host)
    (pod name : String) : (h.setCvars values scope).cvars pod name =
      if pod ∈ h.targetPods scope then (values.lookup name).getD (h.cvars pod name)
      else h.cvars pod name := rfl

theorem assertWindow_pods (now : Int) (h : Host) (w : Window) :
    (h.assertWindow now w).pods = h.pods := by
  unfold Host.assertWindow
  split
  · rfl
  · split
    · rfl
    · split <;> rfl

theorem targetPods_congr {h h' : Host} (hpods : h'.pods = h.pods) (scope : Scope) :
    h'.targetPods scope = h.targetPods scope := by
  cases scope <;> simp [Host.targetPods, hpods]

/-- One window, seen from a cvar of `e` on one pod. -/
theorem cvars_assertWindow (he : LIVE e = some s) (hc : c ∈ s.on) (pod : String) (w : Window) :
    (h.assertWindow now w).cvars pod c.1 =
      if touches now h e pod w then (if now < w.stop then "2.0" else "1.0")
      else h.cvars pod c.1 := by
  unfold Host.assertWindow touches
  cases he' : LIVE w.effect with
  | none =>
    have hother : w.effect ≠ e := fun heq => by rw [heq, he] at he'; cases he'
    simp [hother]
  | some s' =>
    obtain ⟨hon, hoff, hvalue⟩ := live_lookup he he' hc
    have hset : ∀ {g : Host} {values : List (String × String)} {v : String},
        g.pods = h.pods → g.cvars = h.cvars →
        values.lookup c.1 = (if w.effect = e then some v else none) →
        (g.setCvars values w.scope).cvars pod c.1 =
          if w.effect = e ∧ pod ∈ h.targetPods w.scope then v else h.cvars pod c.1 := by
      intro g values v hpods hcvars hlookup
      rw [setCvars_apply, targetPods_congr hpods, hcvars, hlookup]
      by_cases hw : w.effect = e <;> by_cases hpod : pod ∈ h.targetPods w.scope <;> simp [hw, hpod]
    by_cases hopen : now < w.stop
    · have hopened := hset rfl rfl (hvalue ▸ hon)
      simpa [hopen, Window.acts, Host.writeJob] using hopened
    · by_cases hdead : w.stop + DEADMAN_GRACE_S ≤ now
      · have hended := hset (g := h.removeWindow w) rfl rfl hoff
        simpa [hopen, hdead, Window.acts, Host.writeJob, Host.runEnd] using hended
      · simp [hopen, hdead, Window.acts]

theorem assertWindows_pods (now : Int) (ws : List Window) (h : Host) :
    (ws.foldl (Host.assertWindow now) h).pods = h.pods := by
  induction ws generalizing h with
  | nil => rfl
  | cons w ws ih => exact (ih _).trans (assertWindow_pods now h w)

theorem touches_congr {h h' : Host} (hpods : h'.pods = h.pods) :
    touches now h' e pod = touches now h e pod := by
  funext w
  unfold touches
  rw [targetPods_congr hpods]

theorem cvars_assertWindows (now : Int) (he : LIVE e = some s) (hc : c ∈ s.on) (pod : String)
    (ws : List Window) (h : Host) : (ws.foldl (Host.assertWindow now) h).cvars pod c.1 =
      ((Last.last (touches now h e pod) ws).map
        (fun w => if now < w.stop then "2.0" else "1.0")).getD (h.cvars pod c.1) := by
  rw [← Last.foldl_last]
  induction ws generalizing h with
  | nil => rfl
  | cons w ws ih =>
    rw [List.foldl_cons, List.foldl_cons, ih, cvars_assertWindow he hc,
      touches_congr (assertWindow_pods now h w)]

theorem mem_assertWindow {w' : Window} : w' ∈ (h.assertWindow now w).windows ↔ w' ∈ h.windows ∧
    ¬ ((LIVE w.effect).isSome = true ∧ w.stop ≤ now ∧ w.stop + DEADMAN_GRACE_S ≤ now ∧
      w'.name = w.name) := by
  unfold Host.assertWindow
  split
  · rename_i hnone
    simp [hnone]
  · rename_i s' hsome
    split
    · rename_i hopen
      have hstop : ¬ w.stop ≤ now := Int.not_le.mpr hopen
      simp [Host.writeJob, Host.setCvars, hstop]
    · rename_i hclosed
      have hstop : w.stop ≤ now := Int.not_lt.mp hclosed
      split
      · rename_i hdead
        simp [Host.writeJob, Host.runEnd, Host.removeWindow, Host.setCvars, Table.mem_filter, hsome,
          hstop, hdead]
      · rename_i halive
        simp [halive]

theorem windows_of_assertWindows {ws : List Window}
    (hw : w ∈ (ws.foldl (Host.assertWindow now) h).windows) : w ∈ h.windows := by
  induction ws generalizing h with
  | nil => exact hw
  | cons d ws ih => exact (mem_assertWindow.mp (ih hw)).1

theorem open_stays {ws : List Window} (hw : w ∈ h.windows) (hopen : now < w.stop)
    (hsame : ∀ d ∈ ws, d.name = w.name → d = w) :
    w ∈ (ws.foldl (Host.assertWindow now) h).windows := by
  induction ws generalizing h with
  | nil => exact hw
  | cons d ws ih =>
    obtain ⟨hd, hsame⟩ := List.forall_mem_cons.mp hsame
    refine ih (mem_assertWindow.mpr ⟨hw, ?_⟩) hsame
    rintro ⟨-, hclosed, -, hname⟩
    rw [hd hname.symm] at hclosed
    exact Int.not_lt.mpr hclosed hopen

/-- Where the effect is live, the last window to touch a pod is open exactly when each that is past
its dead-man time has an open one after it. -/
theorem last_open_iff (he : (LIVE e).isSome = true) (pod : String) :
    (∀ x, Last.last (touches now h e pod) h.sortedWindows = some x → decide (now < x.stop) = true) ↔
      ∀ d ∈ h.windows, d.effect = e → d.stop + DEADMAN_GRACE_S ≤ now →
        pod ∈ h.targetPods d.scope → ∃ w' ∈ h.windows, w'.effect = e ∧ now < w'.stop ∧
          pod ∈ h.targetPods w'.scope ∧ d.name < w'.name := by
  have hgrace : ∀ d : Window, d.stop + DEADMAN_GRACE_S ≤ now → ¬ now < d.stop := by
    intro d hd hlt
    unfold DEADMAN_GRACE_S at hd
    omega
  rw [Last.last_all_iff (sortedWindows_sorted h) (fun a b hlt => not_lt_of_gt hlt)]
  constructor
  · intro hlast d hd hde hdead hpod
    have hlive : (LIVE d.effect).isSome = true := hde.symm ▸ he
    obtain ⟨w', hw', htouch, hopen, hlt⟩ := hlast d (mem_sortedWindows.mpr ⟨hd, hlive⟩)
      (decide_eq_true ⟨hde, hpod, Or.inr hdead⟩) (decide_eq_false (hgrace d hdead))
    obtain ⟨hwe, hwpod, -⟩ := of_decide_eq_true htouch
    exact ⟨w', (mem_sortedWindows.mp hw').1, hwe, of_decide_eq_true hopen, hwpod, hlt⟩
  · intro hordered d hd htouch hclosed
    obtain ⟨hde, hpod, hacts⟩ := of_decide_eq_true htouch
    have hdead := hacts.resolve_left (of_decide_eq_false hclosed)
    obtain ⟨w', hw', hwe, hopen, hwpod, hlt⟩ :=
      hordered d (mem_sortedWindows.mp hd).1 hde hdead hpod
    exact ⟨w', mem_sortedWindows.mpr ⟨hw', hwe.symm ▸ he⟩,
      decide_eq_true ⟨hwe, hwpod, Or.inl hopen⟩, decide_eq_true hopen, hlt⟩

theorem cvars_doAssert (henabled : h.enabled = true) (hw : w ∈ h.windows) (hopen : now < w.stop)
    (hs : LIVE w.effect = some s) (hpod : pod ∈ h.targetPods w.scope) :
    (∀ c ∈ s.on, (h.doAssert now).cvars pod c.1 = c.2) ↔ ∀ x,
      Last.last (touches now h w.effect pod) h.sortedWindows = some x →
        decide (now < x.stop) = true := by
  have hlive : (LIVE w.effect).isSome = true := by rw [hs]; rfl
  obtain ⟨x, hx⟩ := Last.last_isSome (p := touches now h w.effect pod)
    (mem_sortedWindows.mpr ⟨hw, hlive⟩) (decide_eq_true ⟨rfl, hpod, Or.inl hopen⟩)
  have hvalue : ∀ c ∈ s.on, (h.doAssert now).cvars pod c.1 = c.2 ↔ now < x.stop := by
    intro c hc
    have hcvars := cvars_assertWindows now hs hc pod h.sortedWindows h
    rw [hx] at hcvars
    unfold Host.doAssert
    rw [if_pos henabled, hcvars, (live_lookup hs hs hc).2.2]
    by_cases hlt : now < x.stop <;> simp [hlt]
  have hsome : ∃ c, c ∈ s.on := by
    cases he : w.effect <;> rw [he] at hs <;> cases hs <;> exact ⟨_, List.mem_cons_self ..⟩
  rw [hx]
  constructor
  · rintro hall y hy
    cases hy
    obtain ⟨c, hc⟩ := hsome
    exact decide_eq_true ((hvalue c hc).mp (hall c hc))
  · exact fun hall c hc => (hvalue c hc).mpr (of_decide_eq_true (hall x rfl))

theorem follows_doAssert (henabled : h.enabled = true) :
    (h.doAssert now).Follows now ↔ h.Ordered now := by
  have hdo : h.doAssert now = h.sortedWindows.foldl (Host.assertWindow now) h := if_pos henabled
  have hpods : (h.doAssert now).pods = h.pods := hdo ▸ assertWindows_pods now _ h
  constructor
  · intro hfollows w hw hopen hlive pod hpod
    obtain ⟨s, hs⟩ := Option.isSome_iff_exists.mp hlive
    have hstays : w ∈ (h.doAssert now).windows := by
      rw [hdo]
      exact open_stays hw hopen (fun d hd hname =>
        Table.eq_of_key_eq (mem_sortedWindows.mp hd).1 hw hname)
    refine (last_open_iff hlive pod).mp ((cvars_doAssert henabled hw hopen hs hpod).mp ?_)
    exact hfollows w hstays hopen s hs pod ((targetPods_congr hpods w.scope).symm ▸ hpod)
  · intro hordered w hw hopen s hs pod hpod
    have hw : w ∈ h.windows := windows_of_assertWindows (hdo ▸ hw)
    have hlive : (LIVE w.effect).isSome = true := by rw [hs]; rfl
    have hpod : pod ∈ h.targetPods w.scope := targetPods_congr hpods w.scope ▸ hpod
    exact (cvars_doAssert henabled hw hopen hs hpod).mpr
      ((last_open_iff hlive pod).mpr (hordered w hw hopen hlive pod hpod))

end Assert

/-! ## Runs -/

structure Site where
  host : Host
  asserted : Option Int

inductive Act
  | assert (now : Int)
  | start (s : Settings) (w : Window) (hs : LIVE w.effect = some s)
  | end_ (s : Settings) (w : Window) (hs : LIVE w.effect = some s)
  | drift (pods : List String) (cvars : Cvars)
  | enable (on : Bool)

def step (t : Site) : Act → Option Site
  | .assert now => some ⟨t.host.doAssert now, some now⟩
  | .start s w _ => some ⟨t.host.runStart s w, none⟩
  | .end_ s w _ => some ⟨t.host.runEnd s w, none⟩
  | .drift pods cvars => some ⟨{ t.host with pods, cvars }, none⟩
  | .enable on => some ⟨{ t.host with enabled := on }, none⟩

def Site.Good (t : Site) : Prop := ∀ now ∈ t.asserted, t.host.Follows now

def InOrder (t : Site) : Act → Prop
  | .assert now =>
    if t.host.enabled then t.host.Ordered now else t.host.Follows now
  | _ => True

theorem step_good (t : Site) (a : Act) :
    InOrder t a ↔ ∀ t', step t a = some t' → t'.Good := by
  have hquiet : ∀ host : Host, (⟨host, none⟩ : Site).Good := fun host now hnow => by cases hnow
  cases a with
  | assert now =>
    have hgood : (⟨t.host.doAssert now, some now⟩ : Site).Good ↔
        (t.host.doAssert now).Follows now :=
      ⟨fun h => h now rfl, fun h now' hnow => Option.some.inj hnow ▸ h⟩
    simp only [InOrder, step, Option.some.injEq, forall_eq']
    rw [hgood]
    by_cases henabled : t.host.enabled = true
    · rw [if_pos henabled]
      exact (follows_doAssert henabled).symm
    · rw [if_neg henabled]
      unfold Host.doAssert
      rw [if_neg henabled]
  | start s w hs => exact iff_of_true trivial (fun t' ht => by cases ht; exact hquiet _)
  | end_ s w hs => exact iff_of_true trivial (fun t' ht => by cases ht; exact hquiet _)
  | drift pods cvars => exact iff_of_true trivial (fun t' ht => by cases ht; exact hquiet _)
  | enable on => exact iff_of_true trivial (fun t' ht => by cases ht; exact hquiet _)

/-- All through a run of asserts, starts, ends and whatever becomes of the pods, each assert leaves
the effects of the open windows on, exactly when it comes upon the windows in order. -/
theorem effects_follow_iff (host : Host) (acts : List Act) :
    (∀ ds t, ds <+: acts → exec step ⟨host, none⟩ ds = some t → t.Good) ↔
      Along step InOrder ⟨host, none⟩ acts :=
  along_iff (I := Site.Good) (fun _ h => h) (fun t a _ => step_good t a)
    (fun t a t' _ hguard hstep => (step_good t a).mp hguard t' hstep)
    (fun now hnow => by cases hnow)

def twoWindows : Host where
  enabled := true
  pods := ["bg-sg-survival-1-pod-33", "bg-sg-survival-1-pod-2"]
  windows := ⟨[⟨7, .harvest, .fleet, 1800003600⟩, ⟨8, .harvest, .fleet, 1799996400⟩], by decide⟩
  cvars := fun _ _ => "2.0"
  jobs := []

/-- The assert sets the open window's effect, and then takes it back. -/
theorem deadman_resets : ¬ (twoWindows.doAssert 1800000000).Follows 1800000000 := by
  have hopen : (⟨7, .harvest, .fleet, 1800003600⟩ : Window) ∈
      (twoWindows.doAssert 1800000000).windows.rows := by decide
  have hpod : "bg-sg-survival-1-pod-2" ∈
      (twoWindows.doAssert 1800000000).targetPods .fleet := by decide
  have hreset : (twoWindows.doAssert 1800000000).cvars "bg-sg-survival-1-pod-2"
      "Dune.GlobalMiningOutputMultiplier" = "1.0" := by decide
  intro hfollows
  have hkept := hfollows _ hopen (by decide) _ rfl _ hpod
    ("Dune.GlobalMiningOutputMultiplier", "2.0") (List.mem_cons_self ..)
  exact absurd (hreset.symm.trans hkept) (by decide)

end LastSietch.Events.Windows
