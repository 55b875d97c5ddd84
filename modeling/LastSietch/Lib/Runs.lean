import Mathlib.Data.List.Infix

/-!
# Runs of a labelled transition function

`step s a` is the state after action `a`, or `none` when `a` cannot be taken in `s`.
`exec step s as` takes the actions `as` in order, and `Along step guard s as` says
that every action of that run is taken in a state in which `guard` allows it.

* `exec_invariant`: a property that the first state has and every guarded step keeps
  holds at the end of every guarded run.
* `exec_invariant'` is the same without a guard, and `along_invariant` says that the property
  holds wherever the run takes an action.
* `along_iff`: where the guard is exactly what keeps the property, a run is guarded exactly when the
  property holds all through it.
* `along_congr`: guards that an invariant makes the same are the same along every run.
* `along_append`: a run of two lists is guarded when both of its parts are.
* `countAlong_le_one`: what happens at most once in every run.
* `exec_append`: a run of two lists is one run after the other.
-/

namespace LastSietch.Runs

variable {σ α : Type}

/-- The state after the actions `as`. -/
def exec (step : σ → α → Option σ) : σ → List α → Option σ
  | s, [] => some s
  | s, a :: as => (step s a).bind (fun s' => exec step s' as)

/-- Every action of the run is allowed by `guard` in the state it is taken in. -/
def Along (step : σ → α → Option σ) (guard : σ → α → Prop) : σ → List α → Prop
  | _, [] => True
  | s, a :: as => guard s a ∧ ∀ s', step s a = some s' → Along step guard s' as

variable {step : σ → α → Option σ} {guard : σ → α → Prop}

variable {s t : σ}

theorem exec_nil {s' : σ} : exec step s [] = some s' ↔ s' = s := by
  simp [exec, eq_comm]

variable {as : List α}

theorem exec_cons {s' : σ} {a : α} :
    exec step s (a :: as) = some s' ↔ ∃ m, step s a = some m ∧ exec step m as = some s' := by
  simp [exec, Option.bind_eq_some_iff]

/-- The invariant rule for guarded runs. -/
theorem exec_invariant {I : σ → Prop}
    (hstep : ∀ s a s', I s → guard s a → step s a = some s' → I s')
    {s s' : σ} {as : List α} (hs : I s) (hg : Along step guard s as)
    (hrun : exec step s as = some s') : I s' := by
  induction as generalizing s with
  | nil => exact exec_nil.mp hrun ▸ hs
  | cons a as ih =>
    obtain ⟨m, hm, hrest⟩ := exec_cons.mp hrun
    exact ih (hstep s a m hs hg.1 hm) (hg.2 m hm) hrest

/-- A run on fixed inputs and what its last state shows, by one evaluation. -/
theorem exec_shows {p : σ → Prop} [DecidablePred p] {s : σ} {as : List α}
    (h : (exec step s as).any (fun s' => decide (p s')) = true) :
    ∃ s', exec step s as = some s' ∧ p s' := by
  cases hrun : exec step s as with
  | none =>
    rw [hrun] at h
    cases h
  | some s' =>
    rw [hrun] at h
    exact ⟨s', rfl, of_decide_eq_true h⟩

theorem along_cons {a : α} :
    Along step guard s (a :: as) ↔ guard s a ∧ ∀ m, step s a = some m → Along step guard m as :=
  Iff.rfl

instance decidableAlong [∀ s a, Decidable (guard s a)] :
    (s : σ) → (as : List α) → Decidable (Along step guard s as)
  | _, [] => .isTrue trivial
  | s, a :: as =>
    match h : step s a with
    | none => decidable_of_iff (guard s a) (by simp [along_cons, h])
    | some m =>
      have := decidableAlong m as
      decidable_of_iff (guard s a ∧ Along step guard m as) (by simp [along_cons, h])

theorem along_true (s : σ) (as : List α) : Along step (fun _ _ => True) s as := by
  induction as generalizing s with
  | nil => trivial
  | cons a as ih => exact ⟨trivial, fun s' _ => ih s'⟩

/-- The invariant rule. -/
theorem exec_invariant' {I : σ → Prop} (hstep : ∀ s a s', I s → step s a = some s' → I s')
    {s s' : σ} {as : List α} (hs : I s) (hrun : exec step s as = some s') : I s' :=
  exec_invariant (fun s a s' h _ => hstep s a s' h) hs (along_true s as) hrun

variable {guard' : σ → α → Prop}

theorem along_mono (h : ∀ s a, guard s a → guard' s a) (hg : Along step guard s as) : Along step guard' s as := by
  induction as generalizing s with
  | nil => trivial
  | cons a as ih => exact ⟨h s a hg.1, fun s' hs' => ih (hg.2 s' hs')⟩

/-- A condition on every action of the run can be part of the guard. -/
theorem along_and {q : α → Prop} (hq : ∀ a ∈ as, q a)
    (hg : Along step guard s as) : Along step (fun s a => q a ∧ guard s a) s as := by
  induction as generalizing s with
  | nil => trivial
  | cons a as ih =>
    refine ⟨⟨hq a (List.mem_cons_self ..), hg.1⟩, fun s' hs' => ih ?_ (hg.2 s' hs')⟩
    exact fun b hb => hq b (List.mem_cons_of_mem a hb)

variable {I : σ → Prop}

/-- Two guards that are the same wherever `I` holds and an action can be taken, along a run that is
carried out. -/
theorem along_congr (hI : ∀ s a s', I s → step s a = some s' → I s')
    (hguard : ∀ s a s', I s → step s a = some s' → (guard s a ↔ guard' s a))
    (hs : I s) (hrun : exec step s as = some t) :
    Along step guard s as ↔ Along step guard' s as := by
  induction as generalizing s with
  | nil => exact Iff.rfl
  | cons a as ih =>
    obtain ⟨m, hm, hrest⟩ := exec_cons.mp hrun
    rw [along_cons, along_cons]
    refine and_congr (hguard s a m hs hm) (forall₂_congr fun s' hs' => ?_)
    obtain rfl := Option.some.inj (hm.symm.trans hs')
    exact ih (hI s a m hs hm) hrest

/-- An invariant holds wherever a guarded run takes an action. -/
theorem along_invariant (hstep : ∀ s a s', I s → guard s a → step s a = some s' → I s')
    (hs : I s) (hg : Along step guard s as) : Along step (fun s a => I s ∧ guard s a) s as := by
  induction as generalizing s with
  | nil => trivial
  | cons a as ih =>
    exact ⟨⟨hs, hg.1⟩, fun s' hs' => ih (hstep s a s' hs hg.1 hs') (hg.2 s' hs')⟩

/-- Where `guard` is exactly what keeps `P`, and `I` is what the guarded steps keep besides, a run
is guarded exactly when `P` holds in every state of the run. -/
theorem along_iff {I P : σ → Prop} (hI : ∀ s, I s → P s)
    (hguard : ∀ s a, I s → (guard s a ↔ ∀ s', step s a = some s' → P s'))
    (hkeep : ∀ s a s', I s → guard s a → step s a = some s' → I s') {s : σ} {as : List α}
    (hs : I s) : (∀ bs s', bs <+: as → exec step s bs = some s' → P s') ↔
      Along step guard s as := by
  induction as generalizing s with
  | nil =>
    refine iff_of_true (fun bs s' hbs hrun => ?_) trivial
    rw [List.prefix_nil.mp hbs] at hrun
    exact exec_nil.mp hrun ▸ hI s hs
  | cons a as ih =>
    constructor
    · intro h
      have hnow : guard s a := by
        refine (hguard s a hs).mpr (fun s' hs' => ?_)
        exact h [a] s' ⟨as, rfl⟩ (exec_cons.mpr ⟨s', hs', rfl⟩)
      refine ⟨hnow, fun s' hs' => (ih (hkeep s a s' hs hnow hs')).mp (fun bs s'' hbs hrun => ?_)⟩
      exact h (a :: bs) s'' ((List.prefix_cons_inj a).mpr hbs) (exec_cons.mpr ⟨s', hs', hrun⟩)
    · rintro ⟨hnow, hrest⟩ bs s'' hbs hrun
      cases bs with
      | nil => exact exec_nil.mp hrun ▸ hI s hs
      | cons b bs =>
        obtain ⟨rfl, hbs'⟩ := List.cons_prefix_cons.mp hbs
        obtain ⟨s', hs', hrun⟩ := exec_cons.mp hrun
        exact (ih (hkeep s b s' hs hnow hs')).mpr (hrest s' hs') bs s'' hbs' hrun

/-- Two guards that are the same wherever `I` holds, which the steps that they allow keep. -/
theorem along_iff_along (hguard : ∀ s a, I s → (guard s a ↔ guard' s a))
    (hkeep : ∀ s a s', I s → guard s a → step s a = some s' → I s')
    (hs : I s) : Along step guard s as ↔ Along step guard' s as := by
  induction as generalizing s with
  | nil => exact Iff.rfl
  | cons a as ih =>
    rw [along_cons, along_cons]
    constructor
    · rintro ⟨hnow, hrest⟩
      exact ⟨(hguard s a hs).mp hnow, fun m hm => (ih (hkeep s a m hs hnow hm)).mp (hrest m hm)⟩
    · rintro ⟨hnow, hrest⟩
      have hnow := (hguard s a hs).mpr hnow
      exact ⟨hnow, fun m hm => (ih (hkeep s a m hs hnow hm)).mpr (hrest m hm)⟩

/-- A run of two lists is guarded when both of its parts are. -/
theorem along_append {bs : List α} : Along step guard s (as ++ bs) ↔
    Along step guard s as ∧ ∀ m, exec step s as = some m → Along step guard m bs := by
  induction as generalizing s with
  | nil =>
    simp only [List.nil_append, exec_nil, forall_eq]
    exact ⟨fun h => ⟨trivial, h⟩, And.right⟩
  | cons a as ih =>
    simp only [List.cons_append, along_cons, ih, exec_cons]
    constructor
    · rintro ⟨hg, hrest⟩
      refine ⟨⟨hg, fun m hm => (hrest m hm).1⟩, ?_⟩
      rintro m' ⟨m, hm, hrun⟩
      exact (hrest m hm).2 m' hrun
    · rintro ⟨⟨hg, has⟩, hbs⟩
      exact ⟨hg, fun m hm => ⟨has m hm, fun m' hrun => hbs m' ⟨m, hm, hrun⟩⟩⟩

/-- In a run that is carried out, the guard is only asked where an action can be taken. -/
theorem along_enabled (hrun : exec step s as = some t) :
    Along step (fun s a => ∀ s', step s a = some s' → guard s a) s as ↔ Along step guard s as := by
  induction as generalizing s with
  | nil => exact Iff.rfl
  | cons a as ih =>
    obtain ⟨m, hm, hrest⟩ := exec_cons.mp hrun
    rw [along_cons, along_cons]
    refine and_congr ⟨fun h => h m hm, fun h _ _ => h⟩ (forall₂_congr (fun s' hs' => ?_))
    obtain rfl := Option.some.inj (hm.symm.trans hs')
    exact ih hrest

/-- `along_iff` of a run that is carried out. -/
theorem along_iff_of_exec {P : σ → Prop}
    (hguard : ∀ s a s', P s → step s a = some s' → (guard s a ↔ P s'))
    (hs : P s) (hrun : exec step s as = some t) :
    (∀ bs s', bs <+: as → exec step s bs = some s' → P s') ↔ Along step guard s as := by
  refine Iff.trans (along_iff (fun _ h => h) (fun s a hs => ?_) (fun s a s' hs hg hs' => ?_) hs)
    (along_enabled hrun)
  · exact ⟨fun h s' hs' => (hguard s a s' hs hs').mp (h s' hs'),
      fun h s' hs' => (hguard s a s' hs hs').mpr (h s' hs')⟩
  · exact (hguard s a s' hs hs').mp (hg s' hs')

/-- The number of steps of the run that are of the kind `p`. -/
def countAlong (step : σ → α → Option σ) (p : σ → σ → Prop) [∀ s m, Decidable (p s m)] :
    σ → List α → Nat
  | _, [] => 0
  | s, a :: as =>
    match step s a with
    | none => 0
    | some m => (if p s m then 1 else 0) + countAlong step p m as

section Once

variable {p : σ → σ → Prop} [∀ s m, Decidable (p s m)] {done : σ → Prop}

theorem countAlong_eq_zero (hkeep : ∀ s a m, step s a = some m → done s → done m ∧ ¬ p s m)
    {s : σ} (as : List α) (hs : done s) : countAlong step p s as = 0 := by
  induction as generalizing s with
  | nil => rfl
  | cons a as ih =>
    unfold countAlong
    cases hstep : step s a with
    | none => rfl
    | some m =>
      obtain ⟨hm, hp⟩ := hkeep s a m hstep hs
      simp [hp, ih hm]

/-- The once rule: steps of the kind `p` lead into `done`, and no step from `done` is of
the kind `p` or leaves `done`. -/
theorem countAlong_le_one (henter : ∀ s a m, step s a = some m → p s m → done m)
    (hkeep : ∀ s a m, step s a = some m → done s → done m ∧ ¬ p s m) (s : σ) (as : List α) :
    countAlong step p s as ≤ 1 := by
  induction as generalizing s with
  | nil => exact Nat.zero_le _
  | cons a as ih =>
    unfold countAlong
    cases hstep : step s a with
    | none => exact Nat.zero_le _
    | some m =>
      by_cases hp : p s m
      · simp [hp, countAlong_eq_zero hkeep as (henter s a m hstep hp)]
      · simpa [hp] using ih m

end Once

theorem exec_append {s s' : σ} {as bs : List α} :
    exec step s (as ++ bs) = some s' ↔ ∃ m, exec step s as = some m ∧ exec step m bs = some s' := by
  induction as generalizing s with
  | nil => simp [exec]
  | cons a as ih =>
    simp only [List.cons_append, exec_cons, ih]
    constructor
    · rintro ⟨m, hm, n, hn, hr⟩
      exact ⟨n, ⟨m, hm, hn⟩, hr⟩
    · rintro ⟨n, ⟨m, hm, hn⟩, hr⟩
      exact ⟨m, hm, n, hn, hr⟩

end LastSietch.Runs
