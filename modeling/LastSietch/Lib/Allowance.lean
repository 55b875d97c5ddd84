import Mathlib.Algebra.Order.BigOperators.Group.List
import Mathlib.Algebra.Order.Ring.Nat

/-!
# Allowances over a rolling window

Attempts are admitted under a key, and an admitted attempt may be spent later, at most one for
each key. `w` says how much of the allowance an attempt with given facts takes, `W` is the length
of the window and `L` the limit. A `Meter` holds the clock, the attempts that may still be spent
and the spends.

`Fits` is the invariant: what has been spent in the window and what may still be spent together
stay within the limit, and no earlier window held more.

* `Fits.tick`, `Fits.close`: time passes, and attempts are given up.
* `Fits.spend`: an attempt is spent.
* `Fits.free`: an attempt that cannot be spent, or takes nothing, needs no check.
* `Fits.reserve`: the check that admits an attempt adds up `counted`; it holds the limit when that
  covers the spends of the window and everything that may still be spent under another key
  (`Covered`).
-/

namespace LastSietch.Allowance

variable {κ φ : Type}

structure Spend (κ φ : Type) where
  key : κ
  facts : φ
  time : Nat

structure Meter (κ φ : Type) where
  now : Nat
  opens : List (κ × φ)
  spends : List (Spend κ φ)

def Meter.start (now : Nat) : Meter κ φ := ⟨now, [], []⟩

namespace Meter

def Spent (m : Meter κ φ) (k : κ) : Prop := ∃ s ∈ m.spends, s.key = k

def recent (m : Meter κ φ) (W : Nat) : List (Spend κ φ) :=
  m.spends.filter (fun s => m.now ≤ s.time + W)

/-- The spends of the window that begins at `T`. -/
def window (m : Meter κ φ) (W T : Nat) : List (Spend κ φ) :=
  m.spends.filter (fun s => T ≤ s.time ∧ s.time ≤ T + W)

structure Plan (m : Meter κ φ) (plan : List (κ × φ)) : Prop where
  keys : (plan.map Prod.fst).Nodup
  opens : ∀ x ∈ plan, x ∈ m.opens
  unspent : ∀ x ∈ plan, ¬ m.Spent x.1

end Meter

def spent (w : φ → Nat) (l : List (Spend κ φ)) : Nat := (l.map (fun s => w s.facts)).sum

def planned (w : φ → Nat) (l : List (κ × φ)) : Nat := (l.map (fun x => w x.2)).sum

def total (counted : List (κ × Nat)) : Nat := (counted.map Prod.snd).sum

def Counts (counted : List (κ × Nat)) (k : κ) (n : Nat) : Prop :=
  n = 0 ∨ ∃ c ∈ counted, c.1 = k ∧ n ≤ c.2

structure Covered (W : Nat) (w : φ → Nat) (m : Meter κ φ) (k : κ) (counted : List (κ × Nat)) :
    Prop where
  recent : ∀ s ∈ m.recent W, s.key ≠ k → Counts counted s.key (w s.facts)
  opens : ∀ x ∈ m.opens, x.1 ≠ k → ¬ m.Spent x.1 → Counts counted x.1 (w x.2)

structure Fits (W L : Nat) (w : φ → Nat) (m : Meter κ φ) : Prop where
  times : ∀ s ∈ m.spends, s.time ≤ m.now
  keys : (m.spends.map (·.key)).Nodup
  room : ∀ plan, m.Plan plan → spent w (m.recent W) + planned w plan ≤ L
  windows : ∀ T, spent w (m.window W T) ≤ L

/-- A list without a key twice, each entry counted, takes no more than what is counted. -/
theorem le_total {l : List (κ × Nat)} (hkeys : (l.map Prod.fst).Nodup) {counted : List (κ × Nat)}
    (hcounts : ∀ x ∈ l, Counts counted x.1 x.2) : total l ≤ total counted := by
  induction l generalizing counted with
  | nil => exact Nat.zero_le _
  | cons x l ih =>
    rw [List.map_cons, List.nodup_cons] at hkeys
    have htail : ∀ y ∈ l, Counts counted y.1 y.2 :=
      fun y hy => hcounts y (List.mem_cons_of_mem x hy)
    have hsum : total (x :: l) = x.2 + total l := rfl
    rcases hcounts x (List.mem_cons_self ..) with hzero | ⟨c, hc, hkey, hle⟩
    · have := ih hkeys.2 htail
      omega
    · -- the entry of `x` is left out for the rest, whose keys are others
      obtain ⟨before, after, rfl⟩ := List.append_of_mem hc
      have hrest : total l ≤ total (before ++ after) := by
        refine ih hkeys.2 (fun y hy => ?_)
        rcases htail y hy with hzero | ⟨d, hd, hdkey, hdle⟩
        · exact Or.inl hzero
        · refine Or.inr ⟨d, ?_, hdkey, hdle⟩
          rcases List.mem_append.mp hd with hd | hd
          · exact List.mem_append_left _ hd
          · rcases List.mem_cons.mp hd with rfl | hd
            · refine absurd ?_ hkeys.1
              rw [← hkey, hdkey]
              exact List.mem_map_of_mem hy
            · exact List.mem_append_right _ hd
      simp only [total, List.map_append, List.map_cons, List.sum_append, List.sum_cons] at *
      omega

theorem spent_sublist {w : φ → Nat} {l l' : List (Spend κ φ)} (h : l.Sublist l') :
    spent w l ≤ spent w l' :=
  (h.map _).sum_le_sum (fun _ _ => Nat.zero_le _)

theorem spent_cons (w : φ → Nat) (s : Spend κ φ) (l : List (Spend κ φ)) :
    spent w (s :: l) = w s.facts + spent w l := rfl

theorem planned_cons (w : φ → Nat) (x : κ × φ) (l : List (κ × φ)) :
    planned w (x :: l) = w x.2 + planned w l := rfl

/-! ## The invariant -/

namespace Fits

variable {W L : Nat} {w : φ → Nat} {m : Meter κ φ}

theorem start (now : Nat) : Fits W L w (Meter.start (κ := κ) now) where
  times s hs := by cases hs
  keys := List.nodup_nil
  room plan hplan := by
    cases plan with
    | nil => exact Nat.zero_le _
    | cons x plan => exact absurd (hplan.opens x (List.mem_cons_self ..)) List.not_mem_nil
  windows T := Nat.zero_le _

theorem tick (h : Fits W L w m) {now : Nat} (hnow : m.now ≤ now) : Fits W L w { m with now } where
  times s hs := (h.times s hs).trans hnow
  keys := h.keys
  room plan hplan := by
    have hless : spent w ({ m with now }.recent W) ≤ spent w (m.recent W) := by
      apply spent_sublist
      apply List.monotone_filter_right
      intro s hs
      simp only [decide_eq_true_eq] at hs ⊢
      omega
    have := h.room plan ⟨hplan.keys, hplan.opens, hplan.unspent⟩
    omega
  windows := h.windows

variable {opens : List (κ × φ)}

theorem close (h : Fits W L w m) (hopens : ∀ x ∈ opens, x ∈ m.opens) :
    Fits W L w { m with opens } where
  times := h.times
  keys := h.keys
  room plan hplan :=
    h.room plan ⟨hplan.keys, fun x hx => hopens x (hplan.opens x hx), hplan.unspent⟩
  windows := h.windows

/-- A spend takes what its attempt could take. -/
theorem spend (h : Fits W L w m) {k : κ} {f : φ} (hopen : (k, f) ∈ m.opens)
    (hnew : ¬ m.Spent k) :
    Fits W L w { m with spends := ⟨k, f, m.now⟩ :: m.spends } := by
  have hrecent : ({ m with spends := ⟨k, f, m.now⟩ :: m.spends } : Meter κ φ).recent W =
      ⟨k, f, m.now⟩ :: m.recent W := by
    simp [Meter.recent]
  have hroom : ∀ plan, ({ m with spends := ⟨k, f, m.now⟩ :: m.spends } : Meter κ φ).Plan plan →
      w f + spent w (m.recent W) + planned w plan ≤ L := by
    intro plan hplan
    have hold : m.Plan ((k, f) :: plan) := by
      refine ⟨?_, ?_, ?_⟩
      · rw [List.map_cons, List.nodup_cons]
        refine ⟨fun hk => ?_, hplan.keys⟩
        obtain ⟨x, hx, hxk⟩ := List.mem_map.mp hk
        exact hplan.unspent x hx ⟨_, List.mem_cons_self .., hxk.symm⟩
      · intro x hx
        rcases List.mem_cons.mp hx with rfl | hx
        · exact hopen
        · exact hplan.opens x hx
      · intro x hx
        rcases List.mem_cons.mp hx with rfl | hx
        · exact hnew
        · rintro ⟨s, hs, hsx⟩
          exact hplan.unspent x hx ⟨s, List.mem_cons_of_mem _ hs, hsx⟩
    have := h.room _ hold
    rw [planned_cons] at this
    dsimp only at this
    omega
  refine ⟨?_, ?_, ?_, ?_⟩
  · intro s hs
    rcases List.mem_cons.mp hs with rfl | hs
    · exact le_refl m.now
    · exact h.times s hs
  · rw [List.map_cons, List.nodup_cons]
    refine ⟨fun hk => ?_, h.keys⟩
    obtain ⟨s, hs, hsk⟩ := List.mem_map.mp hk
    exact hnew ⟨s, hs, hsk⟩
  · intro plan hplan
    rw [hrecent, spent_cons]
    exact hroom plan hplan
  · intro T
    by_cases hin : T ≤ m.now ∧ m.now ≤ T + W
    · -- the window ends no earlier than now, so all of it is recent
      have hwindow : ({ m with spends := ⟨k, f, m.now⟩ :: m.spends } : Meter κ φ).window W T =
          ⟨k, f, m.now⟩ :: m.window W T := by
        simp [Meter.window, hin]
      have hsub : spent w (m.window W T) ≤ spent w (m.recent W) := by
        apply spent_sublist
        apply List.monotone_filter_right
        intro s hs
        simp only [decide_eq_true_eq] at hs ⊢
        omega
      have hnone : ({ m with spends := ⟨k, f, m.now⟩ :: m.spends } : Meter κ φ).Plan [] :=
        ⟨List.nodup_nil, fun x hx => absurd hx List.not_mem_nil,
          fun x hx => absurd hx List.not_mem_nil⟩
      have := hroom [] hnone
      rw [hwindow, spent_cons]
      dsimp only
      omega
    · have hwindow : ({ m with spends := ⟨k, f, m.now⟩ :: m.spends } : Meter κ φ).window W T =
          m.window W T := by
        rw [Meter.window, List.filter_cons_of_neg]
        · rfl
        · simpa using hin
      rw [hwindow]
      exact h.windows T

theorem opened (h : Fits W L w m) {k : κ} {f : φ} (hopens : ∀ x ∈ opens, x = (k, f) ∨ x ∈ m.opens)
    (hroom : ∀ plan, m.Plan plan → (∀ x ∈ plan, x.1 ≠ k) → ¬ m.Spent k →
      w f + spent w (m.recent W) + planned w plan ≤ L) :
    Fits W L w { m with opens } where
  times := h.times
  keys := h.keys
  windows := h.windows
  room plan hplan := by
    by_cases hmem : (k, f) ∈ plan
    · obtain ⟨before, after, rfl⟩ := List.append_of_mem hmem
      have hperm : (before ++ (k, f) :: after).Perm ((k, f) :: (before ++ after)) :=
        List.perm_middle
      have hkeys := (hperm.map Prod.fst).nodup_iff.mp hplan.keys
      rw [List.map_cons, List.nodup_cons] at hkeys
      have hne : ∀ x ∈ before ++ after, x.1 ≠ k :=
        fun x hx hxk => hkeys.1 (List.mem_map.mpr ⟨x, hx, hxk⟩)
      have hin : ∀ x ∈ before ++ after, x ∈ before ++ (k, f) :: after :=
        fun x hx => hperm.mem_iff.mpr (List.mem_cons_of_mem _ hx)
      have hrest : m.Plan (before ++ after) := by
        refine ⟨hkeys.2, fun x hx => ?_, fun x hx => hplan.unspent x (hin x hx)⟩
        rcases hopens x (hplan.opens x (hin x hx)) with rfl | hopen
        · exact absurd rfl (hne _ hx)
        · exact hopen
      have hsum : planned w (before ++ (k, f) :: after) =
          w f + planned w (before ++ after) :=
        (hperm.map (fun x : κ × φ => w x.2)).sum_eq
      have := hroom _ hrest hne (hplan.unspent _ hmem)
      have hsame : spent w ({ m with opens }.recent W) = spent w (m.recent W) := rfl
      omega
    · refine h.room plan ⟨hplan.keys, fun x hx => ?_, hplan.unspent⟩
      rcases hopens x (hplan.opens x hx) with rfl | hopen
      · exact absurd hx hmem
      · exact hopen

theorem free (h : Fits W L w m) {k : κ} {f : φ}
    (hopens : ∀ x ∈ opens, x = (k, f) ∨ x ∈ m.opens) (hfree : m.Spent k ∨ w f = 0) :
    Fits W L w { m with opens } := by
  apply h.opened hopens
  intro plan hplan _ hunspent
  rcases hfree with hspent | hzero
  · exact absurd hspent hunspent
  · have := h.room plan hplan
    omega

/-- The check holds the limit when it covers the window and what may still be spent. -/
theorem reserve (h : Fits W L w m) {k : κ} {f : φ}
    (hopens : ∀ x ∈ opens, x = (k, f) ∨ x ∈ m.opens) {counted : List (κ × Nat)}
    (hcovered : Covered W w m k counted) (hroom : total counted + w f ≤ L) :
    Fits W L w { m with opens } := by
  apply h.opened hopens
  intro plan hplan hne hunspent
  let all : List (κ × Nat) := (m.recent W).map (fun s => (s.key, w s.facts)) ++
    plan.map (fun x => (x.1, w x.2))
  have hall : total all = spent w (m.recent W) + planned w plan := by
    simp only [all, total, spent, planned, List.map_append, List.sum_append, List.map_map]
    rfl
  have hkeys : (all.map Prod.fst).Nodup := by
    have hmap : all.map Prod.fst = (m.recent W).map (·.key) ++ plan.map Prod.fst := by
      simp only [all, List.map_append, List.map_map]
      rfl
    rw [hmap]
    refine List.nodup_append.mpr ⟨?_, hplan.keys, ?_⟩
    · exact h.keys.sublist ((List.filter_sublist).map _)
    · rintro y hy z hz rfl
      obtain ⟨s, hs, hsy⟩ := List.mem_map.mp hy
      obtain ⟨x, hx, hxy⟩ := List.mem_map.mp hz
      exact hplan.unspent x hx ⟨s, (List.mem_filter.mp hs).1, hsy.trans hxy.symm⟩
  have hcounts : ∀ x ∈ all, Counts counted x.1 x.2 := by
    intro x hx
    rcases List.mem_append.mp hx with hx | hx
    · obtain ⟨s, hs, rfl⟩ := List.mem_map.mp hx
      refine hcovered.recent s hs (fun hsk => hunspent ⟨s, (List.mem_filter.mp hs).1, hsk⟩)
    · obtain ⟨y, hy, rfl⟩ := List.mem_map.mp hx
      exact hcovered.opens y (hplan.opens y hy) (hne y hy) (hplan.unspent y hy)
  have := le_total hkeys hcounts
  omega

end Fits

end LastSietch.Allowance
