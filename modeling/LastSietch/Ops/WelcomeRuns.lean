import LastSietch.Lib.Runs
import LastSietch.Ops.WelcomePack

/-!
# One welcome pack per identity

Runs of `grant.sh` side by side, one step for each command that asks or writes the database (the
two columns of the identity are one step, and so are the free places). A run holds what its
variables hold; its transaction takes the advisory lock of the identity and keeps it until the
`COMMIT`, and any command may fail. The game may change its own tables between all steps.

`packs` is the history of the packs that have been committed, and a run remembers how many there
were when its guards were answered; no command reads either.

* `step_effect`: what one step does.
* `Inv.step`: what the answers of the guards still mean, as long as nothing stale is committed.
-/

namespace LastSietch.Welcome

open Runs (exec Along)

/-! ## Runs -/

structure Target where
  actorId : Nat
  mainId : Nat
  hotbarId : Nat

structure Identified extends Target where
  flsId : String
  funcomId : String

/-- Past the identity guard, which was asked when `seenByGuard` packs were out. -/
structure Guarded extends Identified where
  seenByGuard : Nat

/-- Past the version gate, which was asked when `seenByGate` packs were out. -/
structure Gated extends Guarded where
  seenByGate : Nat

structure Placed extends Gated where
  nextMain : Nat
  freeHb : List Nat

inductive Stage
  | actor
  | main (actorId : Nat)
  | hotbar (actorId mainId : Nat)
  | identity (t : Target)
  | guard (d : Identified)
  | gate (d : Guarded)
  | places (d : Gated)
  | begin_ (d : Placed)
  | lock (d : Placed) (beganAt : Nat)
  | insert (d : Placed) (beganAt : Nat)
  | closed (granted : Bool)

structure Run where
  accountId : Nat
  dryRun : Bool
  stage : Stage

structure Pack where
  flsId : String
  accountId : Nat
  grantedAt : Nat
  deriving DecidableEq

structure Sys where
  now : Nat
  game : Game
  accounts : Accounts
  grants : Grants
  runs : List Run
  packs : List Pack

inductive Act
  | start (account : Nat) (dryRun : Bool)
  | next (i : Nat)
  | fail (i : Nat)
  | tick (seconds : Nat)
  | game (g : Game)

def Sys.move (s : Sys) (i : Nat) (r : Run) (stage : Stage) : Sys :=
  { s with runs := s.runs.set i { r with stage } }

def Run.holds (hashtext : String → Int) (r : Run) : Option Int :=
  match r.stage with
  | .insert d _ => some (hashtext ("holwp:" ++ d.flsId))
  | _ => none

def Sys.commit (s : Sys) (i : Nat) (r : Run) (d : Placed) (beganAt : Nat) : Sys :=
  { s.move i r (.closed true) with
    game := s.game.pack r.accountId d.actorId d.mainId d.hotbarId d.nextMain d.freeHb
    grants := s.grants.put
      (s.grants.stamped r.accountId d.flsId d.funcomId d.actorId beganAt)
    packs := s.packs ++ [⟨d.flsId, r.accountId, beganAt⟩] }

def Sys.take (s : Sys) (i : Nat) (r : Run) (answer : Option Nat) (stage : Nat → Stage) : Sys :=
  match answer with
  | some n => s.move i r (stage n)
  | none => s.move i r (.closed false)

def Sys.next (cooldown : Nat) (hashtext : String → Int) (s : Sys) (i : Nat) (r : Run) : Option Sys :=
  match r.stage with
  | .actor => some (s.take i r (s.game.actorId r.accountId) .main)
  | .main a => some (s.take i r (mash (s.game.inventoriesOf a 0)) (.hotbar a))
  | .hotbar a m => some (s.take i r (mash (s.game.inventoriesOf a 15)) (fun h => .identity ⟨a, m, h⟩))
  | .identity t =>
    some (s.move i r (.guard ⟨t, s.accounts.flsId r.accountId, s.accounts.funcomId r.accountId⟩))
  | .guard d =>
    if d.flsId ≠ "" ∧ s.grants.inCooldown cooldown s.now d.flsId r.accountId = true then
      some (s.move i r (.closed false))
    else some (s.move i r (.gate ⟨d, s.packs.length⟩))
  | .gate d =>
    if mentions "v1.8" (s.grants.notes r.accountId) = true then some (s.move i r (.closed false))
    else if mentions "v1" (s.grants.notes r.accountId) = true then some (s.move i r (.closed false))
    else some (s.move i r (.places ⟨d, s.packs.length⟩))
  | .places d =>
    if r.dryRun = true then some (s.move i r (.closed false))
    else some (s.move i r (.begin_ ⟨d, s.game.nextMain d.mainId, s.game.freeHotbar d.hotbarId⟩))
  | .begin_ d => some (s.move i r (.lock d s.now))
  | .lock d beganAt =>
    if s.runs.any (fun q => q.holds hashtext = some (hashtext ("holwp:" ++ d.flsId))) then none
    else some (s.move i r (.insert d beganAt))
  | .insert d beganAt => some (s.commit i r d beganAt)
  | .closed _ => none

def step (cooldown : Nat) (hashtext : String → Int) (s : Sys) : Act → Option Sys
  | .start account dryRun => some { s with runs := s.runs ++ [⟨account, dryRun, .actor⟩] }
  | .next i => do
    let r ← s.runs[i]?
    s.next cooldown hashtext i r
  | .fail i => do
    let r ← s.runs[i]?
    some (s.move i r (.closed false))
  | .tick seconds => some { s with now := s.now + seconds }
  | .game g => some { s with game := g }

def Spaced (cooldown : Nat) (flsId : String) (packs : List Pack) : Prop :=
  (packs.filter (·.flsId = flsId)).Pairwise (fun p q => p.grantedAt + cooldown ≤ q.grantedAt)

/-- The packs of an identity in the window that begins at `T`. -/
def inWindow (cooldown : Nat) (flsId : String) (packs : List Pack) (T : Nat) : Nat :=
  packs.countP (fun p => p.flsId = flsId ∧ T ≤ p.grantedAt ∧ p.grantedAt < T + cooldown)

/-- What the guards of a run have missed: the packs of other accounts since the identity guard was
asked, and those of its own since the version gate was. -/
def Sys.missed (s : Sys) (r : Run) (d : Gated) : List Pack :=
  (s.packs.drop d.seenByGuard).filter (fun p => p.flsId = d.flsId ∧ p.accountId ≠ r.accountId) ++
    (s.packs.drop d.seenByGate).filter (fun p => p.flsId = d.flsId ∧ p.accountId = r.accountId)

def Sys.Fresh (cooldown : Nat) (flsId : String) (s : Sys) : Act → Prop
  | .next i => ∀ r ∈ s.runs[i]?,
    match r.stage with
    | .insert d beganAt =>
      d.flsId = flsId → ∀ p ∈ s.missed r d.toGated, p.grantedAt + cooldown ≤ beganAt
    | _ => True
  | _ => True

instance (cooldown : Nat) (flsId : String) (s : Sys) (a : Act) :
    Decidable (s.Fresh cooldown flsId a) := by
  unfold Sys.Fresh
  split
  · refine @Option.decidableForallMem _ _ (fun r => ?_) _
    split <;> infer_instance
  · infer_instance

/-- No run is under way, and `ls_welcome_pack_grants` has no row of the identity. -/
structure Sys.Start (flsId : String) (s : Sys) : Prop where
  runs : s.runs = []
  packs : s.packs = []
  noRow : ∀ g ∈ s.grants, g.flsId ≠ some flsId ∧ s.accounts.flsId g.accountId ≠ flsId

/-! ## What a step does -/

section

variable {cooldown : Nat} {hashtext : String → Int} {flsId : String} {s s' : Sys}

def Stage.identified? : Stage → Option Identified
  | .guard d => some d
  | .gate d => some d.toIdentified
  | .places d => some d.toIdentified
  | .begin_ d | .lock d _ | .insert d _ => some d.toIdentified
  | .actor | .main _ | .hotbar _ _ | .identity _ | .closed _ => none

def Stage.guarded? : Stage → Option Guarded
  | .gate d => some d
  | .places d => some d.toGuarded
  | .begin_ d | .lock d _ | .insert d _ => some d.toGuarded
  | .actor | .main _ | .hotbar _ _ | .identity _ | .guard _ | .closed _ => none

def Stage.gated? : Stage → Option Gated
  | .places d => some d
  | .begin_ d | .lock d _ | .insert d _ => some d.toGated
  | .actor | .main _ | .hotbar _ _ | .identity _ | .guard _ | .gate _ | .closed _ => none

/-- `NOW()`, inside the transaction. -/
def Stage.now (now : Nat) : Stage → Nat
  | .lock _ beganAt | .insert _ beganAt => beganAt
  | _ => now

structure Learns (cooldown : Nat) (s : Sys) (r : Run) (stage : Stage) : Prop where
  identified : ∀ d, stage.identified? = some d →
    r.stage.identified? = some d ∨ d.flsId = s.accounts.flsId r.accountId
  guarded : ∀ d, stage.guarded? = some d → (r.stage.guarded? = some d ∧
      r.stage.now s.now ≤ stage.now s.now) ∨
    (r.stage.identified? = some d.toIdentified ∧ d.seenByGuard = s.packs.length ∧
      stage.now s.now = s.now ∧
      (d.flsId ≠ "" → s.grants.inCooldown cooldown s.now d.flsId r.accountId = false))
  gated : ∀ d, stage.gated? = some d → r.stage.gated? = some d ∨
    (r.stage.guarded? = some d.toGuarded ∧ d.seenByGate = s.packs.length ∧
      mentions "v1" (s.grants.notes r.accountId) = false)

inductive Effect (cooldown : Nat) (s : Sys) : Act → Sys → Prop
  | idle (a : Act) (m : Sys) (hruns : m.runs = s.runs) (hpacks : m.packs = s.packs) (hgrants : m.grants = s.grants)
      (haccounts : m.accounts = s.accounts) (hnow : s.now ≤ m.now) : Effect cooldown s a m
  | opened (account : Nat) (dryRun : Bool) :
      Effect cooldown s (.start account dryRun) { s with runs := s.runs ++ [⟨account, dryRun, .actor⟩] }
  | moved (a : Act) (i : Nat) (r : Run) (stage : Stage) (hr : s.runs[i]? = some r)
      (hlearns : Learns cooldown s r stage) : Effect cooldown s a (s.move i r stage)
  | granted (i : Nat) (r : Run) (d : Placed) (beganAt : Nat) (hr : s.runs[i]? = some r)
      (hstage : r.stage = .insert d beganAt) :
      Effect cooldown s (.next i) (s.commit i r d beganAt)

theorem learns_closed (r : Run) (granted : Bool) : Learns cooldown s r (.closed granted) :=
  ⟨fun _ => nofun, fun _ => nofun, fun _ => nofun⟩

variable {r : Run}

theorem learns_same {stage : Stage} (hi : stage.identified? = r.stage.identified?)
    (hg : stage.guarded? = r.stage.guarded?) (ht : stage.gated? = r.stage.gated?)
    (hnow : r.stage.now s.now ≤ stage.now s.now) : Learns cooldown s r stage where
  identified _ h := Or.inl (hi ▸ h)
  guarded _ h := Or.inl ⟨hg ▸ h, hnow⟩
  gated _ h := Or.inl (ht ▸ h)

theorem effect_take {i : Nat} {answer : Option Nat} {stage : Nat → Stage}
    (hr : s.runs[i]? = some r) (hlearns : ∀ n, Learns cooldown s r (stage n)) :
    Effect cooldown s (.next i) (s.take i r answer stage) := by
  unfold Sys.take
  split
  · exact .moved _ i r _ hr (hlearns _)
  · exact .moved _ i r _ hr (learns_closed r false)

theorem effect_next {i : Nat} (hr : s.runs[i]? = some r)
    (h : s.next cooldown hashtext i r = some s') : Effect cooldown s (.next i) s' := by
  unfold Sys.next at h
  split at h
  case h_1 hstage =>
    cases h
    exact effect_take hr (fun n => learns_same (by rw [hstage]; rfl) (by rw [hstage]; rfl)
      (by rw [hstage]; rfl) (by rw [hstage]; exact le_rfl))
  case h_2 a hstage =>
    cases h
    exact effect_take hr (fun n => learns_same (by rw [hstage]; rfl) (by rw [hstage]; rfl)
      (by rw [hstage]; rfl) (by rw [hstage]; exact le_rfl))
  case h_3 a m hstage =>
    cases h
    exact effect_take hr (fun n => learns_same (by rw [hstage]; rfl) (by rw [hstage]; rfl)
      (by rw [hstage]; rfl) (by rw [hstage]; exact le_rfl))
  case h_4 t hstage =>
    cases h
    refine .moved _ i r _ hr ⟨?_, fun _ => nofun, fun _ => nofun⟩
    rintro d ⟨⟩
    exact Or.inr rfl
  case h_5 d hstage =>
    split at h
    · cases h
      exact .moved _ i r _ hr (learns_closed r false)
    · rename_i hpass
      cases h
      refine .moved _ i r _ hr ⟨?_, ?_, fun _ => nofun⟩
      · rintro _ ⟨⟩
        exact Or.inl (by rw [hstage]; rfl)
      · rintro _ ⟨⟩
        refine Or.inr ⟨by rw [hstage]; rfl, rfl, rfl, fun hne => ?_⟩
        exact Bool.eq_false_iff.mpr (fun hin => hpass ⟨hne, hin⟩)
  case h_6 d hstage =>
    split at h
    · cases h
      exact .moved _ i r _ hr (learns_closed r false)
    · split at h
      · cases h
        exact .moved _ i r _ hr (learns_closed r false)
      · rename_i hv1
        cases h
        refine .moved _ i r _ hr ⟨?_, ?_, ?_⟩
        · rintro _ ⟨⟩
          exact Or.inl (by rw [hstage]; rfl)
        · rintro _ ⟨⟩
          exact Or.inl ⟨by rw [hstage]; rfl, by rw [hstage]; exact le_rfl⟩
        · rintro _ ⟨⟩
          exact Or.inr ⟨by rw [hstage]; rfl, rfl, Bool.eq_false_iff.mpr hv1⟩
  case h_7 d hstage =>
    split at h
    · cases h
      exact .moved _ i r _ hr (learns_closed r false)
    · cases h
      exact .moved _ i r _ hr (learns_same (by rw [hstage]; rfl) (by rw [hstage]; rfl)
        (by rw [hstage]; rfl) (by rw [hstage]; exact le_rfl))
  case h_8 d hstage =>
    cases h
    exact .moved _ i r _ hr (learns_same (by rw [hstage]; rfl) (by rw [hstage]; rfl)
      (by rw [hstage]; rfl) (by rw [hstage]; exact le_rfl))
  case h_9 d beganAt hstage =>
    split at h
    · cases h
    · cases h
      exact .moved _ i r _ hr (learns_same (by rw [hstage]; rfl) (by rw [hstage]; rfl)
        (by rw [hstage]; rfl) (by rw [hstage]; exact le_rfl))
  case h_10 d beganAt hstage =>
    cases h
    exact .granted i r d beganAt hr hstage
  case h_11 => cases h

variable {a : Act}

theorem step_effect (h : step cooldown hashtext s a = some s') :
    Effect cooldown s a s' := by
  cases a with
  | start account dryRun =>
    cases h
    exact .opened account dryRun
  | next i =>
    obtain ⟨r, hr, h⟩ := Option.bind_eq_some_iff.mp h
    exact effect_next hr h
  | fail i =>
    obtain ⟨r, hr, h⟩ := Option.bind_eq_some_iff.mp h
    cases h
    exact .moved _ i r _ hr (learns_closed r false)
  | tick seconds =>
    cases h
    exact .idle _ _ rfl rfl rfl rfl (Nat.le_add_right ..)
  | game g =>
    cases h
    exact .idle _ _ rfl rfl rfl rfl le_rfl

/-! ## The invariant -/

structure Knows (cooldown : Nat) (flsId : String) (s : Sys) (r : Run) : Prop where
  identified : ∀ d, r.stage.identified? = some d → d.flsId = s.accounts.flsId r.accountId
  guarded : ∀ d, r.stage.guarded? = some d → d.flsId = flsId →
    d.seenByGuard ≤ s.packs.length ∧ ∀ p ∈ s.packs.take d.seenByGuard, p.flsId = flsId →
      p.accountId ≠ r.accountId → p.grantedAt + cooldown ≤ r.stage.now s.now
  gated : ∀ d, r.stage.gated? = some d → d.flsId = flsId →
    d.seenByGate ≤ s.packs.length ∧ ∀ p ∈ s.packs.take d.seenByGate, p.flsId = flsId →
      p.accountId ≠ r.accountId

structure Inv (cooldown : Nat) (flsId : String) (s : Sys) : Prop where
  spaced : Spaced cooldown flsId s.packs
  stamped : ∀ p ∈ s.packs, p.flsId = flsId → s.accounts.flsId p.accountId = flsId ∧
    ∃ g ∈ s.grants, g.accountId = p.accountId ∧ g.notes = some packNotes ∧
      p.grantedAt ≤ g.grantedAt
  owned : ∀ g ∈ s.grants, s.accounts.flsId g.accountId = flsId → g.flsId = some flsId
  runs : ∀ r ∈ s.runs, Knows cooldown flsId s r

theorem Sys.Start.inv (h : s.Start flsId) : Inv cooldown flsId s where
  spaced := by simp [Spaced, h.packs]
  stamped := by simp [h.packs]
  owned g hg hfls := absurd hfls (h.noRow g hg).2
  runs := by simp [h.runs]

theorem Stage.now_mono {now now' : Nat} (h : now ≤ now') (stage : Stage) :
    stage.now now ≤ stage.now now' := by
  cases stage <;> first | exact h | exact le_rfl

theorem Knows.later {more : List Pack} (h : Knows cooldown flsId s r)
    (hpacks : s'.packs = s.packs ++ more) (haccounts : s'.accounts = s.accounts)
    (hnow : s.now ≤ s'.now) : Knows cooldown flsId s' r where
  identified d hd := by
    rw [haccounts]
    exact h.identified d hd
  guarded d hd hfls := by
    obtain ⟨hlen, hold⟩ := h.guarded d hd hfls
    rw [hpacks, List.take_append_of_le_length hlen, List.length_append]
    refine ⟨Nat.le_add_right_of_le hlen, fun p hp hpf hpa => ?_⟩
    exact le_trans (hold p hp hpf hpa) (r.stage.now_mono hnow)
  gated d hd hfls := by
    obtain ⟨hlen, hold⟩ := h.gated d hd hfls
    rw [hpacks, List.take_append_of_le_length hlen, List.length_append]
    exact ⟨Nat.le_add_right_of_le hlen, hold⟩

theorem knows_new (h : r.stage.identified? = none) (hg : r.stage.guarded? = none)
    (ht : r.stage.gated? = none) : Knows cooldown flsId s r where
  identified d hd := by
    rw [h] at hd
    cases hd
  guarded d hd := by
    rw [hg] at hd
    cases hd
  gated d hd := by
    rw [ht] at hd
    cases hd

variable (hne : flsId ≠ "")

include hne in
theorem Inv.learns {stage : Stage} (h : Inv cooldown flsId s) (hr : r ∈ s.runs)
    (hlearns : Learns cooldown s r stage) : Knows cooldown flsId s { r with stage } where
  identified d hd := by
    rcases hlearns.identified d hd with hold | hnew
    · exact (h.runs r hr).identified d hold
    · exact hnew
  guarded d hd hfls := by
    rcases hlearns.guarded d hd with ⟨hold, hnow⟩ | ⟨-, hseen, hnow, hpass⟩
    · obtain ⟨hlen, hall⟩ := (h.runs r hr).guarded d hold hfls
      exact ⟨hlen, fun p hp hpf hpa => le_trans (hall p hp hpf hpa) hnow⟩
    · refine ⟨hseen.le, fun p hp hpf hpa => ?_⟩
      obtain ⟨hpo, g, hg, hgp, -, hat⟩ := h.stamped p (List.mem_of_mem_take hp) hpf
      have hgf := h.owned g hg (hgp ▸ hpo)
      have hout := inCooldown_eq_false.mp (hpass (hfls ▸ hne)) g hg (hfls ▸ hgf) (hgp ▸ hpa)
      rw [hnow]
      exact le_trans (Nat.add_le_add_right hat cooldown) hout
  gated d hd hfls := by
    rcases hlearns.gated d hd with hold | ⟨-, hseen, hv1⟩
    · exact (h.runs r hr).gated d hold hfls
    · refine ⟨hseen.le, fun p hp hpf hpa => ?_⟩
      obtain ⟨-, g, hg, hgp, hnotes, -⟩ := h.stamped p (List.mem_of_mem_take hp) hpf
      have hstop := notes_of_stamp hg hnotes
      rw [hgp, hpa] at hstop
      exact Bool.noConfusion (hstop.symm.trans hv1)

/-- All packs of the identity are a cooldown older than a pack that is committed without having
missed one. -/
theorem Inv.before_commit {d : Placed} {beganAt : Nat} (h : Inv cooldown flsId s)
    (hr : r ∈ s.runs) (hstage : r.stage = .insert d beganAt) (hd : d.flsId = flsId)
    (hfresh : ∀ p ∈ s.missed r d.toGated, p.grantedAt + cooldown ≤ beganAt) :
    ∀ p ∈ s.packs, p.flsId = flsId → p.grantedAt + cooldown ≤ beganAt := by
  intro p hp hpf
  by_cases hacct : p.accountId = r.accountId
  · have hgate := (h.runs r hr).gated d.toGated (by rw [hstage]; rfl) hd
    rw [← List.take_append_drop d.seenByGate s.packs, List.mem_append] at hp
    rcases hp with hp | hp
    · exact absurd hacct (hgate.2 p hp hpf)
    · refine hfresh p (List.mem_append_right _ (List.mem_filter.mpr ⟨hp, ?_⟩))
      exact decide_eq_true ⟨hpf.trans hd.symm, hacct⟩
  · have hguard := (h.runs r hr).guarded d.toGuarded (by rw [hstage]; rfl) hd
    rw [← List.take_append_drop d.seenByGuard s.packs, List.mem_append] at hp
    rcases hp with hp | hp
    · have hold := hguard.2 p hp hpf hacct
      rw [hstage] at hold
      exact hold
    · refine hfresh p (List.mem_append_left _ (List.mem_filter.mpr ⟨hp, ?_⟩))
      exact decide_eq_true ⟨hpf.trans hd.symm, hacct⟩

theorem spaced_snoc {packs : List Pack} {p : Pack} :
    Spaced cooldown flsId (packs ++ [p]) ↔ Spaced cooldown flsId packs ∧
      (p.flsId = flsId → ∀ q ∈ packs, q.flsId = flsId → q.grantedAt + cooldown ≤ p.grantedAt) := by
  unfold Spaced
  rw [List.filter_append, List.pairwise_append]
  by_cases hp : p.flsId = flsId <;> simp [hp]

include hne in
theorem Inv.committed {i : Nat} {r : Run} {d : Placed} {beganAt : Nat} (h : Inv cooldown flsId s)
    (hr : r ∈ s.runs) (hstage : r.stage = .insert d beganAt)
    (hfresh : d.flsId = flsId → ∀ p ∈ s.missed r d.toGated, p.grantedAt + cooldown ≤ beganAt) :
    Inv cooldown flsId (s.commit i r d beganAt) := by
  have howner : d.flsId = s.accounts.flsId r.accountId :=
    (h.runs r hr).identified d.toIdentified (by rw [hstage]; rfl)
  have hbefore := fun hd => h.before_commit hr hstage hd (hfresh hd)
  have hacct := stamped_accountId s.grants r.accountId d.flsId d.funcomId d.actorId beganAt
  have hat := stamped_grantedAt s.grants r.accountId d.flsId d.funcomId d.actorId beganAt
  have hnotes := stamped_notes s.grants r.accountId d.flsId d.funcomId d.actorId beganAt
  refine ⟨spaced_snoc.mpr ⟨h.spaced, hbefore⟩, fun p hp hpf => ?_, fun g hg hfls => ?_,
    fun q hq => ?_⟩
  · rcases List.mem_append.mp hp with hp | hp
    · obtain ⟨hpo, g, hg, hgp, hgn, hpg⟩ := h.stamped p hp hpf
      refine ⟨hpo, ?_⟩
      by_cases hsame : g.accountId = r.accountId
      · -- the row is stamped again, later than the pack that it stood for
        refine ⟨_, Table.mem_put.mpr (Or.inl rfl), hacct.trans (hsame.symm.trans hgp), hnotes, ?_⟩
        have hd : d.flsId = flsId := howner.trans (hsame ▸ hgp ▸ hpo)
        rw [hat]
        exact le_trans (Nat.le_add_right ..) (hbefore hd p hp hpf)
      · refine ⟨g, Table.mem_put.mpr (Or.inr ⟨hg, ?_⟩), hgp, hgn, hpg⟩
        rw [hacct]
        exact hsame
    · rw [List.mem_singleton.mp hp] at hpf ⊢
      refine ⟨howner.symm.trans hpf, _, Table.mem_put.mpr (Or.inl rfl), hacct, hnotes, ?_⟩
      exact hat.ge
  · rcases Table.mem_put.mp hg with rfl | ⟨hg, -⟩
    · rw [hacct] at hfls
      have hd : d.flsId = flsId := howner.trans hfls
      rw [← hd]
      refine stamped_flsId (hd ▸ hne) (fun g hg hgr => Or.inl ?_)
      rw [hd]
      exact h.owned g hg (hgr ▸ hfls)
    · exact h.owned g hg hfls
  · rcases List.mem_or_eq_of_mem_set hq with hq | rfl
    · exact (h.runs q hq).later rfl rfl le_rfl
    · exact knows_new rfl rfl rfl

include hne in
theorem Inv.step (h : Inv cooldown flsId s) (hfresh : s.Fresh cooldown flsId a)
    (hstep : step cooldown hashtext s a = some s') : Inv cooldown flsId s' := by
  cases step_effect hstep with
  | idle _ _ hruns hpacks hgrants haccounts hnow =>
    refine ⟨?_, ?_, ?_, fun r hr => ?_⟩
    · rw [hpacks]
      exact h.spaced
    · rw [hpacks, hgrants, haccounts]
      exact h.stamped
    · rw [hgrants, haccounts]
      exact h.owned
    · rw [hruns] at hr
      exact (h.runs r hr).later (hpacks.trans (List.append_nil _).symm) haccounts hnow
  | opened account dryRun =>
    refine ⟨h.spaced, h.stamped, h.owned, fun r hr => ?_⟩
    rcases List.mem_append.mp hr with hr | hr
    · exact (h.runs r hr).later (List.append_nil _).symm rfl le_rfl
    · rw [List.mem_singleton.mp hr]
      exact knows_new rfl rfl rfl
  | moved _ i r stage hr hlearns =>
    refine ⟨h.spaced, h.stamped, h.owned, fun q hq => ?_⟩
    rcases List.mem_or_eq_of_mem_set hq with hq | rfl
    · exact (h.runs q hq).later (List.append_nil _).symm rfl le_rfl
    · exact (h.learns hne (List.mem_of_getElem? hr) hlearns).later (List.append_nil _).symm rfl le_rfl
  | granted i r d beganAt hr hstage =>
    refine h.committed hne (List.mem_of_getElem? hr) hstage ?_
    have hmine := hfresh r hr
    rw [hstage] at hmine
    exact hmine

/-! ## The packs of a run -/

theorem packs_step (hstep : step cooldown hashtext s a = some s') :
    s'.packs = s.packs ∨ ∃ i r d beganAt, a = .next i ∧ s.runs[i]? = some r ∧
      r.stage = .insert d beganAt ∧ s'.packs = s.packs ++ [⟨d.flsId, r.accountId, beganAt⟩] := by
  cases step_effect hstep with
  | idle _ _ _ hpacks => exact Or.inl hpacks
  | opened account dryRun => exact Or.inl rfl
  | moved _ i r stage hr hlearns => exact Or.inl rfl
  | granted i r d beganAt hr hstage => exact Or.inr ⟨i, r, d, beganAt, rfl, hr, hstage, rfl⟩

theorem spaced_of_step (hstep : step cooldown hashtext s a = some s')
    (h : Spaced cooldown flsId s'.packs) : Spaced cooldown flsId s.packs := by
  rcases packs_step hstep with hsame | ⟨i, r, d, beganAt, -, -, -, hmore⟩
  · exact hsame ▸ h
  · rw [hmore] at h
    exact (spaced_snoc.mp h).1

theorem spaced_of_exec {acts : List Act} (hrun : exec (step cooldown hashtext) s acts = some s')
    (h : Spaced cooldown flsId s'.packs) : Spaced cooldown flsId s.packs := by
  induction acts generalizing s with
  | nil =>
    rw [← Runs.exec_nil.mp hrun]
    exact h
  | cons a acts ih =>
    obtain ⟨m, hm, hrest⟩ := Runs.exec_cons.mp hrun
    exact spaced_of_step hm (ih hrest)

/-- A pack that is spaced from all that came before it has missed none of its last cooldown. -/
theorem fresh_of_spaced (hstep : step cooldown hashtext s a = some s')
    (h : Spaced cooldown flsId s'.packs) : s.Fresh cooldown flsId a := by
  cases a with
  | next i =>
    intro r hr
    split
    · rename_i d beganAt hstage
      intro hd p hp
      have hnext : some (s.commit i r d beganAt) = some s' := by
        obtain ⟨q, hq, hnext⟩ := Option.bind_eq_some_iff.mp hstep
        cases hr.symm.trans hq
        rw [← hnext]
        unfold Sys.next
        rw [hstage]
      cases hnext
      have hlast := (spaced_snoc.mp h).2 hd
      rcases List.mem_append.mp hp with hp | hp
      · obtain ⟨hmem, hkind⟩ := List.mem_filter.mp hp
        exact hlast p (List.mem_of_mem_drop hmem) ((of_decide_eq_true hkind).1.trans hd)
      · obtain ⟨hmem, hkind⟩ := List.mem_filter.mp hp
        exact hlast p (List.mem_of_mem_drop hmem) ((of_decide_eq_true hkind).1.trans hd)
    · trivial
  | _ => trivial

theorem fresh_of_exec {acts : List Act} (hrun : exec (step cooldown hashtext) s acts = some s')
    (h : Spaced cooldown flsId s'.packs) :
    Along (step cooldown hashtext) (Sys.Fresh cooldown flsId) s acts := by
  induction acts generalizing s with
  | nil => trivial
  | cons a acts ih =>
    obtain ⟨m, hm, hrest⟩ := Runs.exec_cons.mp hrun
    refine ⟨fresh_of_spaced hm (spaced_of_exec hrest h), fun m' hm' => ?_⟩
    cases hm.symm.trans hm'
    exact ih hrest

theorem window_le_one {packs : List Pack} (h : Spaced cooldown flsId packs) (T : Nat) :
    inWindow cooldown flsId packs T ≤ 1 := by
  have hcount : inWindow cooldown flsId packs T =
      (packs.filter (·.flsId = flsId)).countP
        (fun p => T ≤ p.grantedAt ∧ p.grantedAt < T + cooldown) := by
    unfold inWindow
    rw [List.countP_filter]
    congr 1
    funext p
    simp only [Bool.decide_and, Bool.and_comm]
  rw [hcount]
  unfold Spaced at h
  generalize packs.filter (·.flsId = flsId) = mine at h ⊢
  induction mine with
  | nil => exact Nat.zero_le 1
  | cons p l ih =>
    rw [List.pairwise_cons] at h
    by_cases hp : T ≤ p.grantedAt ∧ p.grantedAt < T + cooldown
    · have hnone : l.countP (fun q => T ≤ q.grantedAt ∧ q.grantedAt < T + cooldown) = 0 := by
        rw [List.countP_eq_zero]
        intro q hq hin
        have := h.1 q hq
        have := of_decide_eq_true hin
        omega
      rw [List.countP_cons_of_pos (by exact decide_eq_true hp), hnone]
    · rw [List.countP_cons_of_neg (by simpa using hp)]
      exact ih h.2

/-- The packs of an identity are a whole cooldown apart, and at most one in any window, exactly in
the runs in which no `grant.sh` of the identity commits after it has missed a pack of the last
cooldown. -/
theorem spaced_iff_fresh (hne : flsId ≠ "") (hstart : s.Start flsId) {acts : List Act}
    (hrun : exec (step cooldown hashtext) s acts = some s') :
    (Along (step cooldown hashtext) (Sys.Fresh cooldown flsId) s acts ↔
        Spaced cooldown flsId s'.packs) ∧
      (Along (step cooldown hashtext) (Sys.Fresh cooldown flsId) s acts →
        ∀ T, inWindow cooldown flsId s'.packs T ≤ 1) := by
  have hspaced : Along (step cooldown hashtext) (Sys.Fresh cooldown flsId) s acts →
      Spaced cooldown flsId s'.packs := fun hfresh =>
    (Runs.exec_invariant (I := Inv cooldown flsId) (fun _ _ _ h hg hstep => h.step hne hg hstep)
      hstart.inv hfresh hrun).spaced
  exact ⟨⟨hspaced, fresh_of_exec hrun⟩, fun hfresh => window_le_one (hspaced hfresh)⟩

end

/-- Accounts 1 and 2 belong to the identity `F`; each has a character with backpack and hotbar. -/
def reroll : Sys where
  now := 5000000
  game :=
    { players := [⟨1, some 11, some 41, none, some 10⟩, ⟨2, some 12, some 42, none, some 20⟩]
      inventories := [⟨21, 11, 0⟩, ⟨22, 11, 15⟩, ⟨31, 12, 0⟩, ⟨32, 12, 15⟩]
      items := []
      actors := []
      balances := Table.empty }
  accounts := ⟨[⟨1, some "F", some "F#1"⟩, ⟨2, some "F", some "F#1"⟩], by decide⟩
  grants := Table.empty
  runs := []
  packs := []

theorem reroll_start : reroll.Start "F" :=
  ⟨rfl, rfl, fun _ h => absurd h (Table.not_mem_empty _)⟩

def lookups (i : Nat) : List Act := List.replicate 7 (.next i)
def transaction (i : Nat) : List Act := List.replicate 3 (.next i)

def overlapping (account : Nat) : List Act :=
  [.start 1 false, .start account false] ++ lookups 0 ++ lookups 1 ++ transaction 0 ++ transaction 1

def oneAfterTheOther : List Act :=
  [.start 1 false, .start 2 false] ++ lookups 0 ++ transaction 0 ++ List.replicate 5 (.next 1)

theorem oneAfterTheOther_goes :
    (exec (step 2592000 (fun s => s.length)) reroll oneAfterTheOther).isSome = true := by
  decide

theorem spaced_iff_fresh_reroll :
    ∃ s', exec (step 2592000 (fun s => s.length)) reroll oneAfterTheOther = some s' ∧
      s'.packs = [⟨"F", 1, 5000000⟩] ∧ ∀ T, inWindow 2592000 "F" s'.packs T ≤ 1 := by
  have hfresh : Along (step 2592000 (fun s => s.length)) (Sys.Fresh 2592000 "F") reroll
      oneAfterTheOther := by
    decide
  have hrun := (Option.some_get oneAfterTheOther_goes).symm
  refine ⟨_, hrun, by decide, ?_⟩
  exact (spaced_iff_fresh (by decide) reroll_start hrun).2 hfresh

/-- Two packs at one time, for the two accounts and for one of them twice. -/
theorem twoPacks :
    reroll.Start "F" ∧
      ((exec (step 2592000 (fun s => s.length)) reroll (overlapping 2)).map (fun s =>
        (s.packs, inWindow 2592000 "F" s.packs 5000000))) =
          some ([⟨"F", 1, 5000000⟩, ⟨"F", 2, 5000000⟩], 2) ∧
      ((exec (step 2592000 (fun s => s.length)) reroll (overlapping 1)).map (fun s =>
        (s.packs, inWindow 2592000 "F" s.packs 5000000))) =
          some ([⟨"F", 1, 5000000⟩, ⟨"F", 1, 5000000⟩], 2) :=
  ⟨reroll_start, by decide, by decide⟩

end LastSietch.Welcome
