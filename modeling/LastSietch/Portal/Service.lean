import LastSietch.Lib.Allowance
import LastSietch.Lib.Runs
import LastSietch.Portal.Reserve

/-!
# Caps in front of a writer

A `Service` is a route that reserves an attempt under a cap, sends it to a writer with a database
of its own and settles the reservation with the writer's answer. Calls are in flight together,
either direction may be lost, the writer may run long after the route has given up, and between
the steps time passes and everything outside changes.

`Sys.spends` records what the writer has really applied, and when. `Sys.Sound` is the condition
under which a submission does not undercut a cap: what the writer applied in the window or may
still apply is added up in full, and a key that goes through without a check would have passed it.

* `Fits.step`: the invariant of `Allowance` for the measure of one cap.
-/

namespace LastSietch.Portal

open Allowance (Spend Meter Fits spent)
open Runs (exec Along)

/-- A capped route and its writer. `handle` is the route up to `check_and_reserve`, `write` one run
of the writer, `applied` whether its answer says that it has done what it was asked to do for the
first time, `settle` the status an answer is settled with and `lost` the one for no answer.
`rows` is the writer's ledger, and `records row x` that `row` is the row of the spend `x`. -/
structure Service (φ : Type) where
  lane : Lane φ
  Form : Type
  Token : Type
  Body : Type
  Reply : Type
  World : Type
  Change : Type
  Row : Type
  handle : Directory → Form → Except Token (Nat × φ × Body)
  write : Nat → Body → World → Reply × World
  applied : Reply → Bool
  perturb : Change → World → World
  settle : Reply → Option EventStatus
  lost : Option EventStatus
  rows : World → List Row
  records : Row → Spend Nat φ → Prop

variable {φ : Type}

inductive WriterStage (ρ : Type)
  | sent | dropped
  | done (reply : ρ)

def WriterStage.isSent {ρ : Type} : WriterStage ρ → Bool
  | .sent => true
  | .dropped | .done _ => false

structure Service.Call (S : Service φ) where
  key : Nat
  facts : φ
  body : S.Body
  answered : Bool
  writer : WriterStage S.Reply

structure Service.Sys (S : Service φ) where
  now : Nat
  directory : Directory
  events : Events φ
  calls : List S.Call
  world : S.World
  spends : List (Spend Nat φ)

def Service.start (S : Service φ) (now : Nat) (directory : Directory) (world : S.World) : S.Sys :=
  ⟨now, directory, Table.empty, [], world, []⟩

inductive Service.Act (S : Service φ)
  | submit (form : S.Form)
  | write (i : Nat)
  | drop (i : Nat)
  | answer (i : Nat)
  | lose (i : Nat)
  | tick (seconds : Nat)
  | perturb (change : S.Change)
  | relink (directory : Directory)

namespace Service

variable {S : Service φ}

def Sys.submit (s : S.Sys) (form : S.Form) : S.Sys :=
  match S.handle s.directory form with
  | .error _ => s
  | .ok (key, facts, body) =>
    match S.lane.checkAndReserve s.directory s.events key facts s.now with
    | (some _, events) => { s with events }
    | (none, events) =>
      { s with events, calls := s.calls ++ [⟨key, facts, body, false, .sent⟩] }

def Sys.write (s : S.Sys) (i : Nat) (c : S.Call) : S.Sys :=
  let (reply, world) := S.write s.now c.body s.world
  { s with
    world
    calls := s.calls.set i { c with writer := .done reply }
    spends := if S.applied reply then ⟨c.key, c.facts, s.now⟩ :: s.spends else s.spends }

def Sys.settle (s : S.Sys) (i : Nat) (c : S.Call) (status : Option EventStatus) : S.Sys :=
  { s with
    calls := s.calls.set i { c with answered := true }
    events := match status with
      | some status => s.events.settle c.key status
      | none => s.events }

def step (s : S.Sys) : S.Act → Option S.Sys
  | .submit form => some (s.submit form)
  | .write i =>
    match s.calls[i]? with
    | some c => if c.writer.isSent then some (s.write i c) else none
    | none => none
  | .drop i =>
    match s.calls[i]? with
    | some c =>
      if c.writer.isSent then some { s with calls := s.calls.set i { c with writer := .dropped } }
      else none
    | none => none
  | .answer i =>
    match s.calls[i]? with
    | some c =>
      match c.answered, c.writer with
      | false, .done reply => some (s.settle i c (S.settle reply))
      | _, _ => none
    | none => none
  | .lose i =>
    match s.calls[i]? with
    | some c => if c.answered then none else some (s.settle i c S.lost)
    | none => none
  | .tick seconds => some { s with now := s.now + seconds }
  | .perturb change => some { s with world := S.perturb change s.world }
  | .relink directory => some { s with directory }

/-! ## The condition -/

def Sys.meter (s : S.Sys) : Meter Nat φ :=
  ⟨s.now, (s.calls.filter (fun c => c.writer.isSent)).map (fun c => (c.key, c.facts)), s.spends⟩

/-- What an attempt takes of the allowance `g` of a cap. -/
def measure (cap : Cap φ) (g : List String) (facts : φ) : Nat :=
  if cap.group facts = g then cap.weight facts else 0

def Sys.CountsFor (s : S.Sys) (cap : Cap φ) (facts : φ) (key : Nat) (taken : φ) : Prop :=
  measure cap (cap.group facts) taken = 0 ∨
    ∃ e ∈ S.lane.counted cap s.directory facts s.now s.events,
      e.idempotencyKey = key ∧ cap.weight taken ≤ cap.weight e.facts

/-- What the cap adds up for the attempt covers what has been applied in the window and what may
still be applied, and under a key that needs no check the check would have passed. -/
structure Sys.Summed (s : S.Sys) (cap : Cap φ) (key : Nat) (facts : φ) : Prop where
  spends : ∀ x ∈ s.meter.recent cap.window, x.key ≠ key → s.CountsFor cap facts x.key x.facts
  opens : ∀ x ∈ s.meter.opens, x.1 ≠ key → ¬ s.meter.Spent x.1 → s.CountsFor cap facts x.1 x.2
  room : (((S.lane.counted cap s.directory facts s.now s.events).filter
    (fun e => e.idempotencyKey ≠ key)).map (fun e => cap.weight e.facts)).sum + cap.weight facts ≤
      cap.limit

/-- A submission that goes out is of a key that the writer has applied, or its caps add up what
they are there to add up. -/
def Sys.Sound (s : S.Sys) : S.Act → Prop
  | .submit form =>
    match S.handle s.directory form with
    | .error _ => True
    | .ok (key, facts, _) =>
      (S.lane.checkAndReserve s.directory s.events key facts s.now).1.isNone →
        s.meter.Spent key ∨ ∀ cap ∈ S.lane.caps facts, s.Summed cap key facts
  | _ => True

variable {s s' : S.Sys}

theorem Sys.Summed.checked {cap : Cap φ} {key : Nat} {facts : φ}
    (hbreached : S.lane.breached s.directory s.events facts s.now = none)
    (hcap : cap ∈ S.lane.caps facts)
    (hspends : ∀ x ∈ s.meter.recent cap.window, x.key ≠ key → s.CountsFor cap facts x.key x.facts)
    (hopens : ∀ x ∈ s.meter.opens, x.1 ≠ key → ¬ s.meter.Spent x.1 →
      s.CountsFor cap facts x.1 x.2) : s.Summed cap key facts where
  spends := hspends
  opens := hopens
  room := by
    have hused := Lane.used_add_le hbreached hcap
    have hless := (List.filter_sublist (l := S.lane.counted cap s.directory facts s.now s.events)
      (p := fun e => e.idempotencyKey ≠ key)).map (fun e => cap.weight e.facts)
    have := hless.sum_le_sum (fun _ _ => Nat.zero_le _)
    unfold Lane.used at hused
    omega

theorem Sys.sound_start (now : Nat) (d : Directory) (w : S.World) (form : S.Form) :
    (S.start now d w).Sound (.submit form) := by
  unfold Sys.Sound
  dsimp only
  split
  · trivial
  · rename_i key facts body hform
    intro hout
    refine Or.inr (fun cap hcap => ?_)
    rcases S.lane.checkAndReserve_cases d Table.empty key facts now with
      ⟨hpasses, -⟩ | ⟨-, ⟨cap', -, hrefused⟩ | ⟨hbreached, -⟩⟩
    · cases hpasses
    · change (S.lane.checkAndReserve d Table.empty key facts now).1.isNone = true at hout
      rw [hrefused] at hout
      cases hout
    · exact .checked hbreached hcap (fun x hx => by cases hx) (fun x hx => by cases hx)

/-- The writer applies an attempt under a key that its ledger does not hold, and writes a row of
it; and nothing else changes its ledger. -/
structure Lawful (S : Service φ) : Prop where
  applied : ∀ d form key facts body now w, S.handle d form = .ok (key, facts, body) →
    S.applied (S.write now body w).1 = true →
      (∀ row ∈ S.rows w, ∀ x, S.records row x → x.key ≠ key) ∧
        ∃ row, S.rows (S.write now body w).2 = row :: S.rows w ∧ S.records row ⟨key, facts, now⟩
  replayed : ∀ now body w, S.applied (S.write now body w).1 = false →
    S.rows (S.write now body w).2 = S.rows w
  perturb : ∀ change w, S.rows (S.perturb change w) = S.rows w

structure Sys.Recorded (s : S.Sys) : Prop where
  rows : List.Forall₂ S.records (S.rows s.world) s.spends
  admitted : ∀ c ∈ s.calls, ∃ d form, S.handle d form = .ok (c.key, c.facts, c.body)

/-- What the rows of the ledger that were written for an attempt with `p` add up to. -/
def Sys.tally (s : S.Sys) (p : S.Row → φ → Bool) (units : S.Row → Int) : Int :=
  ((((S.rows s.world).zip s.spends).filter (fun x => p x.1 x.2.facts)).map
    (fun x => units x.1)).sum

/-! ## What a step does -/

def Kept (calls calls' : List S.Call) : Prop :=
  ∀ c' ∈ calls', ∃ c ∈ calls, c'.key = c.key ∧ c'.facts = c.facts ∧ c'.body = c.body ∧
    (c'.writer.isSent = true → c.writer.isSent = true)

theorem Kept.refl (calls : List S.Call) : Kept calls calls :=
  fun c hc => ⟨c, hc, rfl, rfl, rfl, id⟩

theorem Kept.set {calls : List S.Call} {i : Nat} {c c' : S.Call} (hc : calls[i]? = some c)
    (hsame : c'.key = c.key ∧ c'.facts = c.facts ∧ c'.body = c.body)
    (hsent : c'.writer.isSent = true → c.writer.isSent = true) : Kept calls (calls.set i c') := by
  intro d hd
  rcases List.mem_or_eq_of_mem_set hd with hd | rfl
  · exact Kept.refl calls d hd
  · exact ⟨c, List.mem_of_getElem? hc, hsame.1, hsame.2.1, hsame.2.2, hsent⟩

inductive Effect (s : S.Sys) (a : S.Act) : S.Sys → Prop
  | quiet {s' : S.Sys} (hnow : s.now ≤ s'.now) (hspends : s'.spends = s.spends)
      (hrows : S.rows s'.world = S.rows s.world) (hcalls : Kept s.calls s'.calls) : Effect s a s'
  | out (form : S.Form) (key : Nat) (facts : φ) (body : S.Body) (events : Events φ)
      (ha : a = .submit form) (hform : S.handle s.directory form = .ok (key, facts, body))
      (hout : S.lane.checkAndReserve s.directory s.events key facts s.now = (none, events)) :
    Effect s a { s with events, calls := s.calls ++ [⟨key, facts, body, false, .sent⟩] }
  | applied (i : Nat) (c : S.Call) (hc : s.calls[i]? = some c) (hsent : c.writer.isSent = true)
      (happlied : S.applied (S.write s.now c.body s.world).1 = true) : Effect s a (s.write i c)

theorem submit_effect (s : S.Sys) (form : S.Form) : Effect s (.submit form) (s.submit form) := by
  unfold Sys.submit
  cases hform : S.handle s.directory form with
  | error e => exact .quiet le_rfl rfl rfl (Kept.refl _)
  | ok x =>
    obtain ⟨key, facts, body⟩ := x
    dsimp only
    cases hout : S.lane.checkAndReserve s.directory s.events key facts s.now with
    | mk refused events =>
      cases refused with
      | some cap => exact .quiet le_rfl rfl rfl (Kept.refl _)
      | none => exact .out form key facts body events rfl hform hout

theorem write_effect (hS : S.Lawful) {a : S.Act} {i : Nat} {c : S.Call}
    (hc : s.calls[i]? = some c) (hsent : c.writer.isSent = true) :
    Effect s a (s.write i c) := by
  cases happlied : S.applied (S.write s.now c.body s.world).1 with
  | true => exact .applied i c hc hsent happlied
  | false =>
    refine .quiet le_rfl ?_ (hS.replayed _ _ _ happlied)
      (Kept.set hc ⟨rfl, rfl, rfl⟩ (fun h => by cases h))
    simp [Sys.write, happlied]

theorem step_effect (hS : S.Lawful) {a : S.Act} (hstep : S.step s a = some s') :
    Effect s a s' := by
  cases a with
  | submit form =>
    cases hstep
    exact submit_effect s form
  | write i =>
    simp only [step] at hstep
    split at hstep
    · rename_i c hc
      split at hstep
      · rename_i hsent
        cases hstep
        exact write_effect hS hc hsent
      · cases hstep
    · cases hstep
  | drop i =>
    simp only [step] at hstep
    split at hstep
    · rename_i c hc
      split at hstep
      · cases hstep
        exact .quiet le_rfl rfl rfl (Kept.set hc ⟨rfl, rfl, rfl⟩ (fun h => by cases h))
      · cases hstep
    · cases hstep
  | answer i =>
    simp only [step] at hstep
    split at hstep
    · rename_i c hc
      split at hstep
      · cases hstep
        exact .quiet le_rfl rfl rfl (Kept.set hc ⟨rfl, rfl, rfl⟩ id)
      · cases hstep
    · cases hstep
  | lose i =>
    simp only [step] at hstep
    split at hstep
    · rename_i c hc
      split at hstep
      · cases hstep
      · cases hstep
        exact .quiet le_rfl rfl rfl (Kept.set hc ⟨rfl, rfl, rfl⟩ id)
    · cases hstep
  | tick seconds =>
    cases hstep
    exact .quiet (Nat.le_add_right _ _) rfl rfl (Kept.refl _)
  | perturb change =>
    cases hstep
    exact .quiet le_rfl rfl (hS.perturb _ _) (Kept.refl _)
  | relink directory =>
    cases hstep
    exact .quiet le_rfl rfl rfl (Kept.refl _)

/-! ## The invariant -/

theorem Sys.write_spends {c : S.Call} (i : Nat)
    (happlied : S.applied (S.write s.now c.body s.world).1 = true) :
    (s.write i c).spends = ⟨c.key, c.facts, s.now⟩ :: s.spends := by
  simp [Sys.write, happlied]

theorem Sys.Recorded.start (now : Nat) (d : Directory) {w : S.World} (hw : S.rows w = []) :
    (S.start now d w).Recorded := by
  refine ⟨?_, fun _ hc => absurd hc List.not_mem_nil⟩
  show List.Forall₂ S.records (S.rows w) []
  rw [hw]
  exact .nil

theorem exists_of_forall₂ {α β : Type} {R : α → β → Prop} {l : List α} {l' : List β}
    (h : List.Forall₂ R l l') {b : β} (hb : b ∈ l') : ∃ a ∈ l, R a b := by
  induction h with
  | nil => cases hb
  | cons hR _ ih =>
    rcases List.mem_cons.mp hb with rfl | hb
    · exact ⟨_, List.mem_cons_self .., hR⟩
    · obtain ⟨a, ha, hab⟩ := ih hb
      exact ⟨a, List.mem_cons_of_mem _ ha, hab⟩

theorem sum_zip_filter {α β : Type} {R : α → β → Prop} {l : List α} {l' : List β}
    (h : List.Forall₂ R l l') {p : α × β → Bool} {q : β → Bool} {f : α → Int} {g : β → Nat}
    (hpq : ∀ a b, R a b → (if p (a, b) then f a else 0) = if q b then (g b : Int) else 0) :
    (((l.zip l').filter p).map (fun x => f x.1)).sum = (((l'.filter q).map g).sum : Nat) := by
  induction h with
  | nil => rfl
  | @cons a b l l' hR _ ih =>
    have hhead := hpq a b hR
    rw [List.zip_cons_cons, List.filter_cons, List.filter_cons]
    by_cases hp : p (a, b) <;> by_cases hq : q b <;> simp_all

theorem Sys.Recorded.kept (h : s.Recorded) (hcalls : Kept s.calls s'.calls) :
    ∀ c ∈ s'.calls, ∃ d form, S.handle d form = .ok (c.key, c.facts, c.body) := by
  intro c hc
  obtain ⟨d, hd, hkey, hfacts, hbody, -⟩ := hcalls c hc
  rw [hkey, hfacts, hbody]
  exact h.admitted d hd

theorem Sys.Recorded.unspent (hS : S.Lawful) (h : s.Recorded) {c : S.Call}
    (hc : c ∈ s.calls) (happlied : S.applied (S.write s.now c.body s.world).1 = true) :
    ¬ s.meter.Spent c.key := by
  rintro ⟨x, hx, hkey⟩
  obtain ⟨d, form, hform⟩ := h.admitted c hc
  obtain ⟨row, hrow, hrecords⟩ := exists_of_forall₂ h.rows hx
  exact (hS.applied _ _ _ _ _ _ _ hform happlied).1 row hrow x hrecords hkey

theorem Sys.Recorded.step (hS : S.Lawful) (h : s.Recorded) {a : S.Act}
    (hstep : S.step s a = some s') : s'.Recorded := by
  cases step_effect hS hstep with
  | quiet hnow hspends hrows hcalls =>
    exact ⟨by rw [hrows, hspends]; exact h.rows, h.kept hcalls⟩
  | out form key facts body events ha hform hout =>
    refine ⟨h.rows, fun c hc => ?_⟩
    rcases List.mem_append.mp hc with hc | hc
    · exact h.admitted c hc
    · rw [List.mem_singleton.mp hc]
      exact ⟨s.directory, form, hform⟩
  | applied i c hc hsent happlied =>
    obtain ⟨d, form, hform⟩ := h.admitted c (List.mem_of_getElem? hc)
    obtain ⟨-, row, hrows, hrecords⟩ := hS.applied _ _ _ _ _ _ _ hform happlied
    refine ⟨?_, h.kept (Kept.set hc ⟨rfl, rfl, rfl⟩ (fun h => by cases h))⟩
    rw [Sys.write_spends i happlied]
    show List.Forall₂ S.records (S.rows (S.write s.now c.body s.world).2) _
    rw [hrows]
    exact .cons hrecords h.rows

theorem mem_opens {x : Nat × φ} :
    x ∈ s.meter.opens ↔ ∃ c ∈ s.calls, c.writer.isSent = true ∧ (c.key, c.facts) = x := by
  simp only [Sys.meter, List.mem_map, List.mem_filter, and_assoc]

theorem opens_kept (hcalls : Kept s.calls s'.calls) {x : Nat × φ}
    (hx : x ∈ s'.meter.opens) : x ∈ s.meter.opens := by
  obtain ⟨c, hc, hsent, rfl⟩ := mem_opens.mp hx
  obtain ⟨d, hd, hkey, hfacts, -, hd'⟩ := hcalls c hc
  exact mem_opens.mpr ⟨d, hd, hd' hsent, by rw [hkey, hfacts]⟩

/-! ## The caps -/

section Cap

variable {cap : Cap φ} {g : List String}

abbrev FitsCap (cap : Cap φ) (g : List String) (s : S.Sys) : Prop :=
  Fits cap.window cap.limit (measure cap g) s.meter

theorem FitsCap.out {s : S.Sys} (h : FitsCap cap g s) {key : Nat} {facts : φ}
    {opens : List (Nat × φ)} (hopens : ∀ x ∈ opens, x = (key, facts) ∨ x ∈ s.meter.opens)
    (hsummed : s.meter.Spent key ∨ (cap.weight facts ≠ 0 → s.Summed cap key facts)) :
    Fits cap.window cap.limit (measure cap g) { s.meter with opens } := by
  by_cases hfree : s.meter.Spent key ∨ measure cap g facts = 0
  · exact h.free hopens hfree
  · rw [not_or] at hfree
    have hgroup : cap.group facts = g := by
      by_contra hne
      exact hfree.2 (if_neg hne)
    subst hgroup
    have hmeasure : measure cap (cap.group facts) facts = cap.weight facts := if_pos rfl
    rw [hmeasure] at hfree
    obtain ⟨hspends, hin, hroom⟩ := (hsummed.resolve_left hfree.1) hfree.2
    let rows := (S.lane.counted cap s.directory facts s.now s.events).filter
      (fun e => e.idempotencyKey ≠ key)
    let counted := rows.map (fun e => (e.idempotencyKey, cap.weight e.facts))
    have hcounts : ∀ (k : Nat) (taken : φ), k ≠ key → s.CountsFor cap facts k taken →
        Allowance.Counts counted k (measure cap (cap.group facts) taken) := by
      rintro k taken hk (hzero | ⟨e, he, rfl, hle⟩)
      · exact Or.inl hzero
      · refine Or.inr ⟨(e.idempotencyKey, cap.weight e.facts), ?_, rfl, ?_⟩
        · exact List.mem_map.mpr ⟨e, List.mem_filter.mpr ⟨he, by simpa using hk⟩, rfl⟩
        · refine le_trans ?_ hle
          unfold measure
          split
          · exact le_rfl
          · exact Nat.zero_le _
    have hcovered : Allowance.Covered cap.window (measure cap (cap.group facts)) s.meter key counted :=
      ⟨fun x hx hne => hcounts x.key x.facts hne (hspends x hx hne),
        fun x hx hne hunspent => hcounts x.1 x.2 hne (hin x hx hne hunspent)⟩
    apply h.reserve hopens hcovered
    rw [hmeasure, Allowance.total, List.map_map]
    exact hroom

theorem FitsCap.step (hS : S.Lawful) (hfaced : ∀ f, cap.weight f ≠ 0 → cap ∈ S.lane.caps f)
    {s s' : S.Sys} (hr : s.Recorded) (h : FitsCap cap g s) {a : S.Act} (hsound : s.Sound a)
    (hstep : S.step s a = some s') : FitsCap cap g s' := by
  cases step_effect hS hstep with
  | quiet hnow hspends hrows hcalls =>
    have hmeter : s'.meter = ⟨s'.now, s'.meter.opens, s.spends⟩ := by
      rw [← hspends]
      rfl
    show Fits _ _ _ s'.meter
    rw [hmeter]
    exact (h.tick hnow).close (fun x hx => opens_kept hcalls hx)
  | out form key facts body events ha hform hout =>
    subst ha
    simp only [Sys.Sound, hform, hout, Option.isNone_none, forall_const] at hsound
    have hsummed : s.meter.Spent key ∨ (cap.weight facts ≠ 0 → s.Summed cap key facts) :=
      hsound.imp_right (fun hall hweight => hall cap (hfaced facts hweight))
    refine FitsCap.out h (fun x hx => ?_) hsummed
    obtain ⟨c, hc, hsent, rfl⟩ := mem_opens.mp hx
    rcases List.mem_append.mp hc with hc | hc
    · exact Or.inr (mem_opens.mpr ⟨c, hc, hsent, rfl⟩)
    · rw [List.mem_singleton.mp hc]
      exact Or.inl rfl
  | applied i c hc hsent happlied =>
    have hmem := List.mem_of_getElem? hc
    have hspent := h.spend (mem_opens.mpr ⟨c, hmem, hsent, rfl⟩) (hr.unspent hS hmem happlied)
    have hkept : Kept s.calls (s.write i c).calls :=
      Kept.set hc ⟨rfl, rfl, rfl⟩ (fun h => by cases h)
    have hmeter : (s.write i c).meter =
        ⟨s.now, (s.write i c).meter.opens, ⟨c.key, c.facts, s.now⟩ :: s.spends⟩ := by
      rw [← Sys.write_spends i happlied]
      rfl
    show Fits _ _ _ (s.write i c).meter
    rw [hmeter]
    exact hspent.close (fun x hx => opens_kept hkept hx)

/-- No window holds more than the cap, whatever is sent, lost or late, in every run of sound
submissions. -/
theorem caps_hold (hS : S.Lawful) (hfaced : ∀ f, cap.weight f ≠ 0 → cap ∈ S.lane.caps f)
    {now : Nat} {d : Directory} {w : S.World} (hw : S.rows w = []) {acts : List S.Act}
    {s : S.Sys} (hsound : Along S.step Sys.Sound (S.start now d w) acts)
    (hrun : exec S.step (S.start now d w) acts = some s) (T : Nat) :
    spent (measure cap g) (s.meter.window cap.window T) ≤ cap.limit := by
  have hinv : s.Recorded ∧ FitsCap cap g s := by
    refine Runs.exec_invariant (I := fun s => s.Recorded ∧ FitsCap cap g s)
      (fun s a s' h hg hstep => ⟨h.1.step hS hstep, h.2.step hS hfaced h.1 hg hstep⟩)
      ⟨Sys.Recorded.start now d hw, Fits.start now⟩ hsound hrun
  exact hinv.2.windows T

variable (cap g) in
theorem tally_le (hS : S.Lawful) (hfaced : ∀ f, cap.weight f ≠ 0 → cap ∈ S.lane.caps f)
    {now : Nat} {d : Directory} {w : S.World} (hw : S.rows w = []) {acts : List S.Act}
    {s : S.Sys} (hsound : Along S.step Sys.Sound (S.start now d w) acts)
    (hrun : exec S.step (S.start now d w) acts = some s) (T : Nat) {p : S.Row → φ → Bool}
    {units : S.Row → Int}
    (hunits : ∀ row x, S.records row x → (if p row x.facts then units row else 0) =
      if T ≤ x.time ∧ x.time ≤ T + cap.window then (measure cap g x.facts : Int) else 0) :
    s.tally p units ≤ cap.limit := by
  have hrec : s.Recorded :=
    Runs.exec_invariant (I := Sys.Recorded) (fun _ _ _ h _ hstep => h.step hS hstep)
      (Sys.Recorded.start now d hw) hsound hrun
  have hsum : s.tally p units = spent (measure cap g) (s.meter.window cap.window T) := by
    refine sum_zip_filter hrec.rows (fun row x hx => ?_)
    rw [hunits row x hx]
    simp only [decide_eq_true_eq]
  rw [hsum]
  exact_mod_cast caps_hold hS hfaced hw hsound hrun T

end Cap

end Service

end LastSietch.Portal
