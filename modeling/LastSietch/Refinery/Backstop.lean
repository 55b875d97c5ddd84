import LastSietch.Lib.Pledges
import LastSietch.Lib.Runs
import LastSietch.Refinery.Once

/-!
# The weekly backstop under concurrency

The transactions of `build_exchange_sql` side by side, one step for each statement that reads or
locks something another transaction can change: every statement sees what is committed when it
starts, the uuid and the inventory rows are locked until the end, and an inventory lock is waited
for. The statements from the first consume on touch only rows that are locked by then, so that they
are one step with the `COMMIT`. Any transaction may be rolled back at any time, and the game may
change its own tables between all of them.

* `Inv.step`: what is committed and what is checked but not yet committed keep to the cap together.
-/

namespace LastSietch.Refinery

open Pledges (Entry Bounded since within)
open Runs (exec Along)

/-! ## Transactions -/

def Pawn.ids (p : Pawn) : List Nat :=
  (p.bank.id :: p.backpack.id :: (p.toolbar.map (·.id)).toList).insertionSort (· ≤ ·)

inductive TxnStage
  | begun
  | keyed
  | gated
  | locking (pawn : Pawn) (held todo : List Nat)
  | checked (pawn : Pawn)
  | closed

/-- `startedAt` is `now()` in all its statements. -/
structure Txn where
  terms : Terms
  dryRun : Bool
  startedAt : Nat
  stage : TxnStage

def TxnStage.holds : TxnStage → List Nat
  | .locking _ held _ => held
  | .checked pawn => pawn.ids
  | .begun | .keyed | .gated | .closed => []

def TxnStage.holdsKey : TxnStage → Bool
  | .begun | .closed => false
  | .keyed | .gated | .locking _ _ _ | .checked _ => true

def Txn.pledge (accountId : Nat) (outputTemplate : String) (x : Txn) : Option Entry :=
  match x.stage with
  | .checked _ =>
    if x.dryRun = false ∧ x.terms.accountId = accountId ∧
        x.terms.recipe.outputTemplate = outputTemplate then
      some (x.startedAt, (x.terms.dustUnits : Int))
    else none
  | _ => none

namespace Txn

structure Sys where
  now : Nat
  db : Db
  txns : List Txn

inductive Act
  | start (c : Call)
  | key (i : Nat)
  | gate (i : Nat)
  | resolve (i : Nat)
  | lock (i : Nat)
  | read (i : Nat)
  | finish (i : Nat)
  | abort (i : Nat)
  | tick (seconds : Nat)
  | game (g : Game)

def Sys.others (s : Sys) (i : Nat) : List Txn := s.txns.eraseIdx i

def Sys.move (s : Sys) (i : Nat) (x : Txn) (stage : TxnStage) : Sys :=
  { s with txns := s.txns.set i { x with stage } }

def Sys.week (s : Sys) (x : Txn) : Int :=
  weeklyUsed s.db.ledger x.terms.accountId x.terms.recipe.outputTemplate x.terms.rates.windowDays
    x.startedAt

/-- `BEGIN`, of a request that passes the checks before the session. -/
def Sys.start (rates : Rates) (s : Sys) (c : Call) : Sys :=
  match accept { c with rates := some rates, now := s.now } with
  | .error _ => s
  | .ok terms => { s with txns := s.txns ++ [⟨terms, c.dryRun, s.now, .begun⟩] }

def Sys.key (s : Sys) (i : Nat) (x : Txn) : Option Sys :=
  if (s.others i).any (fun y =>
      y.stage.holdsKey && y.terms.idempotencyKey == x.terms.idempotencyKey) then none
  else
    match s.db.ledger.get? x.terms.idempotencyKey with
    | some _ => some (s.move i x .closed)
    | none => some (s.move i x .keyed)

def Sys.gate (s : Sys) (i : Nat) (x : Txn) : Sys :=
  match s.db.game.offlineGate x.startedAt x.terms.accountId with
  | .error _ => s.move i x .closed
  | .ok _ => s.move i x .gated

def Sys.resolve (s : Sys) (i : Nat) (x : Txn) : Sys :=
  match s.db.game.pawn x.terms.accountId x.terms.ownerCtrl with
  | .error _ => s.move i x .closed
  | .ok pawn => s.move i x (.locking pawn [] pawn.ids)

/-- The next inventory row `FOR UPDATE`, which waits for the transaction that holds it. -/
def Sys.lock (s : Sys) (i : Nat) (x : Txn) (pawn : Pawn) (held : List Nat) (id : Nat)
    (todo : List Nat) : Option Sys :=
  if (s.others i).all (fun y => id ∉ y.stage.holds) then
    some (s.move i x (.locking pawn (held ++ [id]) todo))
  else none

def Sys.read (s : Sys) (i : Nat) (x : Txn) (pawn : Pawn) : Sys :=
  if s.week x + x.terms.dustUnits ≤ x.terms.rates.weeklyDustCap then s.move i x (.checked pawn)
  else s.move i x .closed

def Sys.finish (delete : Items → Nat → Int → Items) (s : Sys) (i : Nat) (x : Txn) (pawn : Pawn) :
    Sys :=
  match work delete x.terms x.startedAt pawn s.db with
  | .error _ => s.move i x .closed
  | .ok (_, db) => if x.dryRun then s.move i x .closed else { s.move i x .closed with db }

def step (delete : Items → Nat → Int → Items) (rates : Rates) (s : Sys) : Act → Option Sys
  | .start c => some (s.start rates c)
  | .key i => do
    let x ← s.txns[i]?
    match x.stage with
    | .begun => s.key i x
    | _ => none
  | .gate i => do
    let x ← s.txns[i]?
    match x.stage with
    | .keyed => some (s.gate i x)
    | _ => none
  | .resolve i => do
    let x ← s.txns[i]?
    match x.stage with
    | .gated => some (s.resolve i x)
    | _ => none
  | .lock i => do
    let x ← s.txns[i]?
    match x.stage with
    | .locking pawn held (id :: todo) => s.lock i x pawn held id todo
    | _ => none
  | .read i => do
    let x ← s.txns[i]?
    match x.stage with
    | .locking pawn _ [] => some (s.read i x pawn)
    | _ => none
  | .finish i => do
    let x ← s.txns[i]?
    match x.stage with
    | .checked pawn => some (s.finish delete i x pawn)
    | _ => none
  | .abort i => do
    let x ← s.txns[i]?
    some (s.move i x .closed)
  | .tick seconds => some { s with now := s.now + seconds }
  | .game g => some { s with db := { s.db with game := g } }

def Sys.beside (s : Sys) (pawn : Pawn) (accountId : Nat) (outputTemplate : String) : List Entry :=
  s.txns.filterMap (fun y =>
    if y.stage.holds.all (fun id => id ∉ pawn.ids) then y.pledge accountId outputTemplate else none)

/-- A total that lets a transaction through has room for what the exchanges of the account on
other pawns have pledged. -/
def Sys.HasRoom (s : Sys) (x : Txn) (pawn : Pawn) : Prop :=
  s.week x + x.terms.dustUnits ≤ x.terms.rates.weeklyDustCap →
    s.week x + since (x.terms.rates.windowDays * 86400) x.startedAt
      (s.beside pawn x.terms.accountId x.terms.recipe.outputTemplate) + x.terms.dustUnits ≤
        x.terms.rates.weeklyDustCap

instance (s : Sys) (x : Txn) (pawn : Pawn) : Decidable (s.HasRoom x pawn) := by
  unfold Sys.HasRoom
  infer_instance

def Sys.Roomy (s : Sys) : Act → Prop
  | .read i => ∀ x pawn held, s.txns[i]? = some x → x.stage = .locking pawn held [] →
    x.dryRun = false → s.HasRoom x pawn
  | _ => True

/-! ## The invariant -/

section Inv

variable {delete : Items → Nat → Int → Items} {rates : Rates} {accountId : Nat}
  {outputTemplate : String} {s s' : Sys}

def committed (ledger : Ledger) (accountId : Nat) (outputTemplate : String) : List Entry :=
  (ledger.rows.filter (fun e => e.accountId = accountId ∧ e.outputTemplate = outputTemplate)).map
    (fun e => (e.createdAt, e.dustUnits))

def Sys.entries (s : Sys) (accountId : Nat) (outputTemplate : String) : List Entry :=
  committed s.db.ledger accountId outputTemplate ++ s.txns.filterMap (Txn.pledge accountId outputTemplate)

structure Inv (rates : Rates) (accountId : Nat) (outputTemplate : String) (s : Sys) : Prop where
  table : ∀ x ∈ s.txns, x.terms.rates = rates
  locked : ∀ x ∈ s.txns, ∀ pawn held todo, x.stage = .locking pawn held todo →
    held ++ todo = pawn.ids
  exclusive : ∀ (i j : Nat) x y, i ≠ j → s.txns[i]? = some x → s.txns[j]? = some y →
    ∀ id ∈ x.stage.holds, id ∉ y.stage.holds
  bounded : Bounded (rates.windowDays * 86400) rates.weeklyDustCap
    (s.entries accountId outputTemplate)

inductive Effect (delete : Items → Nat → Int → Items) (rates : Rates) (s : Sys) : Act → Sys → Prop
  | idle {a : Act} {s' : Sys} (htxns : s'.txns = s.txns) (hledger : s'.db.ledger = s.db.ledger) :
    Effect delete rates s a s'
  | opened {a : Act} (terms : Terms) (dryRun : Bool) (startedAt : Nat)
      (hrates : terms.rates = rates) :
    Effect delete rates s a { s with txns := s.txns ++ [⟨terms, dryRun, startedAt, .begun⟩] }
  | moved {a : Act} (i : Nat) (x : Txn) (stage : TxnStage) (hx : s.txns[i]? = some x)
      (hholds : stage.holds = []) (hnew : ∀ pawn, stage ≠ .checked pawn)
      (hlocked : ∀ pawn held todo, stage = .locking pawn held todo → held ++ todo = pawn.ids) :
    Effect delete rates s a (s.move i x stage)
  | lockTaken {a : Act} (i : Nat) (x : Txn) (pawn : Pawn) (held : List Nat) (id : Nat)
      (todo : List Nat) (hx : s.txns[i]? = some x) (hstage : x.stage = .locking pawn held (id :: todo))
      (hfree : ∀ y ∈ s.others i, id ∉ y.stage.holds) :
    Effect delete rates s a (s.move i x (.locking pawn (held ++ [id]) todo))
  | pledged (i : Nat) (x : Txn) (pawn : Pawn) (held : List Nat) (hx : s.txns[i]? = some x)
      (hstage : x.stage = .locking pawn held [])
      (hfits : s.week x + x.terms.dustUnits ≤ x.terms.rates.weeklyDustCap) :
    Effect delete rates s (.read i) (s.move i x (.checked pawn))
  | written {a : Act} (i : Nat) (x : Txn) (pawn : Pawn) (r : Result) (db : Db)
      (hx : s.txns[i]? = some x) (hstage : x.stage = .checked pawn) (hlive : x.dryRun = false)
      (hwork : work delete x.terms x.startedAt pawn s.db = .ok (r, db)) :
    Effect delete rates s a { s.move i x .closed with db }

variable {i : Nat} {x : Txn}

theorem Effect.closed {a : Act} (hx : s.txns[i]? = some x) :
    Effect delete rates s a (s.move i x .closed) :=
  .moved i x .closed hx rfl (fun _ h => by cases h) (fun _ _ _ h => by cases h)

theorem start_effect (c : Call) : Effect delete rates s (.start c) (s.start rates c) := by
  unfold Sys.start
  split
  · exact .idle rfl rfl
  · rename_i terms haccept
    exact .opened terms c.dryRun s.now (Option.some.inj (accept_spec haccept).2.2.2.2.1).symm

theorem key_effect (hx : s.txns[i]? = some x) (h : s.key i x = some s') :
    Effect delete rates s (.key i) s' := by
  unfold Sys.key at h
  split at h
  · cases h
  · split at h
    · cases h
      exact .closed hx
    · cases h
      exact .moved i x .keyed hx rfl (fun _ h => by cases h) (fun _ _ _ h => by cases h)

theorem gate_effect (hx : s.txns[i]? = some x) :
    Effect delete rates s (.gate i) (s.gate i x) := by
  unfold Sys.gate
  split
  · exact .closed hx
  · exact .moved i x .gated hx rfl (fun _ h => by cases h) (fun _ _ _ h => by cases h)

theorem resolve_effect (hx : s.txns[i]? = some x) :
    Effect delete rates s (.resolve i) (s.resolve i x) := by
  unfold Sys.resolve
  split
  · exact .closed hx
  · refine .moved i x _ hx rfl (fun _ h => by cases h) (fun pawn held todo h => ?_)
    cases h
    rfl

variable {pawn : Pawn}

theorem finish_effect (hx : s.txns[i]? = some x) (hstage : x.stage = .checked pawn) :
    Effect delete rates s (.finish i) (s.finish delete i x pawn) := by
  unfold Sys.finish
  split
  · exact .closed hx
  · rename_i r db hwork
    cases hdry : x.dryRun with
    | true => exact .closed hx
    | false => exact .written i x pawn r db hx hstage hdry hwork

theorem step_effect {a : Act} (hstep : step delete rates s a = some s') :
    Effect delete rates s a s' := by
  cases a with
  | start c =>
    cases hstep
    exact start_effect c
  | key i =>
    obtain ⟨x, hx, hstep⟩ := Option.bind_eq_some_iff.mp hstep
    split at hstep
    · exact key_effect hx hstep
    · cases hstep
  | gate i =>
    obtain ⟨x, hx, hstep⟩ := Option.bind_eq_some_iff.mp hstep
    split at hstep
    · cases hstep
      exact gate_effect hx
    · cases hstep
  | resolve i =>
    obtain ⟨x, hx, hstep⟩ := Option.bind_eq_some_iff.mp hstep
    split at hstep
    · cases hstep
      exact resolve_effect hx
    · cases hstep
  | lock i =>
    obtain ⟨x, hx, hstep⟩ := Option.bind_eq_some_iff.mp hstep
    split at hstep
    · rename_i pawn held id todo hstage
      unfold Sys.lock at hstep
      split at hstep
      · rename_i hfree
        cases hstep
        exact .lockTaken i x pawn held id todo hx hstage (by simpa using hfree)
      · cases hstep
    · cases hstep
  | read i =>
    obtain ⟨x, hx, hstep⟩ := Option.bind_eq_some_iff.mp hstep
    split at hstep
    · rename_i pawn held hstage
      cases hstep
      unfold Sys.read
      split
      · rename_i hfits
        exact .pledged i x pawn held hx hstage hfits
      · exact .closed hx
    · cases hstep
  | finish i =>
    obtain ⟨x, hx, hstep⟩ := Option.bind_eq_some_iff.mp hstep
    split at hstep
    · rename_i pawn hstage
      cases hstep
      exact finish_effect hx hstage
    · cases hstep
  | abort i =>
    obtain ⟨x, hx, hstep⟩ := Option.bind_eq_some_iff.mp hstep
    cases hstep
    exact .closed hx
  | tick seconds =>
    cases hstep
    exact .idle rfl rfl
  | game g =>
    cases hstep
    exact .idle rfl rfl

variable {stage : TxnStage}

theorem mem_move {y : Txn}
    (hy : y ∈ (s.move i x stage).txns) : y ∈ s.txns ∨ y = { x with stage } := by
  rcases List.mem_or_eq_of_mem_set hy with hy | rfl
  · exact Or.inl hy
  · exact Or.inr rfl

theorem Inv.table_move (h : Inv rates accountId outputTemplate s) (hx : s.txns[i]? = some x) :
    ∀ y ∈ (s.move i x stage).txns, y.terms.rates = rates := by
  intro y hy
  rcases mem_move hy with hy | rfl
  · exact h.table y hy
  · exact h.table x (List.mem_of_getElem? hx)

theorem Inv.locked_move (h : Inv rates accountId outputTemplate s)
    (hstage : ∀ pawn held todo, stage = .locking pawn held todo → held ++ todo = pawn.ids) :
    ∀ y ∈ (s.move i x stage).txns, ∀ pawn held todo, y.stage = .locking pawn held todo →
      held ++ todo = pawn.ids := by
  intro y hy
  rcases mem_move hy with hy | rfl
  · exact h.locked y hy
  · exact hstage

theorem Inv.exclusive_move (h : Inv rates accountId outputTemplate s) (hx : s.txns[i]? = some x)
    (hnew : ∀ id ∈ stage.holds, id ∈ x.stage.holds ∨ ∀ y ∈ s.others i, id ∉ y.stage.holds) :
    ∀ (j k : Nat) y z, j ≠ k → (s.move i x stage).txns[j]? = some y →
      (s.move i x stage).txns[k]? = some z → ∀ id ∈ y.stage.holds, id ∉ z.stage.holds := by
  have hother : ∀ (k : Nat) z, k ≠ i → s.txns[k]? = some z →
      ∀ id ∈ stage.holds, id ∉ z.stage.holds := by
    intro k z hk hz id hid
    rcases hnew id hid with hold | hfree
    · exact h.exclusive i k x z hk.symm hx hz id hold
    · exact hfree z (List.mem_eraseIdx_iff_getElem?.mpr ⟨k, hk, hz⟩)
  have hlt : i < s.txns.length := (List.getElem?_eq_some_iff.mp hx).1
  intro j k y z hne hy hz id hid hid'
  simp only [Sys.move, List.getElem?_set] at hy hz
  by_cases hj : i = j
  · rw [if_pos hj, if_pos hlt] at hy
    rw [if_neg (fun hk => hne (hj.symm.trans hk))] at hz
    cases hy
    exact hother k z (fun hk => hne (hj.symm.trans hk.symm)) hz id hid hid'
  · rw [if_neg hj] at hy
    by_cases hk : i = k
    · rw [if_pos hk, if_pos hlt] at hz
      cases hz
      exact hother j y (fun hji => hj hji.symm) hy id hid' hid
    · rw [if_neg hk] at hz
      exact h.exclusive j k y z hne hy hz id hid hid'

theorem pledge_of_stage (hnew : ∀ pawn, stage ≠ .checked pawn) :
    ({ x with stage } : Txn).pledge accountId outputTemplate = none := by
  unfold Txn.pledge
  split
  · rename_i pawn hstage
    exact absurd hstage (hnew pawn)
  · rfl

theorem entries_move (hx : s.txns[i]? = some x) (hnew : ∀ pawn, stage ≠ .checked pawn) :
    ((s.move i x stage).entries accountId outputTemplate).Sublist
      (s.entries accountId outputTemplate) := by
  obtain ⟨before, after, hold, hnow⟩ := Pledges.filterMap_set hx
    (Txn.pledge accountId outputTemplate) { x with stage }
  rw [pledge_of_stage hnew] at hnow
  unfold Sys.entries
  refine (List.Sublist.refl _).append ?_
  show (List.filterMap _ (s.txns.set i _)).Sublist _
  rw [hold, hnow]
  refine List.Sublist.append ?_ (List.Sublist.refl _)
  simp

theorem week_eq (s : Sys) (x : Txn) :
    s.week x = since (x.terms.rates.windowDays * 86400) x.startedAt
      (committed s.db.ledger x.terms.accountId x.terms.recipe.outputTemplate) := by
  unfold Sys.week weeklyUsed since committed
  rw [List.filter_map, List.map_map, List.filter_filter]
  congr 2
  apply List.filter_congr
  intro e _
  simp only [Function.comp_apply, Bool.decide_and, Bool.and_comm]
  rw [Bool.and_assoc]

theorem Inv.beside_eq (h : Inv rates accountId outputTemplate s)
    {held : List Nat} (hx : s.txns[i]? = some x) (hstage : x.stage = .locking pawn held [])
    (acct : Nat) (template : String) :
    s.beside pawn acct template = s.txns.filterMap (Txn.pledge acct template) := by
  have hids : x.stage.holds = pawn.ids := by
    rw [← h.locked x (List.mem_of_getElem? hx) pawn held [] hstage, List.append_nil, hstage]
    rfl
  unfold Sys.beside
  apply List.filterMap_congr
  intro y hy
  by_cases hchecked : ∃ q, y.stage = .checked q
  · obtain ⟨q, hq⟩ := hchecked
    obtain ⟨j, hj⟩ := List.mem_iff_getElem?.mp hy
    have hne : j ≠ i := by
      rintro rfl
      rw [hx] at hj
      cases hj
      rw [hstage] at hq
      cases hq
    rw [if_pos]
    rw [List.all_eq_true]
    intro id hid
    rw [← hids]
    simpa using h.exclusive j i y x hne hj hx id hid
  · have hnone : y.pledge acct template = none := by
      unfold Txn.pledge
      split
      · rename_i q hq
        exact absurd ⟨q, hq⟩ hchecked
      · rfl
    rw [hnone]
    exact ite_self none

theorem pledge_locking {held todo : List Nat}
    (hstage : x.stage = .locking pawn held todo) : x.pledge accountId outputTemplate = none := by
  unfold Txn.pledge
  rw [hstage]

theorem Inv.bounded_pledged (h : Inv rates accountId outputTemplate s) {held : List Nat} (hx : s.txns[i]? = some x)
    (hstage : x.stage = .locking pawn held [])
    (hfits : s.week x + x.terms.dustUnits ≤ x.terms.rates.weeklyDustCap)
    (hroom : x.dryRun = false → s.HasRoom x pawn) :
    Bounded (rates.windowDays * 86400) rates.weeklyDustCap
      ((s.move i x (.checked pawn)).entries accountId outputTemplate) := by
  obtain ⟨before, after, hold, hnow⟩ := Pledges.filterMap_set hx
    (Txn.pledge accountId outputTemplate) { x with stage := .checked pawn }
  rw [pledge_locking hstage] at hold
  have hentries : (s.move i x (.checked pawn)).entries accountId outputTemplate =
      committed s.db.ledger accountId outputTemplate ++ (s.txns.set i _).filterMap _ := rfl
  rw [hentries, hnow]
  cases hpledge : ({ x with stage := .checked pawn } : Txn).pledge accountId outputTemplate with
  | none =>
    have hsame := h.bounded
    unfold Sys.entries at hsame
    rw [hold] at hsame
    exact hsame
  | some e =>
    simp only [Txn.pledge, Option.ite_none_right_eq_some, Option.some.injEq] at hpledge
    obtain ⟨⟨hlive, hacct, htemplate⟩, rfl⟩ := hpledge
    have hrates := h.table x (List.mem_of_getElem? hx)
    have hroom := hroom hlive hfits
    rw [h.beside_eq hx hstage, week_eq, ← Pledges.since_append, hrates, hacct, htemplate] at hroom
    have hcons := h.bounded.cons (Int.natCast_nonneg _) hroom
    unfold Sys.entries at hcons
    rw [hold] at hcons
    exact hcons.perm (Pledges.perm_pledge _ _ before after)

theorem Inv.bounded_written (h : Inv rates accountId outputTemplate s) {r : Result} {db : Db} (hx : s.txns[i]? = some x)
    (hstage : x.stage = .checked pawn) (hlive : x.dryRun = false)
    (hwork : work delete x.terms x.startedAt pawn s.db = .ok (r, db)) :
    Bounded (rates.windowDays * 86400) rates.weeklyDustCap
      (({ s.move i x .closed with db } : Sys).entries accountId outputTemplate) := by
  obtain ⟨-, row, hrows, -, htime, hagrees⟩ := work_row hwork
  obtain ⟨before, after, hold, hnow⟩ := Pledges.filterMap_set hx
    (Txn.pledge accountId outputTemplate) { x with stage := .closed }
  have hentries : ({ s.move i x .closed with db } : Sys).entries accountId outputTemplate =
      committed db.ledger accountId outputTemplate ++ (s.txns.set i _).filterMap _ := rfl
  have hbounded := h.bounded
  unfold Sys.entries at hbounded
  rw [hold] at hbounded
  rw [hentries, hnow]
  by_cases hmine : x.terms.accountId = accountId ∧ x.terms.recipe.outputTemplate = outputTemplate
  · have hpledge : x.pledge accountId outputTemplate =
        some (x.startedAt, (x.terms.dustUnits : Int)) := by
      simp only [Txn.pledge, hstage, hlive, hmine, and_self, if_true]
    have hcommitted : committed db.ledger accountId outputTemplate =
        (x.startedAt, (x.terms.dustUnits : Int)) ::
          committed s.db.ledger accountId outputTemplate := by
      unfold committed
      rw [hrows, List.filter_cons_of_pos, List.map_cons, htime, hagrees.dustUnits]
      simpa [hagrees.accountId, hagrees.outputTemplate] using hmine
    rw [hpledge] at hbounded
    rw [hcommitted]
    exact hbounded.perm (Pledges.perm_pledge _ _ before after).symm
  · have hpledge : x.pledge accountId outputTemplate = none := by
      simp only [Txn.pledge, hstage]
      exact if_neg (fun hboth => hmine hboth.2)
    have hcommitted : committed db.ledger accountId outputTemplate =
        committed s.db.ledger accountId outputTemplate := by
      unfold committed
      rw [hrows, List.filter_cons_of_neg]
      simpa [hagrees.accountId, hagrees.outputTemplate] using hmine
    rw [hpledge] at hbounded
    rw [hcommitted]
    exact hbounded

theorem getElem?_opened {l : List Txn} {y : Txn} {j : Nat} (h : (l ++ [x])[j]? = some y) :
    l[j]? = some y ∨ y = x := by
  by_cases hj : j < l.length
  · rw [List.getElem?_append_left hj] at h
    exact Or.inl h
  · rw [List.getElem?_append_right (not_lt.mp hj)] at h
    exact Or.inr (List.mem_singleton.mp (List.mem_of_getElem? h))

theorem Inv.step {a : Act} (h : Inv rates accountId outputTemplate s) (hroomy : s.Roomy a)
    (hstep : step delete rates s a = some s') : Inv rates accountId outputTemplate s' := by
  cases step_effect hstep with
  | idle htxns hledger =>
    refine ⟨?_, ?_, ?_, ?_⟩
    · rw [htxns]
      exact h.table
    · rw [htxns]
      exact h.locked
    · rw [htxns]
      exact h.exclusive
    · unfold Sys.entries
      rw [htxns, hledger]
      exact h.bounded
  | opened terms dryRun startedAt hrates =>
    -- a transaction that has just begun holds nothing and pledges nothing
    refine ⟨fun y hy => ?_, fun y hy => ?_, fun j k y z hne hy hz => ?_, ?_⟩
    · rcases List.mem_append.mp hy with hy | hy
      · exact h.table y hy
      · rw [List.mem_singleton.mp hy]
        exact hrates
    · rcases List.mem_append.mp hy with hy | hy
      · exact h.locked y hy
      · rw [List.mem_singleton.mp hy]
        intro _ _ _ hstage
        cases hstage
    · intro id hid hid'
      rcases getElem?_opened hy with hy | rfl
      · rcases getElem?_opened hz with hz | rfl
        · exact h.exclusive j k y z hne hy hz id hid hid'
        · cases hid'
      · cases hid
    · unfold Sys.entries
      rw [List.filterMap_append]
      show Bounded _ _ (_ ++ (_ ++ []))
      rw [List.append_nil]
      exact h.bounded
  | moved i x stage hx hholds hnew hlocked =>
    refine ⟨h.table_move hx, h.locked_move hlocked, h.exclusive_move hx (fun id hid => ?_),
      h.bounded.sublist (entries_move hx hnew)⟩
    rw [hholds] at hid
    cases hid
  | lockTaken i x pawn held id todo hx hstage hfree =>
    refine ⟨h.table_move hx, h.locked_move ?_, h.exclusive_move hx ?_,
      h.bounded.sublist (entries_move hx (fun _ h => by cases h))⟩
    · rintro p held' todo' ⟨⟩
      have := h.locked x (List.mem_of_getElem? hx) pawn held (id :: todo) hstage
      simpa using this
    · intro id' hid
      rcases List.mem_append.mp hid with hid | hid
      · left
        rw [hstage]
        exact hid
      · right
        rw [List.mem_singleton.mp hid]
        exact hfree
  | pledged i x pawn held hx hstage hfits =>
    refine ⟨h.table_move hx, h.locked_move (fun _ _ _ h => by cases h),
      h.exclusive_move hx (fun id hid => ?_),
      h.bounded_pledged hx hstage hfits (hroomy x pawn held hx hstage)⟩
    left
    have hids := h.locked x (List.mem_of_getElem? hx) pawn held [] hstage
    rw [List.append_nil] at hids
    rw [hstage]
    show id ∈ held
    rw [hids]
    exact hid
  | written i x pawn r db hx hstage hlive hwork =>
    refine ⟨h.table_move hx, h.locked_move (fun _ _ _ h => by cases h),
      h.exclusive_move hx (fun id hid => ?_), h.bounded_written hx hstage hlive hwork⟩
    cases hid

end Inv

/-! ## The bound -/

/-- The dust of the rows of the window from `T`. -/
def dustIn (ledger : Ledger) (accountId : Nat) (outputTemplate : String) (windowDays T : Nat) : Int :=
  ((ledger.rows.filter (fun e => e.accountId = accountId ∧ e.outputTemplate = outputTemplate ∧
    T ≤ e.createdAt ∧ e.createdAt ≤ T + windowDays * 86400)).map (·.dustUnits)).sum

theorem dustIn_eq (ledger : Ledger) (accountId : Nat) (outputTemplate : String)
    (windowDays T : Nat) :
    dustIn ledger accountId outputTemplate windowDays T =
      within (windowDays * 86400) T (committed ledger accountId outputTemplate) := by
  unfold dustIn within committed
  rw [List.filter_map, List.map_map, List.filter_filter]
  congr 2
  apply List.filter_congr
  intro e _
  simp only [Function.comp_apply, Bool.decide_and, Bool.and_comm]
  rw [Bool.and_assoc]

structure Sys.Fresh (rates : Rates) (accountId : Nat) (outputTemplate : String) (s : Sys) : Prop where
  none_open : s.txns = []
  checked : ∀ e ∈ s.db.ledger, e.checked = true
  windows : ∀ T, dustIn s.db.ledger accountId outputTemplate rates.windowDays T ≤ rates.weeklyDustCap

theorem Sys.Fresh.inv {rates : Rates} {accountId : Nat} {outputTemplate : String} {s : Sys}
    (h : s.Fresh rates accountId outputTemplate) : Inv rates accountId outputTemplate s := by
  have hentries : s.entries accountId outputTemplate =
      committed s.db.ledger accountId outputTemplate := by
    unfold Sys.entries
    rw [h.none_open]
    exact List.append_nil _
  refine ⟨?_, ?_, ?_, ?_⟩
  · rw [h.none_open]
    exact fun _ hx => absurd hx List.not_mem_nil
  · rw [h.none_open]
    exact fun _ hx => absurd hx List.not_mem_nil
  · rw [h.none_open]
    intro i j x y _ hx
    cases hx
  · rw [hentries]
    refine ⟨fun e he => ?_, fun T => ?_⟩
    · obtain ⟨row, hrow, rfl⟩ := List.mem_map.mp he
      have hchecked := h.checked row (List.mem_filter.mp hrow).1
      simp only [Exchange.checked, Bool.and_eq_true, decide_eq_true_eq] at hchecked
      exact hchecked.1.1.2.le
    · rw [← dustIn_eq]
      exact h.windows T

theorem beside_sameBank {accountId : Nat} {outputTemplate : String} {s : Sys}
    {pawn : Pawn} (hsame : ∀ y ∈ s.txns, ∀ q, y.stage = .checked q →
      y.terms.accountId = accountId → q.bank.id = pawn.bank.id) :
    s.beside pawn accountId outputTemplate = [] := by
  unfold Sys.beside
  rw [List.filterMap_eq_nil_iff]
  intro y hy
  by_cases hdisjoint : (y.stage.holds.all (fun id => id ∉ pawn.ids)) = true
  · rw [if_pos hdisjoint]
    unfold Txn.pledge
    split
    · rename_i q hq
      refine if_neg (fun hpledge => ?_)
      have hbank : ∀ p : Pawn, p.bank.id ∈ p.ids := fun p =>
        (List.mem_insertionSort _).mpr (List.mem_cons_self ..)
      rw [hq] at hdisjoint
      have hfree := List.all_eq_true.mp hdisjoint q.bank.id (hbank q)
      rw [hsame y hy q hq hpledge.2.1] at hfree
      simp only [decide_not, Bool.not_eq_true', decide_eq_false_iff_not] at hfree
      exact hfree (hbank pawn)
    · rfl
  · rw [if_neg hdisjoint]

theorem roomy_alone {s : Sys} (halone : s.txns.length ≤ 1) (a : Act) : s.Roomy a := by
  cases a with
  | read i =>
    intro x pawn held hx hstage _ hfits
    have hnil : s.beside pawn x.terms.accountId x.terms.recipe.outputTemplate = [] := by
      apply beside_sameBank
      intro y hy q hq
      have hyx : y = x := by
        rcases htxns : s.txns with _ | ⟨z, _ | ⟨w, l⟩⟩
        · rw [htxns] at hy
          cases hy
        · rw [htxns] at hy hx
          have hz := List.mem_of_getElem? hx
          rw [List.mem_singleton.mp hy, List.mem_singleton.mp hz]
        · rw [htxns, List.length_cons, List.length_cons] at halone
          omega
      rw [hyx, hstage] at hq
      cases hq
    rw [hnil]
    simpa [since] using hfits
  | _ => trivial

def twoCharacters : Sys where
  now := 1000000
  db :=
    { game :=
        { characters := [⟨1, some 7, some 5, none, some .offline, none, none⟩,
            ⟨1, some 8, some 6, none, some .offline, none, none⟩]
          inventories := twoBanks
          items := weekStock }
      ledger := Table.empty }
  txns := []

/-- A whole week's dust for the character `ctrl`. -/
def wholeWeek (key ctrl : Nat) (h : 1 ≤ ctrl := by decide) : Call :=
  { copperCall key 1 false Nat.one_pos with
    ownerCtrl := ctrl, batches := 25, owner_pos := h, batches_pos := week_pos }

def upToRead (key ctrl i : Nat) (h : 1 ≤ ctrl := by decide) : List Act :=
  [.start (wholeWeek key ctrl h), .key i, .gate i, .resolve i, .lock i, .lock i, .read i]

/-- Each character's exchange reads its total before the other has committed. -/
def crossedRun : List Act := upToRead 1 7 0 ctrl_pos ++ upToRead 2 8 1 ++ [.finish 0, .finish 1]

theorem twoCharacters_fresh : twoCharacters.Fresh (copperRates 1) 1 "T1UniqueComponent" :=
  ⟨rfl, fun _ h => absurd h (Table.not_mem_empty _), fun _ => (by decide : (0 : Int) ≤ 250)⟩

theorem oneRun_goes : (exec (step deleteInventoryItem (copperRates 1)) twoCharacters
    (upToRead 1 7 0 ++ [.finish 0])).isSome = true := by
  decide

end Txn

end LastSietch.Refinery
