import LastSietch.Lib.Runs
import LastSietch.Ops.GrantGate

/-!
# Answered grants

Sequences of requests to `dune-grant.sh`, with anything in between: the targets go on- and offline,
the game changes its tables, time passes. `writes` is the history of the grants whose transaction has
been committed, each with its key and its facts, and `answers` what the requests have been told.

* `Inv.step`: keys and writes; no step needs a condition for them.
-/

namespace LastSietch.DuneGrant

open Runs (exec Along)

variable {γ : Type}

structure Write where
  idem : Nat
  facts : Facts
  deriving DecidableEq

structure Sys (γ : Type) where
  now : Nat
  db : Db γ
  writes : List Write
  answers : List (Request × Answer)

inductive Act (γ : Type)
  | submit (q : Request)
  | slots (l : List Slot)
  | game (g : γ)
  | tick (seconds : Nat)

def Request.write (q : Request) : Write := ⟨q.idem, q.facts⟩

def Answer.commits : Answer → Bool
  | .applied _ => true
  | .replay _ | .deferred _ | .dryRun | .failed _ | .unbound => false

def step (builders : Builders γ) (s : Sys γ) : Act γ → Option (Sys γ)
  | .submit q =>
    let (a, db) := doGrant builders s.now s.db q
    some { s with
      db
      writes := if a.commits = true then s.writes ++ [q.write] else s.writes
      answers := s.answers ++ [(q, a)] }
  | .slots slots => some { s with db := { s.db with slots } }
  | .game game => some { s with db := { s.db with game } }
  | .tick seconds => some { s with now := s.now + seconds }

/-- Whoever has been told `applied` or `replay` has had the write made once under the key. -/
def Sys.Made (s : Sys γ) : Prop :=
  ∀ qa ∈ s.answers, qa.2.isMade = true → s.writes.count qa.1.write = 1

def Sys.Once (s : Sys γ) : Prop := ∀ k, s.writes.countP (·.idem = k) ≤ 1

def Sys.Matched (builders : Builders γ) (s : Sys γ) : Act γ → Prop
  | .submit q => ∀ plan, planGrant builders s.now s.db q = .ok plan →
    (∃ row ∈ s.db.ledger, row.idempotencyKey = q.idem) → q.write ∈ s.writes
  | _ => True

structure Sys.Start (s : Sys γ) : Prop where
  ledger : s.db.ledger.rows = []
  writes : s.writes = []
  answers : s.answers = []

/-! ## What a step does -/

section

variable {builders : Builders γ} {s s' : Sys γ}

def Sys.Has (s : Sys γ) (key : Nat) : Prop := ∃ row ∈ s.db.ledger, row.idempotencyKey = key

inductive Effect (builders : Builders γ) (s m : Sys γ) : Act γ → Prop
  | idle (a : Act γ) (hidle : ∀ q, a ≠ .submit q) (hrows : ∀ key, s.Has key → m.Has key)
      (hwrites : m.writes = s.writes) (hanswers : m.answers = s.answers) : Effect builders s m a
  | unmade (q : Request) (answer : Answer) (hmade : answer.isMade = false)
      (hrows : ∀ key, s.Has key → m.Has key) (hwrites : m.writes = s.writes)
      (hanswers : m.answers = s.answers ++ [(q, answer)]) : Effect builders s m (.submit q)
  | replayed (q : Request) (plan : Plan γ) (hplan : planGrant builders s.now s.db q = .ok plan)
      (hrow : s.Has q.idem) (id : Nat) (hrows : ∀ key, s.Has key → m.Has key)
      (hwrites : m.writes = s.writes) (hanswers : m.answers = s.answers ++ [(q, .replay id)]) :
      Effect builders s m (.submit q)
  | applied (q : Request) (plan : Plan γ) (hplan : planGrant builders s.now s.db q = .ok plan)
      (hnew : ¬ s.Has q.idem) (id : Nat) (hrows : ∀ key, s.Has key → m.Has key)
      (hrow : m.Has q.idem) (hwrites : m.writes = s.writes ++ [q.write])
      (hanswers : m.answers = s.answers ++ [(q, .applied id)]) : Effect builders s m (.submit q)

theorem effect_submit {q : Request} (hstep : step builders s (.submit q) = some s') :
    Effect builders s s' (.submit q) := by
  cases hdoes : doGrant builders s.now s.db q with
  | mk answer db =>
    simp only [step, hdoes, Option.some.injEq] at hstep
    subst hstep
    cases doGrant_does hdoes with
    | nothing _ hmade =>
      have hcommits : answer.commits = false := by cases answer <;> first | rfl | cases hmade
      exact .unmade q answer hmade (fun _ h => h) (by simp [hcommits]) rfl
    | deferred detail ledger hput =>
      refine .unmade q _ rfl (fun key h => ?_) rfl rfl
      obtain ⟨row, hrow, hkey⟩ := h
      exact ⟨row, (mem_put? hput).mpr (Or.inr hrow), hkey⟩
    | replayed plan hplan row hrow hkey id =>
      exact .replayed q plan hplan ⟨row, hrow, hkey⟩ id (fun _ h => h) rfl rfl
    | applied plan hplan ledger hput hpreflight =>
      refine .applied q plan hplan (fun hold => ?_) _ (fun key h => ?_)
        ⟨_, (mem_put? hput).mpr (Or.inl rfl), rfl⟩ rfl rfl
      · have hnone : s.db.ledger.put? q plan.detail .applied = none := put?_eq_none.mpr hold
        rw [hput] at hnone
        cases hnone
      · obtain ⟨row, hrow, hkey⟩ := h
        exact ⟨row, (mem_put? hput).mpr (Or.inr hrow), hkey⟩

variable {a : Act γ}

theorem step_effect (hstep : step builders s a = some s') : Effect builders s s' a := by
  cases a with
  | submit q => exact effect_submit hstep
  | slots l =>
    cases hstep
    exact .idle _ (fun _ => nofun) (fun _ h => h) rfl rfl
  | game g =>
    cases hstep
    exact .idle _ (fun _ => nofun) (fun _ h => h) rfl rfl
  | tick n =>
    cases hstep
    exact .idle _ (fun _ => nofun) (fun _ h => h) rfl rfl

/-! ## The invariant -/

structure Inv (s : Sys γ) : Prop where
  rows : ∀ w ∈ s.writes, s.Has w.idem
  once : s.Once

theorem Sys.Start.inv (h : s.Start) : Inv s where
  rows := by simp [h.writes]
  once := by simp [Sys.Once, h.writes]

theorem Inv.step (h : Inv s) (hstep : step builders s a = some s') : Inv s' := by
  have hsame : ∀ {m : Sys γ}, (∀ key, s.Has key → m.Has key) → m.writes = s.writes → Inv m := by
    intro m hrows hwrites
    refine ⟨fun w hw => ?_, fun k => ?_⟩
    · rw [hwrites] at hw
      exact hrows _ (h.rows w hw)
    · rw [hwrites]
      exact h.once k
  cases step_effect hstep with
  | idle _ _ hrows hwrites => exact hsame hrows hwrites
  | unmade _ _ _ hrows hwrites => exact hsame hrows hwrites
  | replayed _ _ _ _ _ hrows hwrites => exact hsame hrows hwrites
  | applied q plan hplan hnew id hrows hrow hwrites =>
    refine ⟨fun w hw => ?_, fun k => ?_⟩
    · rw [hwrites] at hw
      rcases List.mem_append.mp hw with hw | hw
      · exact hrows _ (h.rows w hw)
      · rw [List.mem_singleton.mp hw]
        exact hrow
    · rw [hwrites, List.countP_append]
      by_cases hk : q.idem = k
      · -- the key is new, so that no write has it yet
        have hzero : s.writes.countP (·.idem = k) = 0 := by
          rw [List.countP_eq_zero]
          intro w hw hwk
          have hwk : w.idem = q.idem := (of_decide_eq_true hwk).trans hk.symm
          exact hnew (hwk ▸ h.rows w hw)
        rw [hzero, Nat.zero_add]
        exact List.countP_le_length
      · have hother : [q.write].countP (·.idem = k) = 0 := by simp [Request.write, hk]
        rw [hother]
        exact h.once k

theorem Inv.count_eq_one (h : Inv s) {w : Write} (hw : w ∈ s.writes) : s.writes.count w = 1 := by
  have hle : s.writes.count w ≤ s.writes.countP (·.idem = w.idem) := by
    rw [List.count]
    refine List.countP_mono_left (fun x _ hx => ?_)
    rw [eq_of_beq hx]
    exact decide_eq_true rfl
  have := h.once w.idem
  have := List.count_pos_iff.mpr hw
  omega

theorem step_keeps (hstep : step builders s a = some s') :
    s.writes ⊆ s'.writes ∧ s.answers ⊆ s'.answers := by
  cases step_effect hstep with
  | idle _ _ _ hwrites hanswers => exact ⟨hwrites ▸ List.Subset.refl _, hanswers ▸ List.Subset.refl _⟩
  | unmade _ _ _ _ hwrites hanswers =>
    exact ⟨hwrites ▸ List.Subset.refl _, hanswers ▸ List.subset_append_left _ _⟩
  | replayed _ _ _ _ _ _ hwrites hanswers =>
    exact ⟨hwrites ▸ List.Subset.refl _, hanswers ▸ List.subset_append_left _ _⟩
  | applied _ _ _ _ _ _ _ hwrites hanswers =>
    exact ⟨hwrites ▸ List.subset_append_left _ _, hanswers ▸ List.subset_append_left _ _⟩

theorem Inv.made_step (h : Inv s) (hmade : s.Made) (hmatched : s.Matched builders a)
    (hstep : DuneGrant.step builders s a = some s') : s'.Made := by
  have hinv := h.step hstep
  obtain ⟨hwrites, -⟩ := step_keeps hstep
  have hold : ∀ qa ∈ s.answers, qa.2.isMade = true → s'.writes.count qa.1.write = 1 := by
    intro qa hqa hsaid
    have hone := hmade qa hqa hsaid
    exact hinv.count_eq_one (hwrites (List.count_pos_iff.mp (by omega)))
  have hnew : ∀ q answer, s'.answers = s.answers ++ [(q, answer)] →
      (answer.isMade = true → q.write ∈ s'.writes) → s'.Made := by
    intro q answer hanswers hwrite qa hqa hsaid
    rw [hanswers] at hqa
    rcases List.mem_append.mp hqa with hqa | hqa
    · exact hold qa hqa hsaid
    · rw [List.mem_singleton.mp hqa] at hsaid ⊢
      exact hinv.count_eq_one (hwrite hsaid)
  cases step_effect hstep with
  | idle _ _ _ _ hanswers =>
    intro qa hqa
    rw [hanswers] at hqa
    exact hold qa hqa
  | unmade q answer hno _ _ hanswers =>
    exact hnew q answer hanswers (fun hsaid => Bool.noConfusion (hsaid.symm.trans hno))
  | replayed q plan hplan hrow id _ _ hanswers =>
    exact hnew q _ hanswers (fun _ => hwrites (hmatched plan hplan hrow))
  | applied q plan hplan _ id _ _ happended hanswers =>
    refine hnew q _ hanswers (fun _ => ?_)
    rw [happended]
    exact List.mem_append_right _ (List.mem_singleton.mpr rfl)

/-! ## What cannot be made good -/

theorem step_unmade {w : Write} (hstep : step builders s a = some s')
    (h : s.Has w.idem ∧ w ∉ s.writes) : s'.Has w.idem ∧ w ∉ s'.writes := by
  cases step_effect hstep with
  | idle _ _ hrows hwrites => exact ⟨hrows _ h.1, hwrites ▸ h.2⟩
  | unmade _ _ _ hrows hwrites => exact ⟨hrows _ h.1, hwrites ▸ h.2⟩
  | replayed _ _ _ _ _ hrows hwrites => exact ⟨hrows _ h.1, hwrites ▸ h.2⟩
  | applied q plan hplan hnew id hrows hrow hwrites =>
    refine ⟨hrows _ h.1, fun hw => ?_⟩
    rw [hwrites] at hw
    rcases List.mem_append.mp hw with hw | hw
    · exact h.2 hw
    · rw [List.mem_singleton.mp hw] at h
      exact hnew h.1

variable {acts : List (Act γ)}

theorem exec_unmade {w : Write} (hrun : exec (step builders) s acts = some s')
    (h : s.Has w.idem ∧ w ∉ s.writes) : w ∉ s'.writes := by
  have hkept := Runs.exec_invariant' (I := fun s : Sys γ => s.Has w.idem ∧ w ∉ s.writes)
    (fun _ _ _ h hstep => step_unmade hstep h) h hrun
  exact hkept.2

theorem exec_answers (hrun : exec (step builders) s acts = some s') :
    s.answers ⊆ s'.answers := by
  induction acts generalizing s with
  | nil => exact (Runs.exec_nil.mp hrun) ▸ List.Subset.refl _
  | cons a acts ih =>
    obtain ⟨m, hm, hrest⟩ := Runs.exec_cons.mp hrun
    exact fun _ hx => ih hrest ((step_keeps hm).2 hx)

theorem matched_of_made (hrun : exec (step builders) s acts = some s')
    (hmade : s'.Made) : Along (step builders) (Sys.Matched builders) s acts := by
  induction acts generalizing s with
  | nil => trivial
  | cons a acts ih =>
    obtain ⟨m, hm, hrest⟩ := Runs.exec_cons.mp hrun
    refine ⟨?_, fun m' hm' => ?_⟩
    · cases a with
      | submit q =>
        intro plan hplan hrow
        by_contra hw
        have hunmade := step_unmade hm (w := q.write) ⟨hrow, hw⟩
        have hnever := exec_unmade hrest hunmade
        obtain ⟨row, hmem, hkey⟩ := hrow
        obtain ⟨id, hreplay⟩ := doGrant_of_row hplan hmem hkey
        simp only [step, hreplay, Option.some.injEq] at hm
        subst hm
        have hanswer := exec_answers hrest (List.mem_append_right s.answers
          (List.mem_singleton.mpr rfl))
        have hone := hmade (q, .replay id) hanswer rfl
        rw [List.count_eq_zero_of_not_mem hnever] at hone
        cases hone
      | _ => trivial
    · cases hm.symm.trans hm'
      exact ih hrest

/-- Answers `applied` and `replay` are true at the end of a run exactly when no request that came to
the transaction found its key under another grant or a deferred one. Whatever the run, no key's write
is committed twice, and no other answer than `applied` goes with a change of the game. -/
theorem made_iff_matched (hstart : s.Start) {acts : List (Act γ)}
    (hrun : exec (step builders) s acts = some s') :
    (s'.Made ↔ Along (step builders) (Sys.Matched builders) s acts) ∧ s'.Once ∧
      ∀ now (db db' : Db γ) q a, doGrant builders now db q = (a, db') → a.commits = false →
        db'.game = db.game := by
  have hmade : s.Made := by
    intro qa hqa
    rw [hstart.answers] at hqa
    cases hqa
  refine ⟨⟨matched_of_made hrun, fun hmatched => ?_⟩, ?_, fun now db db' q a hdoes ha => ?_⟩
  · have hboth := Runs.exec_invariant (I := fun s : Sys γ => Inv s ∧ s.Made)
      (fun _ _ _ h hg hstep => ⟨h.1.step hstep, h.1.made_step h.2 hg hstep⟩) ⟨hstart.inv, hmade⟩
      hmatched hrun
    exact hboth.2
  · exact (Runs.exec_invariant' (I := Inv) (fun _ _ _ h hstep => h.step hstep) hstart.inv hrun).once
  · refine game_eq_of_not_applied hdoes ?_
    rintro id rfl
    cases ha

end

/-! ## Runs with the currency builder -/

/-- A row of `player_virtual_currency_balances` for `Solaris`. -/
structure Balance where
  playerControllerId : Nat
  balance : Int
  deriving DecidableEq

abbrev Balances := Table Balance (·.playerControllerId)

def digits (s : String) : Option Nat :=
  if s = "" then none
  else s.toList.foldl (fun n c => n.bind (fun n =>
    if c.isDigit then some (10 * n + (c.toNat - 48)) else none)) (some 0)

/-- `build_solari_currency_grant`, and `build_house_scrip_grant`, which refuses since the wallet is an
enumeration. The types that these runs do not use are refused as well. -/
def walletBuilders : Builders Balances := fun q target _ =>
  match q.grantType, target.playerControllerId, digits (q.detail.nested "amount") with
  | .solariCurrency, some ctl, some amount =>
    if 1 ≤ amount ∧ amount ≤ 100000000 then
      .ok
        { detail := [("amount", q.detail.nested "amount"), ("currency_id", "0"), ("via", "funcom_proc")]
          preflight := fun _ => true
          body := fun g => g.put ⟨ctl, ((g.get? ctl).map (·.balance)).getD 0 + amount⟩ }
    else .error 2
  | _, _, _ => .error 2

def wallets : Sys Balances where
  now := 1000
  db :=
    { slots := [⟨1, some 11, some 21, some .other, none, some 5, 1⟩,
        ⟨2, some 12, some 22, some .other, none, some 5, 2⟩]
      ledger := SerialTable.empty
      game := Table.empty }
  writes := []
  answers := []

theorem wallets_start : wallets.Start := ⟨rfl, rfl, rfl⟩

def solari (account idem : Nat) (amount : String) : Request :=
  ⟨account, .solariCurrency, idem, "ops", false, false, [("amount", amount)], none⟩

def resent : List (Act Balances) :=
  [.submit (solari 1 7 "500"), .tick 60, .submit (solari 1 7 "500")]

def reused : List (Act Balances) := [.submit (solari 1 7 "500"), .submit (solari 2 7 "900")]

theorem resent_goes : (exec (step walletBuilders) wallets resent).isSome = true := by
  decide

theorem made_iff_matched_resent :
    ∃ s', exec (step walletBuilders) wallets resent = some s' ∧
      s'.answers.map (·.2) = [.applied 1, .replay 1] ∧ s'.db.game.rows = [⟨21, 500⟩] ∧ s'.Once := by
  have hrun := (Option.some_get resent_goes).symm
  exact ⟨_, hrun, by decide, by decide, (made_iff_matched wallets_start hrun).2.1⟩

/-- Account 2 is told that its grant is there. -/
theorem made_breaches :
    wallets.Start ∧
      (exec (step walletBuilders) wallets reused).map (fun s =>
        (s.answers.map (·.2), s.db.game.rows)) = some ([.applied 1, .replay 1], [⟨21, 500⟩]) ∧
      (exec (step walletBuilders) wallets reused).map (fun s =>
        s.writes.count (solari 2 7 "900").write) = some 0 :=
  ⟨wallets_start, by decide, by decide⟩

end LastSietch.DuneGrant
