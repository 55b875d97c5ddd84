import LastSietch.Lib.Held
import LastSietch.Lib.Runs
import LastSietch.Lib.Serial

/-!
# The linking quiz

`portal_link_select` and `portal_link_quiz_submit` of `routers/portal_link`, with the limits of
`portal_rate_limit`. A select checks the limits, awaits the quiz and then inserts the attempt; a
submit reads the attempt, and then compares the answers and stamps the attempt. Between the two
steps of a request other requests run. `log` is what has been compared; the program does not have
it. Every clock is read in whole seconds. `hash_answer` is the parameter.

* `Inv`: the comparisons are the stamped attempts.
* `four_quizzes`: four quizzes that are open at once.
-/

namespace LastSietch.LinkQuiz

open Runs (exec Along along_iff)

def selectsPerDiscordPerWindow : Nat := 10

def selectWindowMinutes : Int := 5

def attemptsPerDiscordPerDay : Nat := 3

def attemptsPerAccountPerDay : Nat := 5

def failsToCooldown : Nat := 3

def cooldownHours : Int := 24

/-- `PORTAL_OAUTH_STATE_MAX_AGE`, in which a quiz can be submitted. -/
def oauthStateMaxAge : Int := 600

/-- `PORTAL_LINK_FLOW_MAX_AGE`, in which a pick can be selected. -/
def linkFlowMaxAge : Int := 300

def day : Int := 24 * 3600

/-- What `issue_pick_token` signs. -/
structure PickToken where
  did : String
  aid : Nat
  cn : String
  iat : Int
  deriving DecidableEq, Repr

/-- What `issue_attempt_token` signs. -/
structure AttemptToken where
  a : Nat
  did : String
  aid : Nat
  iat : Int
  deriving DecidableEq, Repr

structure Answers where
  q1 : String
  q2 : String
  q3 : String
  deriving DecidableEq, Repr

inductive Result
  | success | fail
  deriving DecidableEq, Repr

/-- A row of `portal_link_attempts` that a select inserts. -/
structure Attempt where
  id : Nat
  discordId : String
  accountId : Nat
  pickToken : PickToken
  stateIssuedAt : Int
  correctHashes : Answers
  attemptAt : Option Int
  result : Option Result
  deriving DecidableEq, Repr

abbrev Attempts := Serial Attempt Attempt.id

namespace Attempts

/-- The attempts that `p` picks and that were submitted since then. -/
def countSince (p : Attempt → Bool) (since : Int) (attempts : Attempts) : Nat :=
  attempts.rows.countP fun r => p r && r.attemptAt.any (fun at_ => since ≤ at_)

def checkSelectsPerDiscord (discordId : String) (now : Int) (attempts : Attempts) : Bool :=
  discordId = "" || attempts.rows.countP (fun r => r.discordId = discordId &&
    now - selectWindowMinutes * 60 ≤ r.stateIssuedAt) < selectsPerDiscordPerWindow

def checkAttemptsPerDiscord (discordId : String) (now : Int) (attempts : Attempts) : Bool :=
  discordId = "" ||
    attempts.countSince (fun r => r.discordId = discordId) (now - day) < attemptsPerDiscordPerDay

def checkAttemptsPerAccount (accountId : Nat) (now : Int) (attempts : Attempts) : Bool :=
  accountId = 0 ||
    attempts.countSince (fun r => r.accountId = accountId) (now - day) < attemptsPerAccountPerDay

def checkCooldown (discordId : String) (accountId : Nat) (now : Int) (attempts : Attempts) : Bool :=
  discordId = "" || accountId = 0 ||
    attempts.countSince (fun r => r.discordId = discordId && r.accountId = accountId &&
      r.result = some .fail) (now - cooldownHours * 3600) < failsToCooldown

/-- `UPDATE ... WHERE id = ? AND attempt_at IS NULL`. -/
def stampAttempt (id : Nat) (result : Result) (now : Int) (attempts : Attempts) : Attempts :=
  attempts.update (fun r => r.id = id && r.attemptAt = none)
    (fun r => { r with attemptAt := some now, result := some result })

end Attempts

/-! ## The system -/

structure Submission where
  token : AttemptToken
  correctHashes : Answers
  deriving DecidableEq, Repr

structure Compared where
  attemptId : Nat
  discordId : String
  accountId : Nat
  at_ : Int
  correct : Bool
  deriving DecidableEq, Repr

structure Sys where
  now : Int
  attempts : Attempts
  selections : List (Option PickToken)
  issued : List AttemptToken
  submissions : List (Option Submission)
  log : List Compared

def Sys.start (now : Int) : Sys := ⟨now, Serial.empty, [], [], [], []⟩

inductive Act
  | pass (seconds : Nat)
  | select (discordId : String) (pick : PickToken)
  | issue (i : Nat) (correctHashes : Answers)
  | submit (discordId : String) (token : AttemptToken)
  | answer (i : Nat) (submitted : Answers)
  deriving DecidableEq, Repr

section Step

variable (hashAnswer : String → String)

def verifyAnswer (submitted expectedHash : String) : Bool :=
  expectedHash ≠ "" && hashAnswer submitted = expectedHash

def allCorrect (submitted expected : Answers) : Bool :=
  verifyAnswer hashAnswer submitted.q1 expected.q1 &&
    verifyAnswer hashAnswer submitted.q2 expected.q2 &&
    verifyAnswer hashAnswer submitted.q3 expected.q3

/-- What `portal_link_select` asks before it builds a quiz. -/
def Sys.selects (s : Sys) (discordId : String) (pick : PickToken) : Prop :=
  s.now ≤ pick.iat + linkFlowMaxAge ∧ pick.did = discordId ∧ pick.aid ≠ 0 ∧ pick.cn ≠ "" ∧
    s.attempts.checkSelectsPerDiscord discordId s.now = true ∧
    s.attempts.checkAttemptsPerDiscord discordId s.now = true ∧
    s.attempts.checkAttemptsPerAccount pick.aid s.now = true ∧
    s.attempts.checkCooldown discordId pick.aid s.now = true

instance (s : Sys) (discordId : String) (pick : PickToken) : Decidable (s.selects discordId pick) :=
  inferInstanceAs (Decidable (_ ∧ _))

def Sys.step (s : Sys) : Act → Option Sys
  | .pass seconds => some { s with now := s.now + seconds }
  | .select discordId pick =>
    if s.selects discordId pick then some { s with selections := s.selections ++ [some pick] }
    else some s
  | .issue i correctHashes =>
    match s.selections[i]? with
    | some (some pick) =>
      let selections := s.selections.set i none
      -- `uq_portal_attempts_pick_token`
      if s.attempts.rows.any (fun r => r.pickToken = pick) then
        some { s with selections }
      else
        some { s with
          selections
          attempts := s.attempts.insert fun id =>
            ⟨id, pick.did, pick.aid, pick, s.now, correctHashes, none, none⟩
          issued := ⟨s.attempts.next, pick.did, pick.aid, s.now⟩ :: s.issued }
    | _ => none
  | .submit discordId token =>
    -- a token is signed: it is one that was issued
    if token ∈ s.issued ∧ s.now ≤ token.iat + oauthStateMaxAge ∧ token.did = discordId ∧
        token.a ≠ 0 ∧ token.aid ≠ 0 then
      match s.attempts.byId? token.a with
      | some row =>
        if row.attemptAt = none then
          some { s with submissions := s.submissions ++ [some ⟨token, row.correctHashes⟩] }
        else some s
      | none => some s
    else some s
  | .answer i submitted =>
    match s.submissions[i]? with
    | some (some sub) =>
      let correct := allCorrect hashAnswer submitted sub.correctHashes
      some { s with
        submissions := s.submissions.set i none
        attempts := s.attempts.stampAttempt sub.token.a (if correct then .success else .fail) s.now
        log := ⟨sub.token.a, sub.token.did, sub.token.aid, s.now, correct⟩ :: s.log }
    | _ => none

end Step

/-! ## The property and the condition -/

/-- The times of the comparisons that `p` picks. -/
def times (p : Compared → Bool) (log : List Compared) : List Int := (log.filter p).map (·.at_)

def failedSince (discordId : String) (accountId : Nat) (since : Int) (log : List Compared) : Nat :=
  log.countP fun c => c.discordId = discordId && c.accountId = accountId && !c.correct &&
    since ≤ c.at_

def CooledDown : List Compared → Prop
  | [] => True
  | c :: earlier => (c.discordId ≠ "" → c.accountId ≠ 0 → failedSince c.discordId c.accountId
      (c.at_ - cooldownHours * 3600) earlier < failsToCooldown) ∧ CooledDown earlier

structure Capped (log : List Compared) : Prop where
  discord : ∀ d, d ≠ "" → HeldTo attemptsPerDiscordPerDay day (times (fun c => c.discordId = d) log)
  account : ∀ a, a ≠ 0 → HeldTo attemptsPerAccountPerDay day (times (fun c => c.accountId = a) log)
  cooldown : CooledDown log
  once : (log.map (·.attemptId)).Nodup

/-- A comparison is made of a quiz that has not been stamped since it was read, and while the limits
that a select asks for would still let it through. -/
def HasRoom (s : Sys) : Act → Prop
  | .answer i _ => ∀ sub, s.submissions[i]? = some (some sub) →
      (∀ r ∈ s.attempts, r.id = sub.token.a → r.attemptAt = none) ∧
      s.attempts.checkAttemptsPerDiscord sub.token.did s.now = true ∧
      s.attempts.checkAttemptsPerAccount sub.token.aid s.now = true ∧
      s.attempts.checkCooldown sub.token.did sub.token.aid s.now = true
  | _ => True

theorem Capped.cons_iff {c : Compared} {log : List Compared} (hlate : ∀ e ∈ log, e.at_ ≤ c.at_) :
    Capped (c :: log) ↔ Capped log ∧
      (c.discordId ≠ "" → (times (fun e => e.discordId = c.discordId) log).countP
        (fun x => c.at_ - day ≤ x) < attemptsPerDiscordPerDay) ∧
      (c.accountId ≠ 0 → (times (fun e => e.accountId = c.accountId) log).countP
        (fun x => c.at_ - day ≤ x) < attemptsPerAccountPerDay) ∧
      (c.discordId ≠ "" → c.accountId ≠ 0 → failedSince c.discordId c.accountId
        (c.at_ - cooldownHours * 3600) log < failsToCooldown) ∧
      c.attemptId ∉ log.map (·.attemptId) := by
  have htimes : ∀ (n : Nat) (p : Compared → Bool), HeldTo n day (times p (c :: log)) ↔
      HeldTo n day (times p log) ∧
        (p c = true → (times p log).countP (fun x => c.at_ - day ≤ x) < n) := by
    intro n p
    unfold times
    by_cases hp : p c = true
    · rw [List.filter_cons_of_pos hp, List.map_cons, HeldTo.cons_iff (by decide)]
      · simp only [hp, forall_const]
      · intro y hy
        obtain ⟨e, he, rfl⟩ := List.mem_map.mp hy
        exact hlate e (List.mem_filter.mp he).1
    · rw [List.filter_cons_of_neg hp]
      exact (and_iff_left (fun h => absurd h hp)).symm
  constructor
  · rintro ⟨hd, ha, ⟨hc, hcs⟩, honce⟩
    rw [List.map_cons, List.nodup_cons] at honce
    exact ⟨⟨fun d hne => ((htimes _ _).mp (hd d hne)).1, fun a hne => ((htimes _ _).mp (ha a hne)).1,
      hcs, honce.2⟩, fun hne => ((htimes _ _).mp (hd _ hne)).2 (by simp),
      fun hne => ((htimes _ _).mp (ha _ hne)).2 (by simp), hc, honce.1⟩
  · rintro ⟨⟨hd, ha, hcs, honce⟩, hdiscord, haccount, hc, hfresh⟩
    refine ⟨fun d hne => (htimes _ _).mpr ⟨hd d hne, fun heq => ?_⟩,
      fun a hne => (htimes _ _).mpr ⟨ha a hne, fun heq => ?_⟩, ⟨hc, hcs⟩, ?_⟩
    · cases of_decide_eq_true heq
      exact hdiscord hne
    · cases of_decide_eq_true heq
      exact haccount hne
    · rw [List.map_cons, List.nodup_cons]
      exact ⟨hfresh, honce⟩

/-! ## The invariant -/

def Attempt.compared? (r : Attempt) : Option Compared :=
  r.attemptAt.map fun at_ => ⟨r.id, r.discordId, r.accountId, at_, r.result ≠ some .fail⟩

structure Inv (s : Sys) : Prop where
  capped : Capped s.log
  agree : s.log.Perm (s.attempts.rows.filterMap Attempt.compared?)
  late : ∀ c ∈ s.log, c.at_ ≤ s.now
  issued : ∀ k ∈ s.issued, ∃ r ∈ s.attempts, r.id = k.a ∧ r.discordId = k.did ∧ r.accountId = k.aid
  submitted : ∀ sub, some sub ∈ s.submissions → sub.token ∈ s.issued

theorem countSince_eq {attempts : Attempts} {log : List Compared}
    (h : log.Perm (attempts.rows.filterMap Attempt.compared?)) {p : Attempt → Bool}
    {q : Compared → Bool} (hpq : ∀ r, ∀ c ∈ r.compared?, p r = q c) (since : Int) :
    attempts.countSince p since = log.countP (fun c => q c && since ≤ c.at_) := by
  rw [h.countP_eq, List.countP_filterMap]
  refine List.countP_congr (fun r _ => ?_)
  cases hr : r.attemptAt with
  | none => simp [Attempt.compared?, hr]
  | some at_ =>
    have hc : r.compared? = some ⟨r.id, r.discordId, r.accountId, at_, r.result ≠ some .fail⟩ := by
      simp [Attempt.compared?, hr]
    rw [hc, hpq r _ hc]
    simp

theorem countP_times {log : List Compared} (p : Compared → Bool) (since : Int) :
    (times p log).countP (fun x => since ≤ x) = log.countP (fun c => p c && since ≤ c.at_) := by
  rw [times, List.countP_map, List.countP_filter]
  refine List.countP_congr (fun c _ => ?_)
  simp [and_comm]

theorem not_compared_iff {attempts : Attempts} {log : List Compared}
    (h : log.Perm (attempts.rows.filterMap Attempt.compared?)) (id : Nat) :
    (∀ r ∈ attempts, r.id = id → r.attemptAt = none) ↔ id ∉ log.map (·.attemptId) := by
  rw [(h.map _).mem_iff, List.mem_map]
  constructor
  · rintro hnone ⟨c, hc, rfl⟩
    obtain ⟨r, hr, hrc⟩ := List.mem_filterMap.mp hc
    obtain ⟨at_, hat, rfl⟩ := Option.map_eq_some_iff.mp hrc
    rw [hnone r hr rfl] at hat
    cases hat
  · intro hnot r hr hid
    cases hat : r.attemptAt with
    | none => rfl
    | some at_ =>
      have hrc : r.compared? = some ⟨r.id, r.discordId, r.accountId, at_, r.result ≠ some .fail⟩ := by
        simp [Attempt.compared?, hat]
      exact absurd ⟨_, List.mem_filterMap.mpr ⟨r, hr, hrc⟩, hid⟩ hnot

theorem stampAttempt_perm {attempts : Attempts} {r : Attempt} (hr : r ∈ attempts)
    (hnone : r.attemptAt = none) (result : Result) (now : Int) :
    ((attempts.stampAttempt r.id result now).rows.filterMap Attempt.compared?).Perm
      (⟨r.id, r.discordId, r.accountId, now, result ≠ .fail⟩ ::
        attempts.rows.filterMap Attempt.compared?) := by
  obtain ⟨l₁, l₂, hrows, hrows'⟩ := @Serial.update_split _ _ attempts
    (fun q => q.id = r.id && q.attemptAt = none)
    (fun q => { q with attemptAt := some now, result := some result }) (fun _ => rfl) r hr
    (by simp [hnone]) (fun q hq hpicked => by
      simp only [Bool.and_eq_true, decide_eq_true_eq] at hpicked
      exact Serial.eq_of_id_eq hq hr hpicked.1)
  have hold : r.compared? = none := by simp [Attempt.compared?, hnone]
  unfold Attempts.stampAttempt
  rw [hrows', hrows, List.filterMap_append, List.filterMap_append, List.filterMap_cons_none hold,
    List.filterMap_cons_some (b := ⟨r.id, r.discordId, r.accountId, now, result ≠ .fail⟩)
      (by simp [Attempt.compared?])]
  exact List.perm_middle

theorem stampAttempt_keeps {attempts : Attempts} {q : Attempt} (hq : q ∈ attempts) (id : Nat)
    (result : Result) (now : Int) : ∃ r ∈ attempts.stampAttempt id result now,
      r.id = q.id ∧ r.discordId = q.discordId ∧ r.accountId = q.accountId := by
  unfold Attempts.stampAttempt
  refine ⟨_, Serial.mem_update.mpr ⟨q, hq, rfl⟩, ?_⟩
  split <;> exact ⟨rfl, rfl, rfl⟩

section Limits

variable {attempts : Attempts} {log : List Compared} {now : Int}
  (h : log.Perm (attempts.rows.filterMap Attempt.compared?))

include h

theorem checkAttemptsPerDiscord_iff (discordId : String) :
    attempts.checkAttemptsPerDiscord discordId now = true ↔ (discordId ≠ "" →
      (times (fun c => c.discordId = discordId) log).countP (fun x => now - day ≤ x) <
        attemptsPerDiscordPerDay) := by
  have hcount := @countSince_eq _ _ h (fun r => r.discordId = discordId)
    (fun c => c.discordId = discordId) (fun r c hc => by
      obtain ⟨at_, -, rfl⟩ := Option.map_eq_some_iff.mp hc
      rfl) (now - day)
  rw [countP_times, ← hcount]
  simp [Attempts.checkAttemptsPerDiscord, or_iff_not_imp_left]

theorem checkAttemptsPerAccount_iff (accountId : Nat) :
    attempts.checkAttemptsPerAccount accountId now = true ↔ (accountId ≠ 0 →
      (times (fun c => c.accountId = accountId) log).countP (fun x => now - day ≤ x) <
        attemptsPerAccountPerDay) := by
  have hcount := @countSince_eq _ _ h (fun r => r.accountId = accountId)
    (fun c => c.accountId = accountId) (fun r c hc => by
      obtain ⟨at_, -, rfl⟩ := Option.map_eq_some_iff.mp hc
      rfl) (now - day)
  rw [countP_times, ← hcount]
  simp [Attempts.checkAttemptsPerAccount, or_iff_not_imp_left]

theorem checkCooldown_iff (discordId : String) (accountId : Nat) :
    attempts.checkCooldown discordId accountId now = true ↔ (discordId ≠ "" → accountId ≠ 0 →
      failedSince discordId accountId (now - cooldownHours * 3600) log < failsToCooldown) := by
  have hcount := @countSince_eq _ _ h
    (fun r => r.discordId = discordId && r.accountId = accountId && r.result = some .fail)
    (fun c => c.discordId = discordId && c.accountId = accountId && !c.correct) (fun r c hc => by
      obtain ⟨at_, -, rfl⟩ := Option.map_eq_some_iff.mp hc
      by_cases hfail : r.result = some .fail <;> simp [hfail]) (now - cooldownHours * 3600)
  rw [failedSince, ← hcount]
  simp [Attempts.checkCooldown, or_iff_not_imp_left]

end Limits

/-! ## Runs -/

variable {hashAnswer : String → String} {s s' : Sys} {a : Act}

structure Sys.Quiet (s s' : Sys) : Prop where
  log : s'.log = s.log
  now : s.now ≤ s'.now
  agree : s'.attempts.rows.filterMap Attempt.compared? = s.attempts.rows.filterMap Attempt.compared?
  attempts : ∀ r ∈ s.attempts, r ∈ s'.attempts
  issued : ∀ k ∈ s'.issued, k ∈ s.issued ∨
    ∃ r ∈ s'.attempts, r.id = k.a ∧ r.discordId = k.did ∧ r.accountId = k.aid
  kept : ∀ k ∈ s.issued, k ∈ s'.issued
  submitted : ∀ sub, some sub ∈ s'.submissions → some sub ∈ s.submissions ∨ sub.token ∈ s.issued

theorem Inv.quiet (h : Inv s) (hquiet : s.Quiet s') : Inv s' where
  capped := hquiet.log ▸ h.capped
  agree := by rw [hquiet.log, hquiet.agree]; exact h.agree
  late c hc := Int.le_trans (h.late c (hquiet.log ▸ hc)) hquiet.now
  issued k hk := by
    rcases hquiet.issued k hk with hk | hrow
    · obtain ⟨r, hr, hrow⟩ := h.issued k hk
      exact ⟨r, hquiet.attempts r hr, hrow⟩
    · exact hrow
  submitted sub hsub := by
    rcases hquiet.submitted sub hsub with hsub | hk
    · exact hquiet.kept _ (h.submitted sub hsub)
    · exact hquiet.kept _ hk

theorem Sys.Quiet.refl (s : Sys) : s.Quiet s :=
  ⟨rfl, Int.le_refl _, rfl, fun _ hr => hr, fun _ hk => Or.inl hk, fun _ hk => hk,
    fun _ hsub => Or.inl hsub⟩

theorem step_quiet (hstep : s.step hashAnswer a = some s')
    (ha : ∀ i submitted, a ≠ .answer i submitted) : s.Quiet s' := by
  have hrefl := Sys.Quiet.refl s
  cases a with
  | pass seconds =>
    cases hstep
    exact { hrefl with now := Int.le_add_of_nonneg_right (Int.natCast_nonneg seconds) }
  | select discordId pick =>
    simp only [Sys.step] at hstep
    split at hstep <;> cases hstep
    · exact { hrefl with }
    · exact hrefl
  | issue i correctHashes =>
    simp only [Sys.step] at hstep
    split at hstep
    · case h_1 pick hpick =>
      split at hstep <;> cases hstep
      · exact { hrefl with }
      · refine { hrefl with
          agree := rfl
          attempts := fun r hr => Serial.mem_insert.mpr (Or.inr hr)
          issued := fun k hk => ?_
          kept := fun k hk => List.mem_cons_of_mem _ hk }
        rcases List.mem_cons.mp hk with rfl | hk
        · exact Or.inr ⟨_, Serial.mem_insert.mpr (Or.inl rfl), rfl, rfl, rfl⟩
        · exact Or.inl hk
    · cases hstep
  | submit discordId token =>
    simp only [Sys.step] at hstep
    split at hstep
    · case isTrue htoken =>
      split at hstep
      · split at hstep <;> cases hstep
        · refine { hrefl with submitted := fun sub hsub => ?_ }
          rcases List.mem_append.mp hsub with hsub | hsub
          · exact Or.inl hsub
          · cases List.mem_singleton.mp hsub
            exact Or.inr htoken.1
        · exact hrefl
      · cases hstep
        exact hrefl
    · cases hstep
      exact hrefl
  | answer i submitted => exact absurd rfl (ha i submitted)

theorem answer_iff (h : Inv s) {i : Nat} {submitted : Answers} :
    HasRoom s (.answer i submitted) ↔
      ∀ s', s.step hashAnswer (.answer i submitted) = some s' → Capped s'.log := by
  cases hsub : s.submissions[i]? with
  | none => simp [HasRoom, Sys.step, hsub]
  | some o =>
    cases o with
    | none => simp [HasRoom, Sys.step, hsub]
    | some sub =>
      simp only [HasRoom, Sys.step, hsub, Option.some.injEq, forall_eq']
      rw [Capped.cons_iff h.late, not_compared_iff h.agree, checkAttemptsPerDiscord_iff h.agree,
        checkAttemptsPerAccount_iff h.agree, checkCooldown_iff h.agree]
      constructor
      · rintro ⟨honce, hdiscord, haccount, hcooldown⟩
        exact ⟨h.capped, hdiscord, haccount, hcooldown, honce⟩
      · rintro ⟨-, hdiscord, haccount, hcooldown, honce⟩
        exact ⟨honce, hdiscord, haccount, hcooldown⟩

theorem Inv.answer (h : Inv s) {i : Nat} {submitted : Answers}
    (hroom : HasRoom s (.answer i submitted))
    (hstep : s.step hashAnswer (.answer i submitted) = some s') : Inv s' := by
  have hcapped := (answer_iff h).mp hroom s' hstep
  simp only [Sys.step] at hstep
  split at hstep
  · case h_1 sub hsub =>
    cases hstep
    obtain ⟨r, hr, hid, hdiscord, haccount⟩ :=
      h.issued _ (h.submitted sub (List.mem_of_getElem? hsub))
    have hnone := (hroom sub hsub).1 r hr hid
    refine ⟨hcapped, ?_, fun c hc => ?_, fun k hk => ?_, fun sub' hsub' => ?_⟩
    · have hperm := stampAttempt_perm hr hnone
        (if allCorrect hashAnswer submitted sub.correctHashes then .success else .fail) s.now
      rw [hid, hdiscord, haccount] at hperm
      refine ((h.agree.cons _).trans ?_).trans hperm.symm
      cases allCorrect hashAnswer submitted sub.correctHashes <;> exact .refl _
    · rcases List.mem_cons.mp hc with rfl | hc
      · exact Int.le_refl _
      · exact h.late c hc
    · obtain ⟨q, hq, hqid, hqd, hqa⟩ := h.issued k hk
      obtain ⟨q', hq', hid', hd', ha'⟩ := stampAttempt_keeps hq sub.token.a _ s.now
      exact ⟨q', hq', hid'.trans hqid, hd'.trans hqd, ha'.trans hqa⟩
    · rcases List.mem_or_eq_of_mem_set hsub' with hsub' | hsub'
      · exact h.submitted sub' hsub'
      · cases hsub'
  · cases hstep

theorem start_inv (now : Int) : Inv (Sys.start now) where
  capped := ⟨fun _ _ => HeldTo.nil, fun _ _ => HeldTo.nil, trivial, List.nodup_nil⟩
  agree := .refl _
  late _ hc := absurd hc List.not_mem_nil
  issued _ hk := absurd hk List.not_mem_nil
  submitted _ hsub := absurd hsub List.not_mem_nil

/-- The caps hold in every state of a run exactly when every comparison of the run is of a quiz that
has not been stamped, with room left in the caps and in the cooldown. -/
theorem capped_iff {now : Int} {as : List Act} :
    (∀ bs s, bs <+: as → exec (Sys.step hashAnswer) (Sys.start now) bs = some s → Capped s.log) ↔
      Along (Sys.step hashAnswer) HasRoom (Sys.start now) as := by
  refine along_iff (I := Inv) (fun s h => h.capped) (fun s a h => ?_) (fun s a s' h hroom hstep => ?_)
    (start_inv now)
  · by_cases ha : ∀ i submitted, a ≠ .answer i submitted
    · refine iff_of_true ?_ (fun s' hstep => (h.quiet (step_quiet hstep ha)).capped)
      cases a with
      | answer i submitted => exact absurd rfl (ha i submitted)
      | _ => trivial
    · simp only [ne_eq, not_forall, not_not] at ha
      obtain ⟨i, submitted, rfl⟩ := ha
      exact answer_iff h
  · by_cases ha : ∀ i submitted, a ≠ .answer i submitted
    · exact h.quiet (step_quiet hstep ha)
    · simp only [ne_eq, not_forall, not_not] at ha
      obtain ⟨i, submitted, rfl⟩ := ha
      exact h.answer hroom hstep

def openQuiz (i : Nat) : List Act :=
  [.pass 2, .select "4815162342" ⟨"4815162342", 7, "Paul", 2 * i⟩,
   .issue i ⟨"blue", "desert", "mouse"⟩]

/-- Wrong answers to the quiz `a` that was issued at `iat`. -/
def guess (i : Nat) (token : AttemptToken) : List Act :=
  [.submit "4815162342" token, .answer i ⟨"green", "forest", "cat"⟩]

def fourGuesses : List Act :=
  (openQuiz 0 ++ openQuiz 1 ++ openQuiz 2 ++ openQuiz 3) ++
    (guess 0 ⟨1, "4815162342", 7, 2⟩ ++ guess 1 ⟨2, "4815162342", 7, 4⟩ ++
      guess 2 ⟨3, "4815162342", 7, 6⟩ ++ guess 3 ⟨4, "4815162342", 7, 8⟩)

theorem four_quizzes :
    ∃ s, exec (Sys.step id) (Sys.start 0) fourGuesses = some s ∧
      (times (fun c => c.discordId = "4815162342") s.log).countP (fun x => 0 ≤ x ∧ x ≤ 0 + day) = 4 ∧
      failedSince "4815162342" 7 0 s.log = 4 ∧ ¬ Capped s.log := by
  have hruns : (exec (Sys.step id) (Sys.start 0) fourGuesses).any (fun s =>
      (times (fun c => c.discordId = "4815162342") s.log).countP (fun x => 0 ≤ x ∧ x ≤ 0 + day) = 4 ∧
        failedSince "4815162342" 7 0 s.log = 4) = true := by
    decide
  obtain ⟨s, hs, hlast⟩ := (Option.any_eq_true _ _).mp hruns
  obtain ⟨hcount, hfailed⟩ := of_decide_eq_true hlast
  refine ⟨s, hs, hcount, hfailed, fun hcapped => ?_⟩
  have hle := hcapped.discord "4815162342" (by decide) 0
  rw [hcount] at hle
  exact absurd hle (by decide)

end LastSietch.LinkQuiz
