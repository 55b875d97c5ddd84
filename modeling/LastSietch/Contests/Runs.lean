import LastSietch.Lib.Plan
import LastSietch.Contests.Awards

/-!
# Runs of a contest

`Sys` is the bot with what it holds in memory and what it saved last, and the backend with its
ledger. An upload and a confirm are cut at their awaits, so that any other act can come
between: a staff removal, a save for another contest, a restart. A request may reach the
backend late, after its answer was given up or the bot was restarted, and more than once.

`Copy` is what holds of a saved or remembered state: from the confirmation on its entries and
votes are those that `winners` was read from. `Inv.step` keeps this in every act, and that all
requests are cases of the plan of that state.
-/

namespace LastSietch.Contests

open Nights Runs

inductive Stage
  | queued | reading
  | sent (entry : Entry)
  deriving DecidableEq, Repr

structure Upload where
  uid : Nat
  title : String
  caption : String
  stage : Stage
  deriving DecidableEq, Repr

/-- `pay_all` under the lock: what is left of its plan, and the request it awaits. -/
structure Paying where
  todo : List PlanItem
  awaiting : Option Nat
  deriving DecidableEq, Repr

structure Request where
  item : PlanItem
  answer : Option Reply
  deriving DecidableEq, Repr

structure Award where
  item : PlanItem
  profileId : Nat
  deriving DecidableEq, Repr

/-- `awards`, `results` (the state that was confirmed) and `through` (a confirm went through its
whole plan) are a history that no act reads. -/
structure Sys where
  mem : State
  disk : Option State
  uploads : List Upload
  waiting : List Nat
  paying : Option Paying
  requests : List Request
  shop : Shop
  awards : List Award
  results : Option State
  through : Bool

def Sys.start (shop : Shop) : Sys :=
  ⟨.start, none, [], [], none, [], shop, [], none, false⟩

/-- `store.save()` after a change of the contest. -/
def Sys.saved (s : Sys) (mem : State) : Sys := { s with mem, disk := some mem }

def Sys.lockFree (s : Sys) (uid : Nat) : Bool :=
  s.uploads.all fun u => u.uid ≠ uid || u.stage = .queued

def submitEntry (c : Contest) (s : Sys) (uid : Nat) (isBot : Bool) (title caption : String)
    (now : Int) : Sys :=
  match validateEntry c s.mem isBot title caption now with
  | .error _ => s
  | .ok (title, caption) => { s with uploads := s.uploads ++ [⟨uid, title, caption, .queued⟩] }

/-- `_post_entry` takes the lock and checks the phase. -/
def startUpload (c : Contest) (s : Sys) (i : Nat) (now : Int) : Option Sys :=
  match s.uploads[i]? with
  | some ⟨uid, title, caption, .queued⟩ =>
    if s.lockFree uid = false then none
    else if phase c s.mem now ≠ .submit then some { s with uploads := s.uploads.eraseIdx i }
    else some { s with uploads := s.uploads.set i ⟨uid, title, caption, .reading⟩ }
  | _ => none

def composeEntry (s : Sys) (i : Nat) (displayName ext : String) (now : Int) : Option Sys :=
  match s.uploads[i]? with
  | some ⟨uid, title, caption, .reading⟩ =>
    let entry : Entry := ⟨uid, String.ofList (displayName.toList.take 80), title, caption, now,
      none, "entry-" ++ toString uid ++ ext⟩
    some { s with uploads := s.uploads.set i ⟨uid, title, caption, .sent entry⟩ }
  | _ => none

def postEntry (c : Contest) (s : Sys) (i : Nat) (messageId : Nat) (now : Int) : Option Sys :=
  match s.uploads[i]? with
  | some ⟨_, _, _, .sent entry⟩ =>
    let s := { s with uploads := s.uploads.eraseIdx i }
    if phase c s.mem now ≠ .submit then some s
    else some (s.saved (putEntry s.mem { entry with messageId := some messageId }).1)
  | _ => none

def handleVote (c : Contest) (s : Sys) (voter : Nat) (isBot : Bool) (entrant : Nat) (now : Int) :
    Sys :=
  match castVote c s.mem voter isBot entrant now with
  | (mem, .voted) | (mem, .moved) | (mem, .removed) => s.saved mem
  | _ => s

def removeCommand (s : Sys) (member : Nat) : Sys :=
  if s.mem.confirmedAt.isSome then s
  else match removeEntry s.mem member with
    | (_, none) => s
    | (mem, some _) => s.saved mem

def tick (c : Contest) (s : Sys) (now : Int) : Sys :=
  match advance c s.mem now with
  | (_, none) => s
  | (mem, some _) => s.saved mem

def pressConfirm (c : Contest) (s : Sys) (staff : Nat) (now : Int) : Sys :=
  if phase c s.mem now = .closed ∨ phase c s.mem now = .done then
    { s with waiting := s.waiting ++ [staff] }
  else s

def enterConfirm (c : Contest) (s : Sys) (now : Int) : Option Sys :=
  match s.waiting, s.paying with
  | staff :: waiting, none =>
    let s := { s with waiting }
    if s.mem.confirmedAt = none then
      let mem : State := { s.mem with confirmedBy := some staff, confirmedAt := some now }
      some
        { s.saved mem with
          paying := some ⟨payoutPlan c mem, none⟩
          results := some mem }
    else some { s with paying := some ⟨payoutPlan c s.mem, none⟩ }
  | _, _ => none

/-! ## Payouts -/

/-- `c.payouts.get(case_id) in FINAL_PAYOUTS`. -/
def isPaid (mem : State) (caseId : String) : Bool :=
  (mem.payouts.get? caseId).any fun p => p.status.isFinal

def sendNext (s : Sys) : Option Sys :=
  match s.paying with
  | some ⟨item :: todo, none⟩ =>
    if isPaid s.mem item.caseId then some { s with paying := some ⟨todo, none⟩ }
    else some
      { s with
        requests := s.requests ++ [⟨item, none⟩]
        paying := some ⟨item :: todo, some s.requests.length⟩ }
  | _ => none

def serve (s : Sys) (k : Nat) (profile : Option Nat) (allowed : List String) : Option Sys :=
  match s.requests[k]? with
  | none => none
  | some request =>
    match awardRoute s.shop request.item profile allowed with
    | (shop, reply) => some
      { s with
        shop
        requests := s.requests.set k { request with answer := some reply }
        awards :=
          if reply = .ok false then ⟨request.item, profile.getD 0⟩ :: s.awards else s.awards }

def recordStatus (s : Sys) (item : PlanItem) (todo : List PlanItem) (status : PayStatus) : Sys :=
  { s with
    mem := { s.mem with payouts := s.mem.payouts.put ⟨item.caseId, status⟩ }
    paying := some ⟨todo, none⟩ }

def receive (s : Sys) : Option Sys :=
  match s.paying with
  | some ⟨item :: todo, some k⟩ =>
    match (s.requests[k]?).bind Request.answer with
    | none => none
    | some reply => some (recordStatus s item todo (payStatus reply))
  | _ => none

def fail (s : Sys) (why : String) : Option Sys :=
  match s.paying with
  | some ⟨item :: todo, some _⟩ => some (recordStatus s item todo (.error why))
  | _ => none

def finish (s : Sys) : Option Sys :=
  match s.paying with
  | some ⟨[], none⟩ => some { s.saved s.mem with paying := none, through := true }
  | _ => none

/-- `confirm` is left by an exception or because the bot stops; its `finally` saves. -/
def abort (s : Sys) : Option Sys :=
  match s.paying with
  | some _ => some { s.saved s.mem with paying := none }
  | none => none

def restart (s : Sys) : Sys :=
  { s with mem := s.disk.getD .start, uploads := [], waiting := [], paying := none }

inductive Act
  | submit (uid : Nat) (isBot : Bool) (title caption : String) (now : Int)
  | start (i : Nat) (now : Int)
  | compose (i : Nat) (displayName ext : String) (now : Int)
  | post (i messageId : Nat) (now : Int)
  | drop (i : Nat)
  | vote (voter : Nat) (isBot : Bool) (entrant : Nat) (now : Int)
  | remove (member : Nat)
  | tick (now : Int)
  | save
  | press (staff : Nat) (now : Int)
  | enter (now : Int)
  | send
  | serve (k : Nat) (profile : Option Nat) (allowed : List String)
  | receive
  | fail (why : String)
  | finish
  | abort
  | restart
  | portal (shop : Shop)

def step (c : Contest) (s : Sys) : Act → Option Sys
  | .submit uid isBot title caption now => some (submitEntry c s uid isBot title caption now)
  | .start i now => startUpload c s i now
  | .compose i displayName ext now => composeEntry s i displayName ext now
  | .post i messageId now => postEntry c s i messageId now
  | .drop i => some { s with uploads := s.uploads.eraseIdx i }
  | .vote voter isBot entrant now => some (handleVote c s voter isBot entrant now)
  | .remove member => some (removeCommand s member)
  | .tick now => some (tick c s now)
  | .save => some (s.saved s.mem)
  | .press staff now => some (pressConfirm c s staff now)
  | .enter now => enterConfirm c s now
  | .send => sendNext s
  | .serve k profile allowed => serve s k profile allowed
  | .receive => receive s
  | .fail why => fail s why
  | .finish => finish s
  | .abort => abort s
  | .restart => some (restart s)
  | .portal shop =>
    if caseRows shop c.id = caseRows s.shop c.id then some { s with shop } else none

def rowFacts (r : LedgerRow) : Nat × Int × Option String := (r.profileId, r.delta, caseOf r)

def Award.facts (a : Award) : Nat × Int × Option String :=
  (a.profileId, a.item.amount, some a.item.caseId)

def Awarded (awards : List Award) (caseId : String) : Prop := ∃ a ∈ awards, a.item.caseId = caseId

def planOf (c : Contest) : Option State → List PlanItem
  | none => []
  | some r => payoutPlan c r

structure Copy (c : Contest) (results : Option State) (awards : List Award) (through : Bool)
    (m : State) : Prop where
  ownVotes : ∀ v ∈ m.votes, v.voter ≠ v.entrant
  unconfirmed : results = none → m.confirmedAt = none
  frozen : ∀ r, results = some r →
    m.entries = r.entries ∧ m.votes = r.votes ∧ m.confirmedAt.isSome = true
  recorded : ∀ p ∈ m.payouts, p.status.isFinal = true → Awarded awards p.caseId
  covered : through = true → ∀ item ∈ planOf c results, ∃ p ∈ m.payouts, p.caseId = item.caseId

structure Inv (c : Contest) (s : Sys) : Prop where
  mem : Copy c s.results s.awards s.through s.mem
  disk : ∀ d, s.disk = some d → Copy c s.results s.awards s.through d
  onDisk : s.results ≠ none → s.disk ≠ none
  throughPlan : s.through = true → s.results ≠ none
  asked : ∀ q ∈ s.requests, q.item ∈ planOf c s.results
  answered : ∀ q ∈ s.requests, ∀ replay, q.answer = some (.ok replay) →
    Awarded s.awards q.item.caseId
  todo : ∀ p, s.paying = some p → s.results ≠ none ∧ p.todo ⊆ planOf c s.results ∧
    ∀ item ∈ planOf c s.results, item ∈ p.todo ∨ ∃ q ∈ s.mem.payouts, q.caseId = item.caseId
  awaited : ∀ item todo k, s.paying = some ⟨item :: todo, some k⟩ →
    ∃ q, s.requests[k]? = some q ∧ q.item = item
  paid : PaidOf PlanItem.caseId (planOf c s.results) (s.awards.map Award.item)
  rows : (caseRows s.shop c.id).map rowFacts = s.awards.map Award.facts

/-! ## Changes of the contest -/

/-- What a save of an entry, a vote, a removal or a notice changes: once confirmed, nothing of
the entries and the votes. -/
structure Edit (m m' : State) : Prop where
  ownVotes : (∀ v ∈ m.votes, v.voter ≠ v.entrant) → ∀ v ∈ m'.votes, v.voter ≠ v.entrant
  confirmedAt : m'.confirmedAt = m.confirmedAt
  payouts : m'.payouts = m.payouts
  frozen : m.confirmedAt.isSome = true → m'.entries = m.entries ∧ m'.votes = m.votes

theorem Edit.refl (m : State) : Edit m m := ⟨id, rfl, rfl, fun _ => ⟨rfl, rfl⟩⟩

theorem phase_of_confirmed (c : Contest) {m : State} (h : m.confirmedAt.isSome = true)
    (now : Int) : phase c m now = .done := if_pos h

theorem putEntry_edit {c : Contest} {m : State} {now : Int} (h : phase c m now = .submit)
    (entry : Entry) : Edit m (putEntry m entry).1 := by
  refine ⟨id, rfl, rfl, fun hconfirmed => ?_⟩
  rw [phase_of_confirmed c hconfirmed] at h
  cases h

theorem removeEntry_edit {m : State} (h : m.confirmedAt.isSome = false) (member : Nat) :
    Edit m (removeEntry m member).1 := by
  unfold removeEntry
  split
  · exact Edit.refl m
  · refine ⟨fun hown v hv => ?_, rfl, rfl, fun hconfirmed => ?_⟩
    · exact hown v (Table.mem_filter.mp hv).1
    · rw [h] at hconfirmed
      cases hconfirmed

theorem advance_edit (c : Contest) (m : State) (now : Int) : Edit m (advance c m now).1 :=
  ⟨id, rfl, rfl, fun _ => ⟨rfl, rfl⟩⟩

theorem votes_edit {c : Contest} {m : State} {now : Int} (h : phase c m now = .voting)
    {votes : Table Vote Vote.voter}
    (hown : (∀ v ∈ m.votes, v.voter ≠ v.entrant) → ∀ v ∈ votes, v.voter ≠ v.entrant) :
    Edit m { m with votes } := by
  refine ⟨hown, rfl, rfl, fun hconfirmed => ?_⟩
  rw [phase_of_confirmed c hconfirmed] at h
  cases h

theorem put_ownVotes {m : State} {voter entrant : Nat} (hne : ¬ voter = entrant)
    (hown : ∀ v ∈ m.votes, v.voter ≠ v.entrant) :
    ∀ v ∈ m.votes.put ⟨voter, entrant⟩, v.voter ≠ v.entrant := by
  intro v hv
  rcases Table.mem_put.mp hv with rfl | ⟨hv, -⟩
  · exact hne
  · exact hown v hv

theorem castVote_edit (c : Contest) (m : State) (voter : Nat) (isBot : Bool) (entrant : Nat)
    (now : Int) : Edit m (castVote c m voter isBot entrant now).1 := by
  unfold castVote
  split
  · exact Edit.refl m
  split
  · exact Edit.refl m
  · exact Edit.refl m
  · exact Edit.refl m
  · exact Edit.refl m
  · exact Edit.refl m
  rename_i hphase
  split
  · exact Edit.refl m
  split
  · exact Edit.refl m
  rename_i hself
  split
  · exact votes_edit hphase (put_ownVotes hself)
  split
  · refine votes_edit hphase fun hown v hv => ?_
    exact hown v (Table.mem_filter.mp hv).1
  · exact votes_edit hphase (put_ownVotes hself)

section Copies

variable {c : Contest} {results : Option State} {awards : List Award} {through : Bool} {m : State}

theorem Copy.edit (h : Copy c results awards through m) {m' : State} (he : Edit m m') :
    Copy c results awards through m' where
  ownVotes := he.ownVotes h.ownVotes
  unconfirmed hnone := he.confirmedAt.trans (h.unconfirmed hnone)
  frozen := by
    intro r hr
    obtain ⟨hentries, hvotes, hconfirmed⟩ := h.frozen r hr
    obtain ⟨hsame, hsame'⟩ := he.frozen hconfirmed
    exact ⟨hsame.trans hentries, hsame'.trans hvotes, he.confirmedAt ▸ hconfirmed⟩
  recorded := he.payouts ▸ h.recorded
  covered := he.payouts ▸ h.covered

theorem Awarded.mono {awards awards' : List Award} (h : awards ⊆ awards') {caseId : String}
    (ha : Awarded awards caseId) : Awarded awards' caseId := by
  obtain ⟨a, ha, hcase⟩ := ha
  exact ⟨a, h ha, hcase⟩

theorem Copy.award (h : Copy c results awards through m) {awards' : List Award}
    (hsub : awards ⊆ awards') : Copy c results awards' through m :=
  { h with recorded := fun p hp hfinal => (h.recorded p hp hfinal).mono hsub }

theorem recorded_put {payouts : Table Payout Payout.caseId} {p : Payout} {caseId : String}
    (h : ∃ q ∈ payouts, q.caseId = caseId) : ∃ q ∈ payouts.put p, q.caseId = caseId := by
  obtain ⟨q, hq, rfl⟩ := h
  by_cases hcase : q.caseId = p.caseId
  · exact ⟨p, Table.mem_put.mpr (Or.inl rfl), hcase.symm⟩
  · exact ⟨q, Table.mem_put.mpr (Or.inr ⟨hq, hcase⟩), rfl⟩

theorem Copy.record (h : Copy c results awards through m) {p : Payout}
    (hp : p.status.isFinal = true → Awarded awards p.caseId) :
    Copy c results awards through { m with payouts := m.payouts.put p } :=
  { h with
    recorded := by
      intro q hq hfinal
      rcases Table.mem_put.mp hq with rfl | ⟨hq, -⟩
      · exact hp hfinal
      · exact h.recorded q hq hfinal
    covered := fun hthrough item hitem => recorded_put (h.covered hthrough item hitem) }

theorem Copy.confirm (h : Copy c none awards false m) (staff : Nat) (now : Int) :
    Copy c (some { m with confirmedBy := some staff, confirmedAt := some now }) awards false
      { m with confirmedBy := some staff, confirmedAt := some now } where
  ownVotes := h.ownVotes
  unconfirmed hnone := by cases hnone
  frozen := by
    rintro r ⟨⟩
    exact ⟨rfl, rfl, rfl⟩
  recorded := h.recorded
  covered hthrough := by cases hthrough

end Copies

/-! ## Every act keeps the invariant -/

section Steps

variable {c : Contest} {s s' : Sys}

theorem Inv.start (c : Contest) {shop : Shop} (h : caseRows shop c.id = []) :
    Inv c (Sys.start shop) where
  mem := ⟨by simp [Sys.start, State.start], fun _ => rfl, by simp [Sys.start],
    by simp [Sys.start, State.start], by simp [Sys.start]⟩
  disk := by simp [Sys.start]
  onDisk hne := absurd rfl hne
  throughPlan := by simp [Sys.start]
  asked := by simp [Sys.start]
  answered := by simp [Sys.start]
  todo := by simp [Sys.start]
  awaited := by simp [Sys.start]
  paid := PaidOf.nil _
  rows := by simp [Sys.start, h]

theorem Inv.quiet (h : Inv c s) (uploads : List Upload) (waiting : List Nat) :
    Inv c { s with uploads, waiting } :=
  ⟨h.mem, h.disk, h.onDisk, h.throughPlan, h.asked, h.answered, h.todo, h.awaited, h.paid, h.rows⟩

theorem Inv.saved (h : Inv c s) {m' : State} (he : Edit s.mem m') : Inv c (s.saved m') :=
  { h with
    mem := h.mem.edit he
    disk := by
      rintro d ⟨⟩
      exact h.mem.edit he
    onDisk := fun _ => Option.some_ne_none m'
    todo := by
      intro p hp
      obtain ⟨hresults, hsub, hcover⟩ := h.todo p hp
      exact ⟨hresults, hsub, fun item hitem => he.payouts.symm ▸ hcover item hitem⟩ }

theorem Inv.leave (h : Inv c s) : Inv c { s with paying := none } :=
  { h with
    todo := by simp
    awaited := by simp }

theorem submitEntry_inv (h : Inv c s) (uid : Nat) (isBot : Bool) (title caption : String)
    (now : Int) : Inv c (submitEntry c s uid isBot title caption now) := by
  unfold submitEntry
  split
  · exact h
  · exact h.quiet _ s.waiting

variable {i k : Nat} {now : Int}

theorem startUpload_inv (h : Inv c s) (hs : startUpload c s i now = some s') :
    Inv c s' := by
  unfold startUpload at hs
  split at hs
  · split_ifs at hs <;> cases hs <;> exact h.quiet _ s.waiting
  · cases hs

theorem composeEntry_inv (h : Inv c s) {displayName ext : String}
    (hs : composeEntry s i displayName ext now = some s') : Inv c s' := by
  unfold composeEntry at hs
  split at hs
  · cases hs
    exact h.quiet _ s.waiting
  · cases hs

theorem postEntry_inv (h : Inv c s) {messageId : Nat}
    (hs : postEntry c s i messageId now = some s') : Inv c s' := by
  unfold postEntry at hs
  split at hs
  · simp only [] at hs
    split_ifs at hs with hphase
    · cases hs
      exact h.quiet _ s.waiting
    · cases hs
      exact (h.quiet _ s.waiting).saved (putEntry_edit (not_not.mp hphase) _)
  · cases hs

theorem handleVote_inv (h : Inv c s) (voter : Nat) (isBot : Bool) (entrant : Nat) (now : Int) :
    Inv c (handleVote c s voter isBot entrant now) := by
  have he := castVote_edit c s.mem voter isBot entrant now
  unfold handleVote
  split
  · rename_i mem hcast
    exact h.saved (by rwa [hcast] at he)
  · rename_i mem hcast
    exact h.saved (by rwa [hcast] at he)
  · rename_i mem hcast
    exact h.saved (by rwa [hcast] at he)
  · exact h

theorem removeCommand_inv (h : Inv c s) (member : Nat) : Inv c (removeCommand s member) := by
  unfold removeCommand
  split
  · exact h
  · rename_i hopen
    have he := removeEntry_edit (by simpa using hopen) member
    split
    · exact h
    · rename_i mem old hremove
      exact h.saved (by rwa [hremove] at he)

theorem tick_inv (h : Inv c s) (now : Int) : Inv c (tick c s now) := by
  have he := advance_edit c s.mem now
  unfold tick
  split
  · exact h
  · rename_i mem notice hadvance
    exact h.saved (by rwa [hadvance] at he)

theorem pressConfirm_inv (h : Inv c s) (staff : Nat) (now : Int) :
    Inv c (pressConfirm c s staff now) := by
  unfold pressConfirm
  split
  · exact h.quiet s.uploads _
  · exact h

theorem Inv.nothing (h : Inv c s) (hnone : s.results = none) :
    s.requests = [] ∧ s.awards = [] ∧ s.through = false := by
  have hplan : planOf c s.results = [] := by rw [hnone]; rfl
  refine ⟨?_, ?_, ?_⟩
  · refine List.eq_nil_iff_forall_not_mem.mpr fun q hq => ?_
    have hmem := h.asked q hq
    rw [hplan] at hmem
    cases hmem
  · refine List.eq_nil_iff_forall_not_mem.mpr fun a ha => ?_
    have hmem := h.paid.planned _ (List.mem_map_of_mem ha)
    rw [hplan] at hmem
    cases hmem
  · by_contra hthrough
    exact h.throughPlan (by simpa using hthrough) hnone

theorem Inv.confirm (h : Inv c s) (hopen : s.mem.confirmedAt = none) (staff : Nat) (now : Int)
    (waiting : List Nat) :
    let mem : State := { s.mem with confirmedBy := some staff, confirmedAt := some now }
    Inv c
      { s with
        mem
        disk := some mem
        waiting
        paying := some ⟨payoutPlan c mem, none⟩
        results := some mem } := by
  have hnone : s.results = none := by
    cases hresults : s.results with
    | none => rfl
    | some r =>
      have hconfirmed := (h.mem.frozen r hresults).2.2
      rw [hopen] at hconfirmed
      cases hconfirmed
  obtain ⟨hrequests, hawards, hthrough⟩ := h.nothing hnone
  have hmem := h.mem
  rw [hnone, hthrough] at hmem
  have hcopy := hmem.confirm staff now
  refine
    { mem := by rwa [hthrough]
      disk := ?_
      onDisk := fun _ => Option.some_ne_none _
      throughPlan := fun _ => Option.some_ne_none _
      asked := by simp [hrequests]
      answered := by simp [hrequests]
      todo := ?_
      awaited := ?_
      paid := ?_
      rows := h.rows }
  · rintro d ⟨⟩
    rwa [hthrough]
  · rintro p ⟨⟩
    exact ⟨Option.some_ne_none _, List.Subset.refl _, fun item hitem => Or.inl hitem⟩
  · intro item todo k heq
    injection heq with heq
    injection heq with _ hawait
    cases hawait
  · simp only [hawards]
    exact PaidOf.nil _

theorem Inv.again (h : Inv c s) (hconfirmed : s.mem.confirmedAt ≠ none) (waiting : List Nat) :
    Inv c { s with waiting, paying := some ⟨payoutPlan c s.mem, none⟩ } := by
  obtain ⟨r, hr⟩ : ∃ r, s.results = some r := by
    cases hresults : s.results with
    | none => exact absurd (h.mem.unconfirmed hresults) hconfirmed
    | some r => exact ⟨r, rfl⟩
  obtain ⟨hentries, hvotes, -⟩ := h.mem.frozen r hr
  have hplan : payoutPlan c s.mem = planOf c s.results := by
    rw [hr]
    exact payoutPlan_congr hentries hvotes
  refine
    { h with
      todo := ?_
      awaited := ?_ }
  · rintro p ⟨⟩
    refine ⟨by simp [hr], hplan ▸ List.Subset.refl _, fun item hitem => Or.inl ?_⟩
    rw [hplan]
    exact hitem
  · intro item todo k heq
    injection heq with heq
    injection heq with _ hawait
    cases hawait

theorem enterConfirm_inv (h : Inv c s) (hs : enterConfirm c s now = some s') :
    Inv c s' := by
  unfold enterConfirm at hs
  split at hs
  · simp only [] at hs
    split_ifs at hs with hopen
    · cases hs
      exact h.confirm hopen _ now _
    · cases hs
      exact h.again hopen _
  · cases hs

theorem isPaid_mem {m : State} {caseId : String} (h : isPaid m caseId = true) :
    ∃ p ∈ m.payouts, p.caseId = caseId := by
  obtain ⟨p, hp, -⟩ := (Option.any_eq_true _ _).mp h
  exact ⟨p, (Table.get?_eq_some.mp hp).1, (Table.get?_eq_some.mp hp).2⟩

theorem sendNext_inv (h : Inv c s) (hs : sendNext s = some s') : Inv c s' := by
  unfold sendNext at hs
  split at hs
  · rename_i item todo hpaying
    obtain ⟨hresults, hsub, hcover⟩ := h.todo _ hpaying
    have hitem : item ∈ planOf c s.results := hsub (List.mem_cons_self ..)
    split_ifs at hs with hfinal
    · cases hs
      refine
        { h with
          todo := ?_
          awaited := ?_ }
      · rintro p ⟨⟩
        refine ⟨hresults, fun x hx => hsub (List.mem_cons_of_mem _ hx), fun x hx => ?_⟩
        rcases hcover x hx with hx | hx
        · rcases List.mem_cons.mp hx with rfl | hx
          · exact Or.inr (isPaid_mem hfinal)
          · exact Or.inl hx
        · exact Or.inr hx
      · intro item todo k heq
        injection heq with heq
        injection heq with _ hawait
        cases hawait
    · cases hs
      refine
        { h with
          asked := ?_
          answered := ?_
          todo := ?_
          awaited := ?_ }
      · intro q hq
        rcases List.mem_append.mp hq with hq | hq
        · exact h.asked q hq
        · rw [List.mem_singleton.mp hq]
          exact hitem
      · intro q hq replay hanswer
        rcases List.mem_append.mp hq with hq | hq
        · exact h.answered q hq replay hanswer
        · rw [List.mem_singleton.mp hq] at hanswer
          cases hanswer
      · rintro p ⟨⟩
        exact ⟨hresults, hsub, hcover⟩
      · rintro _ _ _ ⟨⟩
        exact ⟨⟨item, none⟩, by simp, rfl⟩
  · cases hs

theorem itemOf_planOf {results : Option State} {item : PlanItem} (h : item ∈ planOf c results) :
    ItemOf c item := by
  cases results with
  | none => cases h
  | some r => exact itemOf_payoutPlan h

theorem Inv.row_of_award (h : Inv c s) {a : Award} (ha : a ∈ s.awards) :
    ∃ r ∈ s.shop.ledger.rows, caseOf r = some a.item.caseId := by
  have hmem : a.facts ∈ (caseRows s.shop c.id).map rowFacts := by
    rw [h.rows]
    exact List.mem_map_of_mem ha
  obtain ⟨r, hr, hfacts⟩ := List.mem_map.mp hmem
  exact ⟨r, (List.mem_filter.mp hr).1, congrArg (fun f => f.2.2) hfacts⟩

theorem Inv.award_of_row (h : Inv c s) {r : LedgerRow} (hr : r ∈ s.shop.ledger.rows)
    {caseId : String} (hcase : caseOf r = some caseId)
    (hparse : ∃ kase, parseCase caseId = some kase ∧ kase.contest = c.id) :
    Awarded s.awards caseId := by
  have hmem : rowFacts r ∈ s.awards.map Award.facts := by
    rw [← h.rows]
    exact List.mem_map_of_mem (List.mem_filter.mpr ⟨hr, ofContest_of_case hcase hparse⟩)
  obtain ⟨a, ha, hfacts⟩ := List.mem_map.mp hmem
  have hsome : some a.item.caseId = caseOf r := congrArg (fun f => f.2.2) hfacts
  exact ⟨a, ha, Option.some.inj (hsome.trans hcase)⟩

theorem Inv.answer (h : Inv c s) {request : Request}
    (hrequest : s.requests[k]? = some request) {shop : Shop} {reply : Reply} {awards : List Award}
    (hsub : s.awards ⊆ awards)
    (hreply : ∀ replay, reply = .ok replay → Awarded awards request.item.caseId)
    (hpaid : PaidOf PlanItem.caseId (planOf c s.results) (awards.map Award.item))
    (hrows : (caseRows shop c.id).map rowFacts = awards.map Award.facts) :
    Inv c
      { s with
        shop
        requests := s.requests.set k { request with answer := some reply }
        awards } := by
  refine
    { h with
      mem := h.mem.award hsub
      disk := fun d hd => (h.disk d hd).award hsub
      asked := ?_
      answered := ?_
      awaited := ?_
      paid := hpaid
      rows := hrows }
  · intro q hq
    rcases List.mem_or_eq_of_mem_set hq with hq | rfl
    · exact h.asked q hq
    · exact h.asked request (List.mem_of_getElem? hrequest)
  · intro q hq replay hanswer
    rcases List.mem_or_eq_of_mem_set hq with hq | rfl
    · exact (h.answered q hq replay hanswer).mono hsub
    · exact hreply replay (Option.some.inj hanswer)
  · intro item todo j hpaying
    obtain ⟨q, hq, hitem⟩ := h.awaited item todo j hpaying
    by_cases hj : k = j
    · subst hj
      rw [hrequest] at hq
      cases hq
      have hlt : k < s.requests.length := (List.getElem?_eq_some_iff.mp hrequest).1
      exact ⟨{ request with answer := some reply }, by simp [hlt], hitem⟩
    · exact ⟨q, by simpa [List.getElem?_set_ne hj] using hq, hitem⟩

theorem serve_inv (h : Inv c s) {profile : Option Nat} {allowed : List String}
    (hs : serve s k profile allowed = some s') : Inv c s' := by
  unfold serve at hs
  split at hs
  · cases hs
  · rename_i request hrequest
    have hplan := h.asked request (List.mem_of_getElem? hrequest)
    have hspec := awardRoute_spec (itemOf_planOf hplan) s.shop profile allowed
    generalize awardRoute s.shop request.item profile allowed = answer at hs hspec
    cases hspec with
    | pays shop' pid hprofile hcase hpays =>
      dsimp only at hs
      rw [if_pos rfl] at hs
      cases hs
      obtain ⟨r, hrpid, hdelta, hkey, hrows⟩ := hpays.row
      have hrcase : caseOf r = some request.item.caseId := by simp [caseOf, hkey]
      refine h.answer hrequest (List.subset_cons_self ..) ?_ ?_ ?_
      · intro _ _
        exact ⟨_, List.mem_cons_self .., rfl⟩
      · refine h.paid.cons hplan fun item hitem heq => ?_
        obtain ⟨a, ha, rfl⟩ := List.mem_map.mp hitem
        obtain ⟨q, hq, hqcase⟩ := h.row_of_award ha
        exact hpays.fresh q hq (heq ▸ hqcase)
      · rw [caseRows, hrows, List.filter_cons_of_pos (ofContest_of_case hrcase hcase), List.map_cons,
          List.map_cons, ← h.rows, hprofile]
        simp only [rowFacts, Award.facts, hrpid, hdelta, hrcase, Option.getD_some]
        rfl
    | replay hcase hrow =>
      have hreply : Reply.ok true ≠ Reply.ok false := by simp
      dsimp only at hs
      rw [if_neg hreply] at hs
      cases hs
      obtain ⟨r, hr, hrcase⟩ := hrow
      refine h.answer hrequest (List.Subset.refl _) ?_ h.paid h.rows
      intro _ _
      exact h.award_of_row hr hrcase hcase
    | refused code detail =>
      have hreply : Reply.refused code detail ≠ Reply.ok false := by simp
      dsimp only at hs
      rw [if_neg hreply] at hs
      cases hs
      exact h.answer hrequest (List.Subset.refl _) (by simp) h.paid h.rows

theorem Inv.record (h : Inv c s) {item : PlanItem} {todo : List PlanItem}
    (hpaying : s.paying = some ⟨item :: todo, some k⟩) {status : PayStatus}
    (hstatus : status.isFinal = true → Awarded s.awards item.caseId) :
    Inv c (recordStatus s item todo status) := by
  obtain ⟨hresults, hsub, hcover⟩ := h.todo _ hpaying
  refine
    { h with
      mem := h.mem.record hstatus
      todo := ?_
      awaited := ?_ }
  · rintro p ⟨⟩
    refine ⟨hresults, fun x hx => hsub (List.mem_cons_of_mem _ hx), fun x hx => ?_⟩
    rcases hcover x hx with hx | hx
    · rcases List.mem_cons.mp hx with rfl | hx
      · exact Or.inr ⟨_, Table.mem_put.mpr (Or.inl rfl), rfl⟩
      · exact Or.inl hx
    · exact Or.inr (recorded_put hx)
  · intro item todo k heq
    injection heq with heq
    injection heq with _ hawait
    cases hawait

theorem receive_inv (h : Inv c s) (hs : receive s = some s') : Inv c s' := by
  unfold receive at hs
  split at hs
  · rename_i item todo k hpaying
    split at hs
    · cases hs
    · rename_i reply hanswer
      cases hs
      refine h.record hpaying fun hfinal => ?_
      obtain ⟨replay, rfl⟩ := payStatus_final hfinal
      obtain ⟨q, hq, hqanswer⟩ := Option.bind_eq_some_iff.mp hanswer
      obtain ⟨q', hq', rfl⟩ := h.awaited item todo k hpaying
      rw [hq] at hq'
      cases hq'
      exact h.answered q (List.mem_of_getElem? hq) replay hqanswer
  · cases hs

theorem fail_inv (h : Inv c s) {why : String} (hs : fail s why = some s') : Inv c s' := by
  unfold fail at hs
  split at hs
  · rename_i hpaying
    cases hs
    exact h.record hpaying (by simp [PayStatus.isFinal])
  · cases hs

theorem finish_inv (h : Inv c s) (hs : finish s = some s') : Inv c s' := by
  unfold finish at hs
  split at hs
  · rename_i hpaying
    cases hs
    obtain ⟨hresults, -, hcover⟩ := h.todo _ hpaying
    have hmem : Copy c s.results s.awards true s.mem :=
      { h.mem with
        covered := fun _ item hitem => (hcover item hitem).resolve_left (List.not_mem_nil) }
    have hleft := h.leave
    refine
      { hleft with
        mem := hmem
        disk := ?_
        onDisk := fun _ => Option.some_ne_none _
        throughPlan := fun _ => hresults }
    rintro d ⟨⟩
    exact hmem
  · cases hs

theorem abort_inv (h : Inv c s) (hs : abort s = some s') : Inv c s' := by
  unfold abort at hs
  split at hs
  · cases hs
    exact (h.saved (Edit.refl s.mem)).leave
  · cases hs

theorem restart_inv (h : Inv c s) : Inv c (restart s) := by
  have hleft := (h.quiet [] []).leave
  refine { hleft with mem := ?_, todo := by simp [restart], awaited := by simp [restart] }
  cases hdisk : s.disk with
  | some d =>
    show Copy c s.results s.awards s.through (s.disk.getD .start)
    rw [hdisk]
    exact h.disk d hdisk
  | none =>
    have hnone : s.results = none := by
      by_contra hresults
      exact h.onDisk hresults hdisk
    show Copy c s.results s.awards s.through (s.disk.getD .start)
    rw [hdisk, hnone, (h.nothing hnone).2.2]
    exact ⟨by simp [State.start], fun _ => rfl, by simp, by simp [State.start], by simp⟩

theorem Inv.step (h : Inv c s) {a : Act} (hs : step c s a = some s') : Inv c s' := by
  cases a with
  | submit uid isBot title caption now =>
    cases hs
    exact submitEntry_inv h uid isBot title caption now
  | start i now => exact startUpload_inv h hs
  | compose i displayName ext now => exact composeEntry_inv h hs
  | post i messageId now => exact postEntry_inv h hs
  | drop i =>
    cases hs
    exact h.quiet _ s.waiting
  | vote voter isBot entrant now =>
    cases hs
    exact handleVote_inv h voter isBot entrant now
  | remove member =>
    cases hs
    exact removeCommand_inv h member
  | tick now =>
    cases hs
    exact tick_inv h now
  | save =>
    cases hs
    exact h.saved (Edit.refl s.mem)
  | press staff now =>
    cases hs
    exact pressConfirm_inv h staff now
  | enter now => exact enterConfirm_inv h hs
  | send => exact sendNext_inv h hs
  | serve k profile allowed => exact serve_inv h hs
  | receive => exact receive_inv h hs
  | fail why => exact fail_inv h hs
  | finish => exact finish_inv h hs
  | abort => exact abort_inv h hs
  | restart =>
    cases hs
    exact restart_inv h
  | portal shop =>
    simp only [Contests.step] at hs
    split_ifs at hs with hsame
    cases hs
    exact { h with rows := hsame ▸ h.rows }

theorem Inv.run {shop : Shop} (hshop : caseRows shop c.id = []) {acts : List Act}
    (hrun : exec (Contests.step c) (Sys.start shop) acts = some s) : Inv c s :=
  exec_invariant' (fun _ _ _ h hs => h.step hs) (Inv.start c hshop) hrun

end Steps

end LastSietch.Contests
