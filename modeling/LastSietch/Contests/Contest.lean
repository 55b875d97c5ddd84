import LastSietch.Nights.Shop

/-!
# Event contests

A contest takes one entry and one vote from each member, and the plan of its payouts is read
off the entries and the votes: a reward for each entrant and one for each place. `Contest` is a
definition that the parser accepts and `State` what is saved of a contest. Entries, votes and
recorded payouts are dictionaries, so a member's second entry or vote replaces the first.

`payoutPlan_caseIds_nodup` says that no case stands twice in the plan, `sum_payoutPlan_le`
bounds what it costs, and `mem_payoutPlan_place` reads a place's case back from `winners`.
-/

namespace LastSietch.Contests

/-! ## Definitions and saved state -/

def titleMax : Nat := 60
def captionMax : Nat := 200

/-- The most places and the largest reward of the lane `ls_tokens`. -/
def lanePlaces : Nat := 3
def laneMax : Nat := 50

/-- `[a-z0-9-]`. -/
def contestChar (c : Char) : Bool :=
  (decide ('a' ≤ c) && decide (c ≤ 'z')) || (decide ('0' ≤ c) && decide (c ≤ '9')) || c == '-'

/-- `CONTEST_ID_RE`. -/
def contestIdOk (id : List Char) : Bool :=
  decide (1 ≤ id.length) && decide (id.length ≤ 24) && id.all contestChar

/-- A contest that `parse_definitions` accepts, with its texts stripped. -/
structure Contest where
  id : String
  eventLabel : String
  title : String
  submitOpensAt : Int
  submitClosesAt : Int
  voteOpensAt : Int
  voteClosesAt : Int
  entrantReward : Nat
  winnerRewards : List Nat
  idOk : contestIdOk id.toList = true
  windows : submitOpensAt < submitClosesAt ∧ submitClosesAt ≤ voteOpensAt ∧
    voteOpensAt < voteClosesAt
  places : 1 ≤ winnerRewards.length ∧ winnerRewards.length ≤ lanePlaces
  rewards : ∀ r ∈ entrantReward :: winnerRewards, r ≤ laneMax

structure Entry where
  discordId : Nat
  displayName : String
  title : String
  caption : String
  submittedAt : Int
  messageId : Option Nat
  imageName : String
  deriving DecidableEq, Repr

structure Vote where
  voter : Nat
  entrant : Nat
  deriving DecidableEq, Repr

inductive Notice
  | submitOpen | voteOpen | voteClose
  deriving DecidableEq, Repr

/-- The status of a case, `error:<why>` included. -/
inductive PayStatus
  | paid | replay | unlinked
  | error (why : String)
  deriving DecidableEq, Repr

/-- `FINAL_PAYOUTS`. -/
def PayStatus.isFinal : PayStatus → Bool
  | .paid | .replay => true
  | _ => false

structure Payout where
  caseId : String
  status : PayStatus
  deriving DecidableEq, Repr

/-- What `state_dict` saves of a contest. -/
structure State where
  entries : Table Entry Entry.discordId
  votes : Table Vote Vote.voter
  sent : List Notice
  confirmedBy : Option Nat
  confirmedAt : Option Int
  payouts : Table Payout Payout.caseId

def State.start : State := ⟨Table.empty, Table.empty, [], none, none, Table.empty⟩

inductive Phase
  | scheduled | submit | between | voting | closed | done
  deriving DecidableEq, Repr

/-- `PHASE_ORDER.index`. -/
def Phase.order : Phase → Nat
  | .scheduled => 0
  | .submit => 1
  | .between => 2
  | .voting => 3
  | .closed => 4
  | .done => 5

def notices : List (Notice × Phase) :=
  [(.submitOpen, .submit), (.voteOpen, .voting), (.voteClose, .closed)]

def phase (c : Contest) (s : State) (now : Int) : Phase :=
  if s.confirmedAt.isSome then .done
  else if now < c.submitOpensAt then .scheduled
  else if now < c.submitClosesAt then .submit
  else if now < c.voteOpensAt then .between
  else if now < c.voteClosesAt then .voting
  else .closed

def advance (c : Contest) (s : State) (now : Int) : State × Option Notice :=
  let reached := (phase c s now).order
  let due := (notices.filter fun n => decide (n.2.order ≤ reached) && !s.sent.contains n.1).map
    Prod.fst
  ({ s with sent := s.sent ++ due }, due.getLast?)

/-! ## Entries and votes -/

/-- `str.isspace` of one character. -/
def isSpace (c : Char) : Bool :=
  let n := c.toNat
  (decide (9 ≤ n) && decide (n ≤ 13)) || (decide (28 ≤ n) && decide (n ≤ 32)) ||
    n == 0x85 || n == 0xa0 || n == 0x1680 || (decide (0x2000 ≤ n) && decide (n ≤ 0x200a)) ||
    n == 0x2028 || n == 0x2029 || n == 0x202f || n == 0x205f || n == 0x3000

def strip (text : List Char) : List Char :=
  ((text.dropWhile isSpace).reverse.dropWhile isSpace).reverse

/-- `" ".join(text.split())`. -/
def joinWords (text : List Char) : List Char :=
  List.intercalate [' '] ((text.splitOnP isSpace).filter (fun word => !word.isEmpty))

inductive EntryError
  | bot | closed | badTitle | badCaption
  deriving DecidableEq, Repr

def validateEntry (c : Contest) (s : State) (isBot : Bool) (title caption : String) (now : Int) :
    Except EntryError (String × String) :=
  if isBot then .error .bot
  else if phase c s now ≠ .submit then .error .closed
  else
    let title := joinWords title.toList
    let caption := strip caption.toList
    if ¬ (1 ≤ title.length ∧ title.length ≤ titleMax) then .error .badTitle
    else if captionMax < caption.length then .error .badCaption
    else .ok (String.ofList title, String.ofList caption)

def putEntry (s : State) (entry : Entry) : State × Option Entry :=
  ({ s with entries := s.entries.put entry }, s.entries.get? entry.discordId)

def removeEntry (s : State) (entrantId : Nat) : State × Option Entry :=
  match s.entries.get? entrantId with
  | none => (s, none)
  | some old =>
    ({ s with
        entries := s.entries.filter (fun e => e.discordId ≠ entrantId)
        votes := s.votes.filter (fun v => v.entrant ≠ entrantId) }, some old)

inductive VoteReply
  | bot | tooEarly | closed | noEntry | self | removed | voted | moved
  deriving DecidableEq, Repr

def castVote (c : Contest) (s : State) (voterId : Nat) (voterIsBot : Bool) (entrantId : Nat)
    (now : Int) : State × VoteReply :=
  if voterIsBot then (s, .bot)
  else match phase c s now with
    | .scheduled | .submit | .between => (s, .tooEarly)
    | .closed | .done => (s, .closed)
    | .voting =>
      if s.entries.get? entrantId = none then (s, .noEntry)
      else if voterId = entrantId then (s, .self)
      else match s.votes.get? voterId with
        | none => ({ s with votes := s.votes.put ⟨voterId, entrantId⟩ }, .voted)
        | some current =>
          if current.entrant = entrantId then
            ({ s with votes := s.votes.filter (fun v => v.voter ≠ voterId) }, .removed)
          else ({ s with votes := s.votes.put ⟨voterId, entrantId⟩ }, .moved)

def RanksBefore (a b : Entry × Nat) : Prop :=
  b.2 < a.2 ∨ a.2 = b.2 ∧ (a.1.submittedAt < b.1.submittedAt ∨
    a.1.submittedAt = b.1.submittedAt ∧ a.1.discordId ≤ b.1.discordId)

instance : DecidableRel RanksBefore := fun _ _ => inferInstanceAs (Decidable (_ ∨ _))

def counts (s : State) : List (Entry × Nat) :=
  s.entries.rows.map fun e => (e, s.votes.rows.countP fun v => v.entrant = e.discordId)

def tally (s : State) : List (Nat × Nat) :=
  ((counts s).insertionSort RanksBefore).map fun p => (p.1.discordId, p.2)

structure Winner where
  place : Nat
  entrant : Nat
  votes : Nat
  deriving DecidableEq, Repr

def ranked (s : State) : List (Nat × Nat) := (tally s).filter fun p => 0 < p.2

def winners (c : Contest) (s : State) : List Winner :=
  ((ranked s).take c.winnerRewards.length).zipIdx.map fun p => ⟨p.2 + 1, p.1.1, p.1.2⟩

structure PlanItem where
  discordId : Nat
  amount : Nat
  caseId : String
  reason : String
  deriving DecidableEq, Repr

def entryCase (c : Contest) (eid : Nat) : String :=
  "contest:" ++ c.id ++ ":entry:" ++ toString eid

def placeCase (c : Contest) (place : Nat) : String :=
  "contest:" ++ c.id ++ ":place:" ++ toString place

def label (c : Contest) : String :=
  String.ofList ((c.eventLabel ++ ": " ++ c.title).toList.take 150)

def entryItem (c : Contest) (eid : Nat) : PlanItem :=
  ⟨eid, c.entrantReward, entryCase c eid, label c ++ " entry"⟩

def placeItem (c : Contest) (w : Winner) : PlanItem :=
  ⟨w.entrant, c.winnerRewards.getD (w.place - 1) 0, placeCase c w.place,
    label c ++ " place " ++ toString w.place⟩

def entryItems (c : Contest) (s : State) : List PlanItem :=
  if 0 < c.entrantReward then
    ((s.entries.rows.map Entry.discordId).insertionSort (· ≤ ·)).map (entryItem c)
  else []

def payoutPlan (c : Contest) (s : State) : List PlanItem :=
  entryItems c s ++ ((winners c s).map (placeItem c)).filter fun item => 0 < item.amount

/-! ## The plan -/

section Plan

variable {c : Contest} {s : State}

theorem toString_inj {a b : Nat} (h : toString a = toString b) : a = b := by
  have hdigits : Nat.toDigits 10 a = Nat.toDigits 10 b := by
    rw [← Nat.toList_repr, ← Nat.toList_repr]
    exact congrArg String.toList h
  have hback := congrArg (fun digits => Nat.ofDigitChars 10 digits 0) hdigits
  simpa [Nat.ofDigitChars_toDigits] using hback

theorem entryCase_inj {a b : Nat} (h : entryCase c a = entryCase c b) : a = b :=
  toString_inj (by simpa [entryCase] using h)

theorem placeCase_inj {a b : Nat} (h : placeCase c a = placeCase c b) : a = b :=
  toString_inj (by simpa [placeCase] using h)

theorem entryCase_ne_placeCase (eid place : Nat) : entryCase c eid ≠ placeCase c place := by
  intro h
  have hlist := congrArg String.toList h
  simp [entryCase, placeCase, String.toList_append] at hlist

theorem tally_ids_perm (s : State) :
    ((tally s).map Prod.fst).Perm (s.entries.rows.map Entry.discordId) := by
  have hsort : ((counts s).insertionSort RanksBefore).Perm (counts s) :=
    List.perm_insertionSort RanksBefore (counts s)
  have hmap := hsort.map fun p => p.1.discordId
  simpa [tally, counts, Function.comp_def] using hmap

theorem winners_entrants : (winners c s).map Winner.entrant =
    ((ranked s).take c.winnerRewards.length).map Prod.fst := by
  rw [winners, List.map_map]
  conv_rhs => rw [← List.zipIdx_map_fst 0 ((ranked s).take c.winnerRewards.length)]
  rw [List.map_map]
  rfl

theorem winners_entrants_nodup (c : Contest) (s : State) :
    ((winners c s).map Winner.entrant).Nodup := by
  rw [winners_entrants]
  have hnd : ((tally s).map Prod.fst).Nodup := (tally_ids_perm s).nodup_iff.mpr s.entries.unique
  have hsub : ((ranked s).take c.winnerRewards.length).Sublist (tally s) :=
    (List.take_sublist ..).trans List.filter_sublist
  exact hnd.sublist (hsub.map Prod.fst)

theorem winners_places_nodup (c : Contest) (s : State) :
    ((winners c s).map Winner.place).Nodup := by
  rw [winners, List.map_map]
  have hsnd : (((ranked s).take c.winnerRewards.length).zipIdx.map Prod.snd).Nodup := by
    rw [List.zipIdx_map_snd]
    exact List.nodup_range'
  have hsucc := hsnd.map (f := fun i => i + 1) (fun a b h => Nat.succ_injective h)
  rwa [List.map_map] at hsucc

variable {item : PlanItem}

theorem mem_entryItems : item ∈ entryItems c s ↔
    0 < c.entrantReward ∧ ∃ e ∈ s.entries, item = entryItem c e.discordId := by
  unfold entryItems
  split
  · rename_i hpos
    simp only [List.mem_map, List.mem_insertionSort, hpos, true_and]
    constructor
    · rintro ⟨_, ⟨e, he, rfl⟩, rfl⟩
      exact ⟨e, he, rfl⟩
    · rintro ⟨e, he, rfl⟩
      exact ⟨_, ⟨e, he, rfl⟩, rfl⟩
  · simp [*]

theorem mem_payoutPlan : item ∈ payoutPlan c s ↔
    (0 < c.entrantReward ∧ ∃ e ∈ s.entries, item = entryItem c e.discordId) ∨
      0 < item.amount ∧ ∃ w ∈ winners c s, item = placeItem c w := by
  rw [payoutPlan, List.mem_append, mem_entryItems, List.mem_filter, List.mem_map]
  simp [and_comm, eq_comm]

/-- A place's case goes to the entrant that `winners` ranks there. -/
theorem mem_payoutPlan_place {n : Nat} (h : item ∈ payoutPlan c s)
    (hcase : item.caseId = placeCase c n) :
    ∃ w ∈ winners c s, w.place = n ∧ w.entrant = item.discordId := by
  rcases mem_payoutPlan.mp h with ⟨-, e, -, rfl⟩ | ⟨-, w, hw, rfl⟩
  · exact absurd hcase (entryCase_ne_placeCase e.discordId n)
  · exact ⟨w, hw, placeCase_inj hcase, rfl⟩

theorem entryItems_caseIds_nodup (c : Contest) (s : State) :
    ((entryItems c s).map PlanItem.caseId).Nodup := by
  unfold entryItems
  split
  · rw [List.map_map]
    have hids := (List.perm_insertionSort (· ≤ ·) (s.entries.rows.map Entry.discordId)).nodup_iff.mpr
      s.entries.unique
    exact hids.map (fun _ _ h => entryCase_inj h)
  · exact List.nodup_nil

theorem placeItems_caseIds_nodup (c : Contest) (s : State) :
    (((winners c s).map (placeItem c)).map PlanItem.caseId).Nodup := by
  rw [List.map_map]
  have hplaces := (winners_places_nodup c s).map (f := placeCase c) (fun _ _ h => placeCase_inj h)
  rwa [List.map_map] at hplaces

theorem payoutPlan_caseIds_nodup (c : Contest) (s : State) :
    ((payoutPlan c s).map PlanItem.caseId).Nodup := by
  rw [payoutPlan, List.map_append]
  refine (entryItems_caseIds_nodup c s).append ?_ ?_
  · exact (placeItems_caseIds_nodup c s).sublist (List.filter_sublist.map _)
  · intro caseId hentry hplace
    obtain ⟨item, hitem, rfl⟩ := List.mem_map.mp hentry
    obtain ⟨-, e, -, rfl⟩ := mem_entryItems.mp hitem
    obtain ⟨item', hitem', hcase⟩ := List.mem_map.mp hplace
    obtain ⟨w, -, rfl⟩ := List.mem_map.mp (List.mem_filter.mp hitem').1
    exact entryCase_ne_placeCase e.discordId w.place hcase.symm

theorem sum_zipIdx_getD_le {α : Type} (l : List α) (rewards : List Nat) (k : Nat) :
    ((l.zipIdx k).map fun p => rewards.getD p.2 0).sum ≤ (rewards.drop k).sum := by
  induction l generalizing k with
  | nil => exact Nat.zero_le _
  | cons x l ih =>
    have hrest := ih (k + 1)
    rw [List.zipIdx_cons, List.map_cons, List.sum_cons]
    show rewards.getD k 0 + _ ≤ _
    by_cases hk : k < rewards.length
    · have hget : rewards.getD k 0 = rewards[k] := by simp [List.getD_eq_getElem?_getD, hk]
      rw [List.drop_eq_getElem_cons hk, List.sum_cons]
      omega
    · have hnil : rewards.drop (k + 1) = [] := List.drop_eq_nil_of_le (by omega)
      rw [hnil] at hrest
      have hget : rewards.getD k 0 = 0 := by
        simp [List.getD_eq_getElem?_getD, List.getElem?_eq_none (not_lt.mp hk)]
      simp only [List.sum_nil] at hrest
      omega

theorem sum_entryItems_le (c : Contest) (s : State) :
    ((entryItems c s).map PlanItem.amount).sum ≤ c.entrantReward * s.entries.rows.length := by
  unfold entryItems
  split
  · rw [List.map_map, show PlanItem.amount ∘ entryItem c = fun _ => c.entrantReward from rfl]
    simp [mul_comm]
  · exact Nat.zero_le _

theorem sum_placeItems_le (c : Contest) (s : State) :
    (((winners c s).map (placeItem c)).map PlanItem.amount).sum ≤ c.winnerRewards.sum := by
  rw [winners, List.map_map, List.map_map]
  exact sum_zipIdx_getD_le _ c.winnerRewards 0

theorem sum_payoutPlan_le (c : Contest) (s : State) :
    ((payoutPlan c s).map PlanItem.amount).sum ≤
      c.entrantReward * s.entries.rows.length + c.winnerRewards.sum := by
  rw [payoutPlan, List.map_append, List.sum_append]
  refine Nat.add_le_add (sum_entryItems_le c s) (le_trans ?_ (sum_placeItems_le c s))
  exact (List.filter_sublist.map PlanItem.amount).sum_le_sum (fun _ _ => Nat.zero_le _)

theorem payoutPlan_congr {s s' : State} (hentries : s'.entries = s.entries)
    (hvotes : s'.votes = s.votes) : payoutPlan c s' = payoutPlan c s := by
  simp only [payoutPlan, entryItems, winners, ranked, tally, counts, hentries, hvotes]

end Plan

end LastSietch.Contests
