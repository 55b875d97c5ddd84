import LastSietch.Contests.Contest

/-!
# The award route

`awardRoute` is the backend's side of a payout: it checks the request, reads the case id back
with `parseCase` and awards it on the ledger of the Seven Nights. `payStatus` is what the bot
records of the answer. `caseRows` are the ledger's rows of one contest.

`awardRoute_spec` says all that one request of the bot can do to them: it pays a case that no
row has, or it changes nothing, and it answers `ok` only when the case is paid.
-/

namespace LastSietch.Contests

open Nights

/-! ## The route -/

/-- `[1-9][0-9]{0,19}`. -/
def discordIdOk (text : List Char) : Bool :=
  decide (1 ≤ text.length) && decide (text.length ≤ 20) && text.all Char.isDigit &&
    text.head? != some '0'

/-- What follows `front`. -/
def after? (front : String) (text : List Char) : Option (List Char) :=
  if text.take front.toList.length = front.toList then some (text.drop front.toList.length)
  else none

/-- `:place:[1-3]`. -/
def parseRank (text : List Char) : Option (Fin 3) :=
  if text = ":place:1".toList then some 0
  else if text = ":place:2".toList then some 1
  else if text = ":place:3".toList then some 2
  else none

/-- `CONTEST_CASE_RE`. -/
def parseCase (caseId : String) : Option ContestCase :=
  match after? "contest:" caseId.toList with
  | none => none
  | some rest =>
    let cid := rest.takeWhile (· ≠ ':')
    let tail := rest.dropWhile (· ≠ ':')
    if contestIdOk cid then
      match after? ":entry:" tail with
      | some did =>
        if discordIdOk did then some (.entry (String.ofList cid) (String.ofList did)) else none
      | none => (parseRank tail).map (.place (String.ofList cid))
    else none

inductive Reply
  | ok (replay : Bool)
  | refused (code : Nat) (detail : String)
  deriving DecidableEq, Repr

/-- `POST /_internal/sietch/contest-award`. `profile` is the active profile of the member. -/
def awardRoute (shop : Shop) (item : PlanItem) (profile : Option Nat) (allowed : List String) :
    Shop × Reply :=
  let discordId := toString item.discordId
  let reason := (strip item.reason.toList).length
  if discordIdOk discordId.toList = false then
    (shop, .refused 400 "discord_id must be a Discord id string")
  else if ¬ (1 ≤ item.amount ∧ (item.amount : Int) ≤ awardMax) then
    (shop, .refused 400 "amount must be an integer 1 to 50")
  else if ¬ (3 ≤ reason ∧ reason ≤ 200) then
    (shop, .refused 400 "reason is required (3 to 200 chars)")
  else match parseCase item.caseId with
    | none => (shop, .refused 400
        "case_id must be contest:<id>:entry:<discord_id> or contest:<id>:place:<1-3>")
    | some kase =>
      if allowed = [] then
        (shop, .refused 503 "No contest ids enabled (LASTSIETCH_SIETCH_CONTEST_IDS)")
      else match shop.contestAward discordId profile item.amount kase allowed with
        | (shop', .ok replay) => (shop', .ok replay)
        | (_, .unlinked) => (shop, .refused 409 "unlinked")
        | (_, .caseTaken) => (shop, .refused 409 "case_taken")
        | (_, .badCase) => (shop, .refused 400
            (if kase.contest ∉ allowed then "contest id is not enabled on this server"
              else "an entry case must name the same discord id"))

/-- `_ls_tokens_pay`, for an answer that can be read. -/
def payStatus : Reply → PayStatus
  | .ok true => .replay
  | .ok false => .paid
  | .refused code detail =>
    if code = 409 ∧ detail = "unlinked" then .unlinked
    else .error (toString code ++ ":" ++ String.ofList (detail.toList.take 40))

theorem payStatus_final {reply : Reply} (h : (payStatus reply).isFinal = true) :
    ∃ replay, reply = .ok replay := by
  cases reply with
  | ok replay => exact ⟨replay, rfl⟩
  | refused code detail =>
    by_cases hunlinked : code = 409 ∧ detail = "unlinked" <;>
      simp [payStatus, hunlinked, PayStatus.isFinal] at h

/-- The case that a row of kind `admin_adjust` pays. -/
def caseOf (r : LedgerRow) : Option String :=
  match r.key with
  | .admin _ ref => some ref
  | _ => none

def ofContest (cid : String) (r : LedgerRow) : Bool :=
  ((caseOf r).bind parseCase).any (fun kase => kase.contest = cid)

def caseRows (shop : Shop) (cid : String) : List LedgerRow :=
  shop.ledger.rows.filter (ofContest cid)

/-! ## Case ids -/

section Cases

variable {c : Contest}

theorem after?_append (front : String) (rest : List Char) :
    after? front (front.toList ++ rest) = some rest := by
  simp [after?]

theorem contestIdOk_ne_colon {id : List Char} (h : contestIdOk id = true) : ∀ ch ∈ id, ch ≠ ':' := by
  rintro ch hch rfl
  have hall : id.all contestChar = true := ((Bool.and_eq_true _ _).mp h).2
  exact absurd (List.all_eq_true.mp hall ':' hch) (by decide)

theorem span_contestId {id : List Char} (h : contestIdOk id = true) (rest : List Char) :
    (id ++ ':' :: rest).takeWhile (· ≠ ':') = id ∧
      (id ++ ':' :: rest).dropWhile (· ≠ ':') = ':' :: rest := by
  have hall : ∀ ch ∈ id, decide (ch ≠ ':') = true := by
    intro ch hch
    simpa using contestIdOk_ne_colon h ch hch
  constructor
  · rw [List.takeWhile_append_of_pos hall]
    simp
  · rw [List.dropWhile_append_of_pos hall]
    simp

/-- What the pattern asks of the ids in a case. -/
def caseOk : ContestCase → Bool
  | .entry contest discordId => contestIdOk contest.toList && discordIdOk discordId.toList
  | .place contest _ => contestIdOk contest.toList

theorem parseRank_place : ∀ rank : Fin 3,
    after? ":entry:" (':' :: ("place:".toList ++ (toString (rank.val + 1)).toList)) = none ∧
      parseRank (':' :: ("place:".toList ++ (toString (rank.val + 1)).toList)) = some rank := by
  decide

theorem parseCase_caseId {kase : ContestCase} (hok : caseOk kase = true) :
    parseCase kase.caseId = some kase := by
  cases kase with
  | entry contest discordId =>
    obtain ⟨hid, hdid⟩ := (Bool.and_eq_true _ _).mp hok
    have hlist : (ContestCase.entry contest discordId).caseId.toList = "contest:".toList ++
        (contest.toList ++ ':' :: ("entry:".toList ++ discordId.toList)) := by
      simp [ContestCase.caseId, String.toList_append]
    have hspan := span_contestId hid ("entry:".toList ++ discordId.toList)
    have hentry : after? ":entry:" (':' :: ("entry:".toList ++ discordId.toList)) =
        some discordId.toList := after?_append ":entry:" _
    unfold parseCase
    rw [hlist, after?_append]
    simp only [hspan.1, hspan.2, hid, hentry, hdid, if_true, String.ofList_toList]
  | place contest rank =>
    have hid : contestIdOk contest.toList = true := hok
    have hlist : (ContestCase.place contest rank).caseId.toList = "contest:".toList ++
        (contest.toList ++ ':' :: ("place:".toList ++ (toString (rank.val + 1)).toList)) := by
      simp [ContestCase.caseId, String.toList_append]
    have hspan := span_contestId hid ("place:".toList ++ (toString (rank.val + 1)).toList)
    obtain ⟨hentry, hrank⟩ := parseRank_place rank
    unfold parseCase
    rw [hlist, after?_append]
    simp only [hspan.1, hspan.2, hid, hentry, hrank, if_true, String.ofList_toList, Option.map_some]

theorem parseCase_entryCase (c : Contest) {eid : Nat}
    (h : discordIdOk (toString eid).toList = true) :
    parseCase (entryCase c eid) = some (.entry c.id (toString eid)) := by
  have hok : caseOk (.entry c.id (toString eid)) = true := (Bool.and_eq_true _ _).mpr ⟨c.idOk, h⟩
  exact parseCase_caseId hok

theorem parseCase_placeCase (c : Contest) (rank : Fin 3) :
    parseCase (placeCase c (rank.val + 1)) = some (.place c.id rank) := by
  have hok : caseOk (.place c.id rank) = true := c.idOk
  exact parseCase_caseId hok

theorem eq_append_of_after? {front : String} {text rest : List Char}
    (h : after? front text = some rest) : text = front.toList ++ rest := by
  unfold after? at h
  split_ifs at h with hfront
  cases h
  have htext := List.take_append_drop front.toList.length text
  rwa [hfront, eq_comm] at htext

theorem eq_of_parseRank {text : List Char} {rank : Fin 3} (h : parseRank text = some rank) :
    text = ":place:".toList ++ (toString (rank.val + 1)).toList := by
  unfold parseRank at h
  split_ifs at h with h1 h2 h3 <;> cases h
  · exact h1
  · exact h2
  · exact h3

/-- The case ids that the backend accepts are the texts of its cases, and each is read back as the
case that it is the text of. -/
theorem parseCase_eq_some_iff {caseId : String} {kase : ContestCase} :
    parseCase caseId = some kase ↔ kase.caseId = caseId ∧ caseOk kase = true := by
  refine ⟨fun h => ?_, fun ⟨htext, hok⟩ => htext ▸ parseCase_caseId hok⟩
  unfold parseCase at h
  cases hafter : after? "contest:" caseId.toList with
  | none => simp [hafter] at h
  | some rest =>
    have hcase := eq_append_of_after? hafter
    have hrest : rest.takeWhile (· ≠ ':') ++ rest.dropWhile (· ≠ ':') = rest :=
      List.takeWhile_append_dropWhile
    rw [hafter] at h
    dsimp only at h
    generalize rest.takeWhile (· ≠ ':') = cid at h hrest
    generalize rest.dropWhile (· ≠ ':') = tail at h hrest
    split_ifs at h with hid
    rw [← hrest] at hcase
    cases hentry : after? ":entry:" tail with
    | some did =>
      rw [hentry] at h
      dsimp only at h
      split_ifs at h with hdid
      cases h
      refine ⟨String.toList_injective ?_, by simp [caseOk, hid, hdid]⟩
      rw [hcase, eq_append_of_after? hentry]
      simp [ContestCase.caseId, String.toList_append]
    | none =>
      rw [hentry] at h
      obtain ⟨rank, hrank, rfl⟩ := Option.map_eq_some_iff.mp h
      refine ⟨String.toList_injective ?_, by simp [caseOk, hid]⟩
      rw [hcase, eq_of_parseRank hrank]
      simp [ContestCase.caseId, String.toList_append]

end Cases

theorem ofContest_of_case {cid caseId : String} {r : LedgerRow} (hr : caseOf r = some caseId)
    (hcase : ∃ kase, parseCase caseId = some kase ∧ kase.contest = cid) : ofContest cid r = true := by
  obtain ⟨kase, hparse, hcontest⟩ := hcase
  simp [ofContest, hr, hparse, hcontest]

/-! ## One request -/

def ItemOf (c : Contest) (item : PlanItem) : Prop :=
  item.caseId = entryCase c item.discordId ∨
    ∃ rank : Fin 3, item.caseId = placeCase c (rank.val + 1)

variable {item : PlanItem}

theorem itemOf_payoutPlan {c : Contest} {s : State}
    (h : item ∈ payoutPlan c s) : ItemOf c item := by
  rcases mem_payoutPlan.mp h with ⟨-, e, -, rfl⟩ | ⟨-, w, hw, rfl⟩
  · exact Or.inl rfl
  · obtain ⟨⟨p, i⟩, hp, rfl⟩ := List.mem_map.mp hw
    have hlt : i < ((ranked s).take c.winnerRewards.length).length := by
      simpa using List.snd_lt_of_mem_zipIdx hp
    have hplaces : c.winnerRewards.length ≤ 3 := c.places.2
    rw [List.length_take] at hlt
    exact Or.inr ⟨⟨i, by omega⟩, rfl⟩

theorem parseCase_itemOf {c : Contest} (h : ItemOf c item)
    (hid : discordIdOk (toString item.discordId).toList = true) :
    ∃ kase, parseCase item.caseId = some kase ∧ kase.contest = c.id ∧
      kase.caseId = item.caseId := by
  rcases h with hentry | ⟨rank, hplace⟩
  · rw [hentry]
    exact ⟨_, parseCase_entryCase c hid, rfl, rfl⟩
  · rw [hplace]
    exact ⟨_, parseCase_placeCase c rank, rfl, rfl⟩

structure Pays (shop shop' : Shop) (item : PlanItem) (pid : Nat) : Prop where
  row : ∃ r, r.profileId = pid ∧ r.delta = (item.amount : Int) ∧ r.key = .admin pid item.caseId ∧
    shop'.ledger.rows = r :: shop.ledger.rows
  fresh : ∀ r ∈ shop.ledger.rows, caseOf r ≠ some item.caseId

theorem paysOther_eq_false {r : LedgerRow} {caseId : String} {pid : Nat}
    (h : r.paysOther caseId pid = false) (hcase : caseOf r = some caseId) :
    r.key = .admin pid caseId := by
  unfold caseOf at hcase
  split at hcase
  · rename_i pid' ref hkey
    cases hcase
    have hpid : pid' = pid := by simpa [LedgerRow.paysOther, hkey] using h
    rw [hkey, hpid]
  · cases hcase

theorem adminAward_cases {shop : Shop} {pid : Nat} (hpos : 1 ≤ item.amount)
    (hother : ∀ r ∈ shop.ledger.rows, r.paysOther item.caseId pid = false) :
    (∃ shop', shop.adminAward pid item.amount item.caseId = (shop', false) ∧
        Pays shop shop' item pid) ∨
      shop.adminAward pid item.amount item.caseId = (shop, true) ∧
        ∃ r ∈ shop.ledger.rows, caseOf r = some item.caseId := by
  have hamount : (item.amount : Int) ≠ 0 := by omega
  unfold Shop.adminAward
  rw [dif_pos hamount]
  cases hins : shop.ledger.insert? ⟨pid, item.amount, .admin pid item.caseId, hamount⟩ with
  | none =>
    obtain ⟨r, hr, hkey⟩ := Table.insert?_eq_none.mp hins
    exact Or.inr ⟨rfl, r, hr, by simp [caseOf, hkey]⟩
  | some ledger =>
    refine Or.inl ⟨_, rfl, ⟨_, rfl, rfl, rfl, Table.rows_insert? hins⟩, ?_⟩
    intro r hr hcase
    exact Table.fresh_of_insert? hins hr (paysOther_eq_false (hother r hr) hcase)

inductive RouteCases (c : Contest) (shop : Shop) (item : PlanItem) (profile : Option Nat) :
    Shop × Reply → Prop
  | pays (shop' : Shop) (pid : Nat) (hprofile : profile = some pid)
      (hcase : ∃ kase, parseCase item.caseId = some kase ∧ kase.contest = c.id)
      (h : Pays shop shop' item pid) : RouteCases c shop item profile (shop', .ok false)
  | replay (hcase : ∃ kase, parseCase item.caseId = some kase ∧ kase.contest = c.id)
      (h : ∃ r ∈ shop.ledger.rows, caseOf r = some item.caseId) :
      RouteCases c shop item profile (shop, .ok true)
  | refused (code : Nat) (detail : String) :
      RouteCases c shop item profile (shop, .refused code detail)

theorem contestAward_cases (shop : Shop) {kase : ContestCase}
    (hpos : 1 ≤ item.amount) (hcase : kase.caseId = item.caseId) (discordId : String)
    (profile : Option Nat) (allowed : List String) :
    (∃ shop' pid, shop.contestAward discordId profile item.amount kase allowed =
        (shop', .ok false) ∧ profile = some pid ∧ Pays shop shop' item pid) ∨
      (shop.contestAward discordId profile item.amount kase allowed = (shop, .ok true) ∧
        ∃ r ∈ shop.ledger.rows, caseOf r = some item.caseId) ∨
      ∃ answer, shop.contestAward discordId profile item.amount kase allowed = (shop, answer) ∧
        ∀ replay, answer ≠ .ok replay := by
  unfold Shop.contestAward
  split
  · exact Or.inr (Or.inr ⟨_, rfl, by simp⟩)
  split
  · exact Or.inr (Or.inr ⟨_, rfl, by simp⟩)
  cases profile with
  | none => exact Or.inr (Or.inr ⟨_, rfl, by simp⟩)
  | some pid =>
    simp only [hcase]
    split
    · exact Or.inr (Or.inr ⟨_, rfl, by simp⟩)
    · rename_i hany
      have hother : ∀ r ∈ shop.ledger.rows, r.paysOther item.caseId pid = false := by
        simpa using hany
      rcases adminAward_cases hpos hother with ⟨shop', heq, hpays⟩ | ⟨heq, hrow⟩
      · exact Or.inl ⟨shop', pid, by rw [heq], rfl, hpays⟩
      · exact Or.inr (Or.inl ⟨by rw [heq], hrow⟩)

theorem awardRoute_spec {c : Contest} (h : ItemOf c item) (shop : Shop)
    (profile : Option Nat) (allowed : List String) :
    RouteCases c shop item profile (awardRoute shop item profile allowed) := by
  unfold awardRoute
  dsimp only
  by_cases hid : discordIdOk (toString item.discordId).toList = false
  · rw [if_pos hid]
    exact .refused ..
  obtain ⟨kase, hparse, hcontest, hcase⟩ := parseCase_itemOf h (by simpa using hid)
  rw [if_neg hid, hparse]
  by_cases hamount : 1 ≤ item.amount ∧ (item.amount : Int) ≤ awardMax
  · rw [if_neg (not_not.mpr hamount)]
    split
    · exact .refused ..
    · simp only []
      split
      · exact .refused ..
      · rcases contestAward_cases shop hamount.1 hcase (toString item.discordId) profile
          allowed with ⟨shop', pid, heq, hprofile, hpays⟩ | ⟨heq, hrow⟩ | ⟨answer, heq, hanswer⟩
        · rw [heq]
          exact .pays shop' pid hprofile ⟨kase, hparse, hcontest⟩ hpays
        · rw [heq]
          exact .replay ⟨kase, hparse, hcontest⟩ hrow
        · rw [heq]
          cases answer with
          | ok replay => exact absurd rfl (hanswer replay)
          | unlinked => exact .refused ..
          | caseTaken => exact .refused ..
          | badCase => exact .refused ..
  · rw [if_pos hamount]
    exact .refused ..

end LastSietch.Contests
