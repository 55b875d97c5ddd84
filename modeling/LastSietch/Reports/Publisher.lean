import LastSietch.Lib.Reservation
import LastSietch.Lib.Runs
import LastSietch.Reports.Store

/-!
# Publishing an edition

`ReportPublisher.publish` of the bot against the internal routes of the portal. A run asks for an
edition, claims it, sends it when the claim was acquired, and otherwise reconciles it with the history
of the channel. Every answer can be lost: the portal serves a request and mails the answer (`serve`),
and the run reads its mail (`read`) or gives up (`fail`), in any order with the calls of anyone else
(`call`). Discord posts a message for a send at any time, or never (`post`).
-/

namespace LastSietch.Reports

open Runs (exec exec_invariant')

variable {β : Type}

/-! ## Runs of the publisher -/

/-- How far `internal_prepare` is with a request; the window is of its first clock reading. -/
inductive Preparation
  | asked
  | nothingPending (window : Window)
  | collecting

/-- What a request is answered with: an error, a row with `acquired`, or `ok` alone. -/
inductive Reply (β : Type)
  | failed
  | row (row : Row β) (acquired : Bool)
  | ok

inductive PublishResult
  | alreadySent | sent | reconciled | uncertain | raised
  deriving DecidableEq

/-- Where `publish` waits. `sending` is at the send with the index `k`; `fromSend` says whether the
acknowledgement follows a send or a reconciliation. -/
inductive Stage (β : Type)
  | preparing (period : Period) (progress : Preparation)
  | claiming (edition : Report β)
  | sending (row : Row β) (k : Nat)
  | acknowledging (row : Row β) (messageId : String) (fromSend : Bool)
  | reconciling (row : Row β)
  | doubtful (row : Row β)
  | ended (result : PublishResult)

structure Run (β : Type) where
  channelId : String
  stage : Stage β
  mail : Option (Reply β)

/-- A call of `channel.send`, and the message that Discord has made of it. -/
structure Send (β : Type) where
  run : Nat
  channelId : String
  edition : Report β
  nonce : String
  messageId : Option String

structure Sys (β : Type) where
  editions : Editions
  runs : List (Run β)
  outbox : List (Send β)

inductive Call (β : Type)
  | prepare (report : Report β) (now : Int)
  | claim (id channelId : String) (now : Int) (token nonce : String)
  | acknowledge (id token channelId messageId : String)
  | uncertain (id token : String)

inductive Act (β : Type)
  | call (c : Call β)
  | start (period : Period) (channelId : String)
  | serve (r : Nat) (now : Int) (report : Report β) (token nonce : String)
  | read (r : Nat)
  | fail (r : Nat)
  | post (k : Nat) (messageId : String)
  | delivered (r : Nat)
  | history (r : Nat) (matching : List String)

/-- What the portal and the bot are set up with: the channel of `LASTSIETCH_REPORT_DISCORD_CHANNEL_ID`,
and what `validate` and `build_report_embed` ask of the body of an edition. -/
structure Setup (β : Type) extends Formats β where
  reportChannel : String
  embeds : Report β → Bool

section Step

variable (setup : Setup β)

def Call.run (editions : Editions) : Call β → Editions
  | prepare report now => (Reports.prepare setup.toFormats report now editions).2
  | claim id channelId now token nonce =>
    match Reports.claim setup.toFormats id channelId now token nonce editions with
    | .ok (_, editions) => editions
    | .error _ => editions
  | acknowledge id token channelId messageId =>
    match Reports.acknowledge id token channelId messageId editions with
    | .ok editions => editions
    | .error _ => editions
  | uncertain id token =>
    match Reports.uncertain id token editions with
    | .ok (_, editions) => editions
    | .error _ => editions

/-- A row that is read for `prepare`. -/
def replyRow : Except ReportError (Row β) → Reply β
  | .ok row => .row row false
  | .error _ => .failed

/-- The answer of `internal_claim`, and the store after it. -/
def internalClaim (id channelId : String) (now : Int) (token nonce : String) (editions : Editions) :
    Reply β × Editions :=
  if isSnowflake setup.reportChannel = true ∧ channelId = setup.reportChannel then
    match Reports.claim setup.toFormats id channelId now token nonce editions with
    | .ok ((row, acquired), editions) => (.row row acquired, editions)
    | .error _ => (.failed, editions)
  else
    (.failed, editions)

def serveRun (now : Int) (report : Report β) (token nonce : String) (editions : Editions)
    (run : Run β) : Option (Run β × Editions) :=
  match run.mail, run.stage with
  | none, .preparing period .asked =>
    match pending? period editions with
    | some e => some ({ run with mail := some (replyRow (e.row setup.toFormats)) }, editions)
    | none =>
      some ({ run with stage := .preparing period (.nothingPending (setup.reportWindow period now)) },
        editions)
  | none, .preparing period (.nothingPending window) =>
    match editions.get? window.id with
    | some e => some ({ run with mail := some (replyRow (e.row setup.toFormats)) }, editions)
    | none => some ({ run with stage := .preparing period .collecting }, editions)
  | none, .preparing _ .collecting =>
    let (row, editions) := Reports.prepare setup.toFormats report now editions
    some ({ run with mail := some (match row with
      | .ok (some row) => .row row false
      | .ok none | .error _ => .failed) }, editions)
  | none, .claiming edition =>
    let (reply, editions) := internalClaim setup edition.id run.channelId now token nonce editions
    some ({ run with mail := some reply }, editions)
  | none, .acknowledging row messageId _ =>
    match Reports.acknowledge row.edition.id (row.attemptToken.getD "") (row.channelId.getD "")
        messageId editions with
    | .ok editions => some ({ run with mail := some .ok }, editions)
    | .error _ => some ({ run with mail := some .failed }, editions)
  | none, .doubtful row =>
    match Reports.uncertain row.edition.id (row.attemptToken.getD "") editions with
    | .ok (_, editions) => some ({ run with mail := some .ok }, editions)
    | .error _ => some ({ run with mail := some .failed }, editions)
  | _, _ => none

def Stage.failed : Stage β → Option (Stage β)
  | .preparing _ _ | .claiming _ | .reconciling _ => some (.ended .raised)
  | .sending row _ => some (.doubtful row)
  | .acknowledging row _ fromSend => some (if fromSend then .doubtful row else .ended .raised)
  | .doubtful _ => some (.ended .uncertain)
  | .ended _ => none

def validate (edition : Report β) : Bool :=
  edition.schema = 1 && isEditionId edition.id &&
    (edition.period.text ++ "-").toList.isPrefixOf edition.id.toList && setup.embeds edition

/-- What `publish` asks of the answer to its claim. -/
def claimVerified (channelId : String) (edition : Report β) [DecidableEq β] (row : Row β) : Bool :=
  row.channelId = some channelId && row.edition = edition &&
    row.attemptToken.any (· ≠ "") && row.nonce.any (fun n => 1 ≤ n.length && n.length ≤ 25)

/-- A run reads its mail: its new stage, and the send when there is one. -/
def readMail [DecidableEq β] (k : Nat) (run : Run β) : Option (Stage β × Option (Report β × String)) :=
  match run.mail, run.stage with
  | none, _ => none
  | some (.row row _), .preparing _ _ =>
    if validate setup row.edition then some (.claiming row.edition, none)
    else some (.ended .raised, none)
  | some (.row row acquired), .claiming edition =>
    if claimVerified run.channelId edition row = false then some (.ended .raised, none)
    else if row.deliveryState = .sent then some (.ended .alreadySent, none)
    else if acquired = false then some (.reconciling row, none)
    else some (.sending row k, some (edition, row.nonce.getD ""))
  | some .ok, .acknowledging _ _ fromSend =>
    some (.ended (if fromSend then .sent else .reconciled), none)
  | some _, .doubtful _ => some (.ended .uncertain, none)
  | some _, stage => stage.failed.map fun stage => (stage, none)

def Sys.setRun (s : Sys β) (r : Nat) (run : Run β) : Sys β := { s with runs := s.runs.set r run }

def step [DecidableEq β] (s : Sys β) : Act β → Option (Sys β)
  | .call c => some { s with editions := c.run setup s.editions }
  | .start period channelId =>
    some { s with runs := s.runs ++ [⟨channelId, .preparing period .asked, none⟩] }
  | .serve r now report token nonce => do
    let run ← s.runs[r]?
    let (run, editions) ← serveRun setup now report token nonce s.editions run
    pure { s.setRun r run with editions }
  | .read r => do
    let run ← s.runs[r]?
    let (stage, sent) ← readMail setup s.outbox.length run
    pure { s.setRun r { run with stage, mail := none } with
      outbox := s.outbox ++ (sent.map fun (edition, nonce) =>
        (⟨r, run.channelId, edition, nonce, none⟩ : Send β)).toList }
  | .fail r => do
    let run ← s.runs[r]?
    let stage ← run.stage.failed
    pure (s.setRun r { run with stage, mail := none })
  | .post k messageId => do
    let send ← s.outbox[k]?
    if send.messageId = none then
      pure { s with outbox := s.outbox.set k { send with messageId := some messageId } }
    else none
  | .delivered r => do
    let run ← s.runs[r]?
    match run.stage with
    | .sending row k =>
      let send ← s.outbox[k]?
      let messageId ← send.messageId
      pure (s.setRun r { run with stage := .acknowledging row messageId true })
    | _ => none
  | .history r matching => do
    let run ← s.runs[r]?
    match run.stage with
    | .reconciling row =>
      match matching with
      | [messageId] => pure (s.setRun r { run with stage := .acknowledging row messageId false })
      | _ => pure (s.setRun r { run with stage := .ended .uncertain })
    | _ => none

end Step

/-! ## The invariant -/

def Run.granted (run : Run β) (id : String) : Prop :=
  ∃ edition row, run.stage = .claiming edition ∧ run.mail = some (.row row true) ∧ edition.id = id

def Stage.early : Stage β → Bool
  | .preparing _ _ | .claiming _ => true
  | _ => false

def Sys.holds (s : Sys β) (r : Nat) (id : String) : Prop :=
  (∃ run, s.runs[r]? = some run ∧ run.granted id) ∨
    ∃ send ∈ s.outbox, send.run = r ∧ send.edition.id = id

structure Inv (s : Sys β) : Prop where
  one : OneUnresolved s.editions
  exclusive : Exclusive (Unclaimed s.editions) s.holds
  senders : (s.outbox.map (·.run)).Nodup
  late : ∀ send ∈ s.outbox, ∃ run, s.runs[send.run]? = some run ∧ run.stage.early = false

variable {setup : Setup β} {s s' : Sys β} {r : Nat} {run run' : Run β}

theorem Call.run_spec (c : Call β) (editions : Editions) :
    Advances editions (c.run setup editions) ∧
      (OneUnresolved editions → OneUnresolved (c.run setup editions)) := by
  cases c with
  | prepare report now =>
    exact ⟨prepare_advances report now editions, prepare_oneUnresolved report now⟩
  | claim id channelId now token nonce =>
    unfold Call.run
    dsimp only
    split
    · rename_i answer editions' hclaim
      obtain ⟨hadvances, -, -, hone⟩ := claim_spec hclaim
      exact ⟨hadvances, hone⟩
    · exact ⟨.refl editions, fun h => h⟩
  | acknowledge id token channelId messageId =>
    unfold Call.run
    dsimp only
    split
    · rename_i editions' hack
      exact acknowledge_spec hack
    · exact ⟨.refl editions, fun h => h⟩
  | uncertain id token =>
    unfold Call.run
    dsimp only
    split
    · rename_i state editions' huncertain
      exact uncertain_spec huncertain
    · exact ⟨.refl editions, fun h => h⟩

theorem Inv.advance (h : Inv s) {editions : Editions} (hadvances : Advances s.editions editions)
    (hone : OneUnresolved editions) : Inv { s with editions } where
  one := hone
  exclusive := h.exclusive.settle (fun _ hopen => Or.inl (hadvances.unclaimed hopen)) (fun _ _ h => h)
  senders := h.senders
  late := h.late

theorem Inv.move (h : Inv s) (hr : s.runs[r]? = some run)
    (hgranted : ∀ id, run'.granted id → run.granted id)
    (hearly : run'.stage.early = true → run.stage.early = true) : Inv (s.setRun r run') where
  one := h.one
  exclusive := by
    refine h.exclusive.settle (fun _ hopen => Or.inl hopen) fun i id hholds => ?_
    rcases hholds with ⟨q, hq, hgrant⟩ | hsent
    · by_cases hi : r = i
      · subst hi
        obtain ⟨hlt, -⟩ := List.getElem?_eq_some_iff.mp hr
        have hq : some run' = some q := (List.getElem?_set_self hlt).symm.trans hq
        cases hq
        exact Or.inl ⟨run, hr, hgranted id hgrant⟩
      · exact Or.inl ⟨q, (List.getElem?_set_ne hi).symm.trans hq, hgrant⟩
    · exact Or.inr hsent
  senders := h.senders
  late send hsend := by
    obtain ⟨q, hq, hlate⟩ := h.late send hsend
    by_cases hi : r = send.run
    · subst hi
      obtain ⟨hlt, -⟩ := List.getElem?_eq_some_iff.mp hq
      cases hr.symm.trans hq
      refine ⟨run', List.getElem?_set_self hlt, ?_⟩
      by_contra hne
      rw [hearly (Bool.not_eq_false _ ▸ hne)] at hlate
      cases hlate
    · exact ⟨q, (List.getElem?_set_ne hi).trans hq, hlate⟩

theorem Inv.acquire (h : Inv s) (hr : s.runs[r]? = some run) {edition : Report β} {row : Row β}
    (hstage : run.stage = .claiming edition) {editions : Editions}
    (hadvances : Advances s.editions editions) (hone : OneUnresolved editions)
    (hopen : Unclaimed s.editions edition.id) (hclosed : ¬Unclaimed editions edition.id) :
    Inv { s.setRun r { run with mail := some (.row row true) } with editions } where
  one := hone
  exclusive := by
    have hfree : ∀ i, ¬s.holds i edition.id := fun i => h.exclusive.free i edition.id hopen
    refine h.exclusive.acquire hfree
      (fun id hid => ⟨hadvances.unclaimed hid, fun hsame => hclosed (hsame ▸ hid)⟩)
      (fun i id hholds => (?_ : s.holds i id ∨ i = r ∧ id = edition.id))
    rcases hholds with ⟨q, hq, hgrant⟩ | hsent
    · by_cases hi : r = i
      · subst hi
        obtain ⟨hlt, -⟩ := List.getElem?_eq_some_iff.mp hr
        have hq : some _ = some q := (List.getElem?_set_self hlt).symm.trans hq
        cases hq
        obtain ⟨edition', row', hstage', -, hid⟩ := hgrant
        cases hstage.symm.trans hstage'
        exact Or.inr ⟨rfl, hid.symm⟩
      · exact Or.inl (Or.inl ⟨q, (List.getElem?_set_ne hi).symm.trans hq, hgrant⟩)
    · exact Or.inl (Or.inr hsent)
  senders := h.senders
  late := by
    intro send hsend
    obtain ⟨q, hq, hlate⟩ := h.late send hsend
    by_cases hi : r = send.run
    · subst hi
      cases hr.symm.trans hq
      rw [hstage] at hlate
      cases hlate
    · exact ⟨q, (List.getElem?_set_ne hi).trans hq, hlate⟩

theorem Inv.send (h : Inv s) (hr : s.runs[r]? = some run) {edition : Report β} {row row' : Row β}
    (hstage : run.stage = .claiming edition) (hmail : run.mail = some (.row row true)) {k : Nat}
    (nonce : String) :
    Inv { s.setRun r { run with stage := .sending row' k, mail := none } with
      outbox := s.outbox ++ [⟨r, run.channelId, edition, nonce, none⟩] } where
  one := h.one
  exclusive := by
    refine h.exclusive.settle (fun _ hopen => Or.inl hopen) fun i id hholds => ?_
    rcases hholds with ⟨q, hq, hgrant⟩ | ⟨send, hsend, hrun, hid⟩
    · by_cases hi : r = i
      · subst hi
        obtain ⟨hlt, -⟩ := List.getElem?_eq_some_iff.mp hr
        have hq : some _ = some q := (List.getElem?_set_self hlt).symm.trans hq
        cases hq
        obtain ⟨_, _, hclaiming, -, -⟩ := hgrant
        cases hclaiming
      · exact Or.inl ⟨q, (List.getElem?_set_ne hi).symm.trans hq, hgrant⟩
    · rcases List.mem_append.mp hsend with hsend | hsend
      · exact Or.inr ⟨send, hsend, hrun, hid⟩
      · -- the send takes over the claim from the mail
        cases List.mem_singleton.mp hsend
        cases hrun
        exact Or.inl ⟨run, hr, edition, row, hstage, hmail, hid⟩
  senders := by
    rw [List.map_append, List.nodup_append]
    refine ⟨h.senders, List.nodup_singleton _, fun i hi j hj => ?_⟩
    rintro rfl
    cases List.mem_singleton.mp hj
    obtain ⟨send, hsend, hrun⟩ := List.mem_map.mp hi
    obtain ⟨q, hq, hlate⟩ := h.late send hsend
    rw [hrun] at hq
    cases hr.symm.trans hq
    rw [hstage] at hlate
    cases hlate
  late := by
    obtain ⟨hlt, -⟩ := List.getElem?_eq_some_iff.mp hr
    intro send hsend
    rcases List.mem_append.mp hsend with hsend | hsend
    · obtain ⟨q, hq, hlate⟩ := h.late send hsend
      by_cases hi : r = send.run
      · subst hi
        exact ⟨_, List.getElem?_set_self hlt, rfl⟩
      · exact ⟨q, (List.getElem?_set_ne hi).trans hq, hlate⟩
    · cases List.mem_singleton.mp hsend
      exact ⟨_, List.getElem?_set_self hlt, rfl⟩

/-! ## Steps -/

theorem not_granted (hmail : run.mail ≠ none → ∀ row, run.mail ≠ some (.row row true)) (id : String) :
    ¬run.granted id := by
  rintro ⟨edition, row, -, hrow, -⟩
  exact hmail (by rw [hrow]; simp) row hrow

theorem replyRow_ne {result : Except ReportError (Row β)} (row : Row β) :
    replyRow result ≠ .row row true := by
  cases result <;> simp [replyRow]

theorem internalClaim_cases (setup : Setup β) (id channelId : String) (now : Int)
    (token nonce : String) (editions : Editions) :
    internalClaim setup id channelId now token nonce editions = (.failed, editions) ∨
      ∃ row acquired editions',
        internalClaim setup id channelId now token nonce editions = (.row row acquired, editions') ∧
        claim setup.toFormats id channelId now token nonce editions =
          .ok ((row, acquired), editions') := by
  unfold internalClaim
  split_ifs
  · cases hclaim : claim setup.toFormats id channelId now token nonce editions with
    | error e => exact Or.inl rfl
    | ok answer => exact Or.inr ⟨_, _, _, rfl, rfl⟩
  · exact Or.inl rfl

/-- What the portal does with a request: it advances the store, and grants a claim or nothing. -/
theorem serveRun_cases {now : Int} {report : Report β} {token nonce : String}
    {editions editions' : Editions}
    (h : serveRun setup now report token nonce editions run = some (run', editions')) :
    Advances editions editions' ∧ (OneUnresolved editions → OneUnresolved editions') ∧
      (((∀ id, ¬run'.granted id) ∧ run'.stage.early = run.stage.early) ∨
        ∃ edition row, run.stage = .claiming edition ∧
          run' = { run with mail := some (.row row true) } ∧ Unclaimed editions edition.id ∧
          ¬Unclaimed editions' edition.id) := by
  have hsame := Advances.refl editions
  unfold serveRun at h
  split at h
  case h_1 period hmail hstage =>
    split at h
    · cases h
      exact ⟨hsame, fun h => h, Or.inl ⟨not_granted fun _ row hrow =>
        replyRow_ne row (Option.some.inj hrow), rfl⟩⟩
    · cases h
      exact ⟨hsame, fun h => h, Or.inl ⟨not_granted fun hne => absurd hmail hne, by rw [hstage]; rfl⟩⟩
  case h_2 period window hmail hstage =>
    split at h
    · cases h
      exact ⟨hsame, fun h => h, Or.inl ⟨not_granted fun _ row hrow =>
        replyRow_ne row (Option.some.inj hrow), rfl⟩⟩
    · cases h
      exact ⟨hsame, fun h => h, Or.inl ⟨not_granted fun hne => absurd hmail hne, by rw [hstage]; rfl⟩⟩
  case h_3 period hmail hstage =>
    cases h
    refine ⟨prepare_advances report now editions, prepare_oneUnresolved report now,
      Or.inl ⟨not_granted fun _ row hrow => ?_, rfl⟩⟩
    have hrow := Option.some.inj hrow
    split at hrow <;> simp at hrow
  case h_4 edition hmail hstage =>
    rcases internalClaim_cases setup edition.id run.channelId now token nonce editions with
      hfailed | ⟨row, acquired, editions'', hanswer, hclaim⟩
    · rw [hfailed] at h
      cases h
      exact ⟨hsame, fun h => h, Or.inl ⟨not_granted fun _ row hrow => by simp at hrow, rfl⟩⟩
    · rw [hanswer] at h
      cases h
      obtain ⟨hadvances, hclosed, hopen, hone⟩ := claim_spec hclaim
      refine ⟨hadvances, hone, ?_⟩
      cases acquired with
      | true => exact Or.inr ⟨edition, row, hstage, rfl, hopen rfl, hclosed⟩
      | false => exact Or.inl ⟨not_granted fun _ row' hrow => by simp at hrow, rfl⟩
  case h_5 row messageId fromSend hmail hstage =>
    split at h
    · rename_i editions'' hack
      cases h
      obtain ⟨hadvances, hone⟩ := acknowledge_spec hack
      exact ⟨hadvances, hone, Or.inl ⟨not_granted fun _ row hrow => by simp at hrow, rfl⟩⟩
    · cases h
      exact ⟨hsame, fun h => h, Or.inl ⟨not_granted fun _ row hrow => by simp at hrow, rfl⟩⟩
  case h_6 row hmail hstage =>
    split at h
    · rename_i state editions'' huncertain
      cases h
      obtain ⟨hadvances, hone⟩ := uncertain_spec huncertain
      exact ⟨hadvances, hone, Or.inl ⟨not_granted fun _ row hrow => by simp at hrow, rfl⟩⟩
    · cases h
      exact ⟨hsame, fun h => h, Or.inl ⟨not_granted fun _ row hrow => by simp at hrow, rfl⟩⟩
  case h_7 => cases h

theorem Stage.failed_early {stage stage' : Stage β} (h : stage.failed = some stage') :
    stage'.early = false := by
  cases stage with
  | preparing | claiming | reconciling | sending | doubtful =>
    cases h
    rfl
  | acknowledging row messageId fromSend =>
    cases h
    cases fromSend <;> rfl
  | ended => cases h

theorem readMail_cases [DecidableEq β] {k : Nat} {stage : Stage β}
    {sent : Option (Report β × String)} (h : readMail setup k run = some (stage, sent)) :
    (sent = none ∧ (stage.early = true → run.stage.early = true)) ∨
      ∃ edition row nonce, run.stage = .claiming edition ∧ run.mail = some (.row row true) ∧
        stage = .sending row k ∧ sent = some (edition, nonce) := by
  unfold readMail at h
  split at h
  case h_1 => cases h
  case h_2 row acquired period progress hmail hstage =>
    split at h
    · cases h
      exact Or.inl ⟨rfl, fun _ => by rw [hstage]; rfl⟩
    · cases h
      exact Or.inl ⟨rfl, fun hearly => by cases hearly⟩
  case h_3 row acquired edition hmail hstage =>
    split_ifs at h with hverified hsent hacquired
    · cases h
      exact Or.inl ⟨rfl, fun hearly => by cases hearly⟩
    · cases h
      exact Or.inl ⟨rfl, fun hearly => by cases hearly⟩
    · cases h
      exact Or.inl ⟨rfl, fun hearly => by cases hearly⟩
    · cases h
      rw [Bool.not_eq_false] at hacquired
      exact Or.inr ⟨edition, row, _, hstage, hacquired ▸ hmail, rfl, rfl⟩
  case h_4 row messageId fromSend hmail hstage =>
    cases h
    exact Or.inl ⟨rfl, fun hearly => by cases hearly⟩
  case h_5 reply row hmail hstage =>
    cases h
    exact Or.inl ⟨rfl, fun hearly => by cases hearly⟩
  case h_6 reply hmail _ _ _ _ =>
    obtain ⟨stage', hstage', hsame⟩ := Option.map_eq_some_iff.mp h
    cases hsame
    exact Or.inl ⟨rfl, fun hearly => by rw [Stage.failed_early hstage'] at hearly; cases hearly⟩

theorem not_granted_of_mail {stage : Stage β} (id : String) :
    ¬({ run with stage, mail := none } : Run β).granted id :=
  not_granted (fun hne => absurd rfl hne) id

theorem not_granted_of_stage (hstage : run.stage.early = false) (id : String) : ¬run.granted id := by
  rintro ⟨edition, row, hclaiming, -⟩
  rw [hclaiming] at hstage
  cases hstage

theorem Inv.begin (h : Inv s) (channelId : String) (period : Period) :
    Inv { s with runs := s.runs ++ [⟨channelId, .preparing period .asked, none⟩] } where
  one := h.one
  exclusive := by
    refine h.exclusive.settle (fun _ hopen => Or.inl hopen) fun i id hholds => ?_
    rcases hholds with ⟨q, hq, hgrant⟩ | hsent
    · by_cases hi : i < s.runs.length
      · exact Or.inl ⟨q, (List.getElem?_append_left hi).symm.trans hq, hgrant⟩
      · have hnew := List.mem_of_getElem? ((List.getElem?_append_right (Nat.not_lt.mp hi)).symm.trans hq)
        cases List.mem_singleton.mp hnew
        exact absurd hgrant (not_granted (fun hne => absurd rfl hne) id)
    · exact Or.inr hsent
  senders := h.senders
  late send hsend := by
    obtain ⟨q, hq, hlate⟩ := h.late send hsend
    obtain ⟨hlt, -⟩ := List.getElem?_eq_some_iff.mp hq
    exact ⟨q, (List.getElem?_append_left hlt).trans hq, hlate⟩

theorem Inv.posted (h : Inv s) {k : Nat} {send : Send β} (hsend : s.outbox[k]? = some send)
    (messageId : String) :
    Inv { s with outbox := s.outbox.set k { send with messageId := some messageId } } := by
  have hmem : send ∈ s.outbox := List.mem_of_getElem? hsend
  have hsame : ∀ o ∈ s.outbox.set k { send with messageId := some messageId },
      ∃ o' ∈ s.outbox, o'.run = o.run ∧ o'.edition = o.edition := by
    intro o ho
    rcases List.mem_or_eq_of_mem_set ho with ho | rfl
    · exact ⟨o, ho, rfl, rfl⟩
    · exact ⟨send, hmem, rfl, rfl⟩
  refine ⟨h.one, ?_, ?_, fun o ho => ?_⟩
  · refine h.exclusive.settle (fun _ hopen => Or.inl hopen) fun i id hholds => ?_
    rcases hholds with hgrant | ⟨o, ho, hrun, hid⟩
    · exact Or.inl hgrant
    · obtain ⟨o', ho', hrun', hedition⟩ := hsame o ho
      exact Or.inr ⟨o', ho', hrun'.trans hrun, (congrArg _ hedition).trans hid⟩
  · have hruns : (s.outbox.set k { send with messageId := some messageId }).map (·.run) =
        s.outbox.map (·.run) := by
      obtain ⟨hlt, -⟩ := List.getElem?_eq_some_iff.mp hsend
      refine List.ext_getElem? fun j => ?_
      by_cases hj : k = j
      · subst hj
        rw [List.getElem?_map, List.getElem?_map, List.getElem?_set_self hlt, hsend]
        rfl
      · rw [List.getElem?_map, List.getElem?_map, List.getElem?_set_ne hj]
    rw [hruns]
    exact h.senders
  · obtain ⟨o', ho', hrun, -⟩ := hsame o ho
    exact hrun ▸ h.late o' ho'

theorem Inv.step [DecidableEq β] {a : Act β} (h : Inv s) (hstep : step setup s a = some s') :
    Inv s' := by
  cases a with
  | call c =>
    cases hstep
    obtain ⟨hadvances, hone⟩ := @Call.run_spec _ setup c s.editions
    exact h.advance hadvances (hone h.one)
  | start period channelId =>
    cases hstep
    exact h.begin channelId period
  | serve r now report token nonce =>
    obtain ⟨run, hr, hstep⟩ := Option.bind_eq_some_iff.mp hstep
    obtain ⟨⟨run', editions⟩, hserve, hstep⟩ := Option.bind_eq_some_iff.mp hstep
    cases hstep
    obtain ⟨hadvances, hone, ⟨hquiet, hearly⟩ | ⟨edition, row, hstage, rfl, hopen, hclosed⟩⟩ :=
      serveRun_cases hserve
    · have hmoved := h.move hr (fun id hgrant => absurd hgrant (hquiet id))
        (fun he => hearly ▸ he)
      exact hmoved.advance hadvances (hone h.one)
    · exact h.acquire hr hstage hadvances (hone h.one) hopen hclosed
  | read r =>
    obtain ⟨run, hr, hstep⟩ := Option.bind_eq_some_iff.mp hstep
    obtain ⟨⟨stage, sent⟩, hread, hstep⟩ := Option.bind_eq_some_iff.mp hstep
    cases hstep
    rcases readMail_cases hread with ⟨rfl, hearly⟩ | ⟨edition, row, nonce, hstage, hmail, rfl, rfl⟩
    · have hmoved : Inv (s.setRun r { run with stage, mail := none }) :=
        h.move hr (fun id hgrant => absurd hgrant (not_granted_of_mail id)) hearly
      simp only [Option.map_none, Option.toList_none, List.append_nil]
      exact hmoved
    · exact h.send hr hstage hmail nonce
  | fail r =>
    obtain ⟨run, hr, hstep⟩ := Option.bind_eq_some_iff.mp hstep
    obtain ⟨stage, hfail, hstep⟩ := Option.bind_eq_some_iff.mp hstep
    cases hstep
    refine h.move hr (fun id hgrant => absurd hgrant (not_granted_of_mail id)) fun hearly => ?_
    rw [Stage.failed_early hfail] at hearly
    cases hearly
  | post k messageId =>
    obtain ⟨send, hsend, hstep⟩ := Option.bind_eq_some_iff.mp hstep
    split_ifs at hstep with hposted
    cases hstep
    exact h.posted hsend messageId
  | delivered r =>
    obtain ⟨run, hr, hstep⟩ := Option.bind_eq_some_iff.mp hstep
    split at hstep
    · rename_i row k hstage
      obtain ⟨send, -, hstep⟩ := Option.bind_eq_some_iff.mp hstep
      obtain ⟨messageId, -, hstep⟩ := Option.bind_eq_some_iff.mp hstep
      cases hstep
      exact h.move hr (fun id hgrant => absurd hgrant (not_granted_of_stage rfl id))
        (fun hearly => by cases hearly)
    · cases hstep
  | history r matching =>
    obtain ⟨run, hr, hstep⟩ := Option.bind_eq_some_iff.mp hstep
    split at hstep
    · split at hstep
      · cases hstep
        exact h.move hr (fun id hgrant => absurd hgrant (not_granted_of_stage rfl id))
          (fun hearly => by cases hearly)
      · cases hstep
        exact h.move hr (fun id hgrant => absurd hgrant (not_granted_of_stage rfl id))
          (fun hearly => by cases hearly)
    · cases hstep

/-! ## Whole runs -/

structure Sys.Start (s : Sys β) : Prop where
  runs : s.runs = []
  outbox : s.outbox = []
  one : OneUnresolved s.editions

theorem Sys.Start.inv (h : s.Start) : Inv s where
  one := h.one
  exclusive := by
    have hnone : ∀ i id, ¬s.holds i id := by
      rintro i id (⟨run, hrun, -⟩ | ⟨send, hsend, -⟩)
      · simp [h.runs] at hrun
      · simp [h.outbox] at hsend
    exact ⟨fun i id _ => hnone i id, fun i j id hi => absurd hi (hnone i id)⟩
  senders := by simp [h.outbox]
  late := by simp [h.outbox]

theorem Inv.sent_once (h : Inv s) : (s.outbox.map (·.edition.id)).Nodup := by
  rw [List.Nodup, List.pairwise_map]
  have hsenders := h.senders
  rw [List.Nodup, List.pairwise_map] at hsenders
  refine hsenders.imp_of_mem fun {a b} ha hb hne hsame => hne ?_
  exact h.exclusive.unique a.run b.run b.edition.id (Or.inr ⟨a, ha, rfl, hsame⟩)
    (Or.inr ⟨b, hb, rfl, rfl⟩)

theorem step_advances [DecidableEq β] {a : Act β} (hstep : step setup s a = some s') :
    Advances s.editions s'.editions := by
  cases a with
  | call c =>
    cases hstep
    exact (c.run_spec s.editions).1
  | serve r now report token nonce =>
    obtain ⟨run, hr, hstep⟩ := Option.bind_eq_some_iff.mp hstep
    obtain ⟨⟨run', editions⟩, hserve, hstep⟩ := Option.bind_eq_some_iff.mp hstep
    cases hstep
    exact (serveRun_cases hserve).1
  | start period channelId =>
    cases hstep
    exact .refl _
  | read r | fail r =>
    obtain ⟨run, hr, hstep⟩ := Option.bind_eq_some_iff.mp hstep
    obtain ⟨_, -, hstep⟩ := Option.bind_eq_some_iff.mp hstep
    cases hstep
    exact .refl _
  | post k messageId =>
    obtain ⟨send, -, hstep⟩ := Option.bind_eq_some_iff.mp hstep
    split_ifs at hstep
    cases hstep
    exact .refl _
  | delivered r =>
    obtain ⟨run, -, hstep⟩ := Option.bind_eq_some_iff.mp hstep
    split at hstep
    · obtain ⟨send, -, hstep⟩ := Option.bind_eq_some_iff.mp hstep
      obtain ⟨messageId, -, hstep⟩ := Option.bind_eq_some_iff.mp hstep
      cases hstep
      exact .refl _
    · cases hstep
  | history r matching =>
    obtain ⟨run, -, hstep⟩ := Option.bind_eq_some_iff.mp hstep
    split at hstep
    · split at hstep <;> cases hstep <;> exact .refl _
    · cases hstep

/-- Every edition is sent at most once in all runs together, a period never has two unresolved
editions, and no edition goes back: its payload and digest stay, its message once it has one, and
`sent`. -/
theorem posted_once [DecidableEq β] (setup : Setup β) {m : Sys β} (hstart : s.Start)
    {acts acts' : List (Act β)} (hrun : exec (step setup) s acts = some m)
    (hrest : exec (step setup) m acts' = some s') :
    (s'.outbox.map (·.edition.id)).Nodup ∧ OneUnresolved s'.editions ∧
      ∀ e ∈ m.editions, ∃ e' ∈ s'.editions, e'.id = e.id ∧
        (e.publishedAt ≠ none → e'.payload = e.payload ∧ e'.digest = e.digest) ∧
        (∀ messageId, e.messageId = some messageId → e'.messageId = some messageId) ∧
        (e.deliveryState = .sent → e'.deliveryState = .sent) := by
  have hm : Inv m := exec_invariant' (fun _ _ _ h hstep => h.step hstep) hstart.inv hrun
  have hs' : Inv s' := exec_invariant' (fun _ _ _ h hstep => h.step hstep) hm hrest
  have hadvances : Advances m.editions s'.editions :=
    exec_invariant' (I := fun s => Advances m.editions s.editions)
      (fun _ _ _ h hstep => h.trans (step_advances hstep)) (.refl _) hrest
  refine ⟨hs'.sent_once, hs'.one, fun e he => ?_⟩
  obtain ⟨e', he', hlater⟩ := hadvances e he
  exact ⟨e', he', hlater.id, fun _ => ⟨hlater.payload, hlater.digest⟩, hlater.message, hlater.sent⟩

def firstDay : Report Unit := ⟨1, "daily-2026-05-01", .daily, "2026-05-01", 100, 200, ()⟩

def portal : Setup Unit where
  reportWindow period _ := ⟨firstDay.id, period, firstDay.date, 100, 200⟩
  dumps report := report.id
  loads payload := if payload = firstDay.id then some firstDay else none
  sha256 payload := payload
  reportChannel := "123456"
  embeds _ := true

def idle : Sys Unit := ⟨.empty, [], []⟩

def claims (r : Nat) (prepared : List (Act Unit)) : List (Act Unit) :=
  [.start .daily "123456", .serve r 201 firstDay "" ""] ++ prepared ++
    [.read r, .serve r 202 firstDay "token" "nonce"]

/-- The send of the first run is late: it gives up and its report of that is lost. A second run
claims the edition, finds the message in the channel and acknowledges it. -/
def lateSend : List (Act Unit) :=
  claims 0 [.serve 0 201 firstDay "" "", .serve 0 201 firstDay "" ""] ++
    [.read 0, .fail 0, .serve 0 203 firstDay "" "", .fail 0, .post 0 "777777"] ++
    claims 1 [] ++ [.read 1, .history 1 ["777777"], .serve 1 204 firstDay "" "", .read 1]

theorem posted_once_lateSend :
    ∃ s', exec (step portal) idle lateSend = some s' ∧
      (s'.outbox.map (·.edition.id) = [firstDay.id] ∧
        s'.editions.rows.map (fun e => (e.deliveryState, e.messageId)) = [(.sent, some "777777")]) ∧
      (s'.outbox.map (·.edition.id)).Nodup ∧ OneUnresolved s'.editions := by
  have hruns : (exec (step portal) idle lateSend).any (fun s' =>
      s'.outbox.map (·.edition.id) = [firstDay.id] ∧
        s'.editions.rows.map (fun e => (e.deliveryState, e.messageId)) =
          [(.sent, some "777777")]) = true := by
    decide
  obtain ⟨s', hs', hlast⟩ := (Option.any_eq_true _ _).mp hruns
  have hstart : idle.Start := ⟨rfl, rfl, by rintro e ⟨⟩⟩
  obtain ⟨honce, hone, -⟩ := posted_once portal hstart hs' (Runs.exec_nil.mpr rfl)
  exact ⟨s', hs', of_decide_eq_true hlast, honce, hone⟩

end LastSietch.Reports
