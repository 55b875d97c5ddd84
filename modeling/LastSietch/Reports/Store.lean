import LastSietch.Lib.Index
import LastSietch.Lib.Sql

/-!
# The report store

`ReportStore` of `portal_reports`: a report edition is prepared as a draft, claimed by a publisher,
and then acknowledged or marked uncertain. Each operation is one transaction. What the time zone
database, `json` and `hashlib` do is the parameter `Formats`; the tokens that `secrets` draws are
arguments.
-/

namespace LastSietch.Reports

inductive Period
  | daily | weekly
  deriving DecidableEq, Repr

def Period.text : Period → String
  | daily => "daily"
  | weekly => "weekly"

inductive DeliveryState
  | draft | pending | sent | uncertain
  deriving DecidableEq, Repr

/-- What `report_window` returns. -/
structure Window where
  id : String
  period : Period
  date : String
  start : Int
  finish : Int
  deriving DecidableEq, Repr

/-- A report with the keys of `PUBLIC_KEYS`; `body` is what the store does not look at. -/
structure Report (β : Type) where
  schema : Nat
  id : String
  period : Period
  date : String
  windowStart : Int
  windowEnd : Int
  body : β
  deriving DecidableEq, Repr

structure Formats (β : Type) where
  reportWindow : Period → Int → Window
  dumps : Report β → String
  loads : String → Option (Report β)
  sha256 : String → String

inductive ReportError
  | invalidReportPayload | invalidReportWindow | reportPayloadTooLarge
  | reportIntegrityError | reportSchemaUnrecognized
  | invalidReportChannel | reportNotPrepared | previousReportDeliveryUnresolved | reportChannelChanged
  | invalidReportMessage | reportDeliveryIdentityMismatch | reportDeliveryMessageChanged
  deriving DecidableEq, Repr

/-- A row of `report_editions`. -/
structure Edition where
  id : String
  period : Period
  windowStart : Int
  windowEnd : Int
  payload : String
  digest : String
  createdAt : Int
  publishedAt : Option Int
  deliveryState : DeliveryState
  attemptToken : Option String
  nonce : Option String
  channelId : Option String
  messageId : Option String
  attemptAt : Option Int
  deriving DecidableEq, Repr

/-- The rows, by their id and with `UNIQUE(period, window_end)`. -/
abbrev Editions := Indexed Edition (fun e => e.id) (fun e => [(e.period, e.windowEnd)])

/-- What `_row` gives. -/
structure Row (β : Type) where
  edition : Report β
  digest : String
  publishedAt : Option Int
  deliveryState : DeliveryState
  attemptToken : Option String
  nonce : Option String
  channelId : Option String
  messageId : Option String
  attemptAt : Option Int

/-- `EDITION_ID`. -/
def isEditionId (id : String) : Bool :=
  [Period.daily, Period.weekly].any fun p =>
    let head := (p.text ++ "-").toList
    let date := id.toList.drop head.length
    id.toList.take head.length = head && date.length = 10 &&
      (date.zipIdx.all fun (c, i) => if i = 4 ∨ i = 7 then c = '-' else c.isDigit)

/-- `[0-9]{5,24}`. -/
def isSnowflake (s : String) : Bool := 5 ≤ s.length && s.length ≤ 24 && s.toList.all (·.isDigit)

def Edition.unresolved (e : Edition) : Bool :=
  e.deliveryState = .pending || e.deliveryState = .uncertain

/-! ## Operations -/

section Operations

variable {β : Type} (formats : Formats β)

def Edition.row (e : Edition) : Except ReportError (Row β) := do
  require (formats.sha256 e.payload = e.digest) .reportIntegrityError
  let edition ← orRaise (formats.loads e.payload) .reportSchemaUnrecognized
  require (edition.schema = 1) .reportSchemaUnrecognized
  pure ⟨edition, e.digest, e.publishedAt, e.deliveryState, e.attemptToken, e.nonce, e.channelId,
    e.messageId, e.attemptAt⟩

/-- The row that a report is stored as, when `prepare` lets it pass. -/
def draftOf (report : Report β) (now : Int) : Except ReportError Edition := do
  require (isEditionId report.id = true ∧ report.id = report.period.text ++ "-" ++ report.date)
    .invalidReportPayload
  let expected := formats.reportWindow report.period report.windowEnd
  require (report.schema = 1 ∧ expected.id = report.id ∧ expected.start = report.windowStart ∧
    expected.finish = report.windowEnd) .invalidReportWindow
  let payload := formats.dumps report
  require (payload.utf8ByteSize ≤ 65536) .reportPayloadTooLarge
  pure { id := report.id, period := report.period, windowStart := report.windowStart,
         windowEnd := report.windowEnd, payload, digest := formats.sha256 payload, createdAt := now,
         publishedAt := none, deliveryState := .draft, attemptToken := none, nonce := none,
         channelId := none, messageId := none, attemptAt := none }

/-- `INSERT OR IGNORE`. -/
def insertOrIgnore (e : Edition) (editions : Editions) : Editions := (editions.insert? e).getD editions

/-- `prepare`. The row is read after the commit. -/
def prepare (report : Report β) (now : Int) (editions : Editions) :
    Except ReportError (Option (Row β)) × Editions :=
  match draftOf formats report now with
  | .error e => (.error e, editions)
  | .ok draft =>
    let editions := insertOrIgnore draft editions
    ((match editions.get? report.id with
      | none => .ok none
      | some e => (e.row formats).map some), editions)

/-- The row that `pending` reads. -/
def pending? (period : Period) (editions : Editions) : Option Edition :=
  pick (fun a b => a.windowEnd < b.windowEnd)
    (editions.rows.filter fun e => e.period = period && e.unresolved)

def setEdition (id : String) (f : Edition → Edition) (editions : Editions)
    (hid : ∀ e, (f e).id = e.id := by intro _; rfl)
    (hix : ∀ e, [((f e).period, (f e).windowEnd)] = [(e.period, e.windowEnd)] := by intro _; rfl) :
    Editions :=
  editions.update (fun e => e.id = id) f hid hix

/-- `claim`: the row, and whether this claim has acquired it. A check that fails rolls back. -/
def claim (id channelId : String) (now : Int) (token nonce : String) (editions : Editions) :
    Except ReportError ((Row β × Bool) × Editions) := do
  require (isSnowflake channelId = true) .invalidReportChannel
  let e ← orRaise (editions.get? id) .reportNotPrepared
  if e.deliveryState = .draft then
    require (∀ o ∈ editions, o.period = e.period → o.unresolved = true → o.id = id)
      .previousReportDeliveryUnresolved
    let claimed : Edition → Edition := fun e =>
      { e with publishedAt := some now, deliveryState := .pending, attemptToken := some token,
               nonce := some nonce, channelId := some channelId, attemptAt := some now }
    let row ← (claimed e).row formats
    pure ((row, true), setEdition id claimed editions)
  else
    require (e.channelId = some channelId) .reportChannelChanged
    let row ← e.row formats
    pure ((row, false), editions)

/-- What `acknowledge` and `uncertain` ask of the token: `compare_digest(row['attempt_token'] or '')`
and that the row is no draft. -/
def Edition.attempted (e : Edition) (token : String) : Prop :=
  e.attemptToken.getD "" = token ∧ e.deliveryState ≠ .draft

instance (e : Edition) (token : String) : Decidable (e.attempted token) :=
  inferInstanceAs (Decidable (_ ∧ _))

def acknowledge (id token channelId messageId : String) (editions : Editions) :
    Except ReportError Editions := do
  require (isSnowflake messageId = true) .invalidReportMessage
  let e ← orRaise (editions.get? id) .reportDeliveryIdentityMismatch
  require (e.attempted token ∧ e.channelId = some channelId) .reportDeliveryIdentityMismatch
  require (∀ m ∈ e.messageId, m = messageId) .reportDeliveryMessageChanged
  pure (setEdition id (fun e => { e with deliveryState := .sent, messageId := some messageId }) editions)

def uncertain (id token : String) (editions : Editions) :
    Except ReportError (DeliveryState × Editions) := do
  let e ← orRaise (editions.get? id) .reportDeliveryIdentityMismatch
  require (e.attempted token) .reportDeliveryIdentityMismatch
  pure (if e.deliveryState = .sent then .sent else .uncertain,
    setEdition id (fun e => if e.attemptToken = some token ∧ e.deliveryState = .pending
      then { e with deliveryState := .uncertain } else e) editions
      (by intro e; split <;> rfl) (by intro e; split <;> rfl))

end Operations

structure Edition.Later (e e' : Edition) : Prop where
  id : e'.id = e.id
  period : e'.period = e.period
  payload : e'.payload = e.payload
  digest : e'.digest = e.digest
  published : e.publishedAt ≠ none → e'.publishedAt ≠ none
  message : ∀ m, e.messageId = some m → e'.messageId = some m
  claimed : e.deliveryState ≠ .draft → e'.deliveryState ≠ .draft
  sent : e.deliveryState = .sent → e'.deliveryState = .sent
  resolved : e.deliveryState ≠ .draft → e'.unresolved = true → e.unresolved = true

theorem Edition.Later.refl (e : Edition) : e.Later e :=
  ⟨rfl, rfl, rfl, rfl, fun h => h, fun _ h => h, fun h => h, fun h => h, fun _ h => h⟩

theorem Edition.Later.trans {e e' e'' : Edition} (h : e.Later e') (h' : e'.Later e'') :
    e.Later e'' where
  id := h'.id.trans h.id
  period := h'.period.trans h.period
  payload := h'.payload.trans h.payload
  digest := h'.digest.trans h.digest
  published hp := h'.published (h.published hp)
  message m hm := h'.message m (h.message m hm)
  claimed hc := h'.claimed (h.claimed hc)
  sent hs := h'.sent (h.sent hs)
  resolved hc hu := h.resolved hc (h'.resolved (h.claimed hc) hu)

def Advances (editions editions' : Editions) : Prop :=
  ∀ e ∈ editions, ∃ e' ∈ editions', e.Later e'

theorem Advances.refl (editions : Editions) : Advances editions editions :=
  fun e he => ⟨e, he, .refl e⟩

theorem Advances.trans {editions editions' editions'' : Editions} (h : Advances editions editions')
    (h' : Advances editions' editions'') : Advances editions editions'' := by
  intro e he
  obtain ⟨e', he', hlater⟩ := h e he
  obtain ⟨e'', he'', hlater'⟩ := h' e' he'
  exact ⟨e'', he'', hlater.trans hlater'⟩

def OneUnresolved (editions : Editions) : Prop :=
  ∀ e ∈ editions, ∀ e' ∈ editions, e.unresolved = true → e'.unresolved = true →
    e.period = e'.period → e = e'

def Unclaimed (editions : Editions) (id : String) : Prop :=
  ∀ e ∈ editions, e.id = id → e.deliveryState = .draft

theorem Advances.unclaimed {editions editions' : Editions} (h : Advances editions editions')
    {id : String} (hid : Unclaimed editions' id) : Unclaimed editions id := by
  intro e he heq
  obtain ⟨e', he', hlater⟩ := h e he
  by_contra hclaimed
  exact hlater.claimed hclaimed (hid e' he' (hlater.id.trans heq))

/-! ## One lemma for each operation -/

section Specs

variable {β : Type} {formats : Formats β} {editions editions' : Editions} {id : String}

variable {f : Edition → Edition}

theorem mem_setEdition {hid : ∀ e, (f e).id = e.id}
    {hix : ∀ e, [((f e).period, (f e).windowEnd)] = [(e.period, e.windowEnd)]} {e' : Edition} :
    e' ∈ setEdition id f editions hid hix ↔ ∃ e ∈ editions, e' = if e.id = id then f e else e := by
  unfold setEdition
  rw [Indexed.mem_update]
  simp only [decide_eq_true_eq]

theorem setEdition_advances {hid : ∀ e, (f e).id = e.id}
    {hix : ∀ e, [((f e).period, (f e).windowEnd)] = [(e.period, e.windowEnd)]} {e : Edition}
    (he : editions.get? id = some e) (hlater : e.Later (f e)) :
    Advances editions (setEdition id f editions hid hix) := by
  intro r hr
  refine ⟨_, mem_setEdition.mpr ⟨r, hr, rfl⟩, ?_⟩
  split
  · rename_i hrid
    obtain ⟨hmem, hkey⟩ := Indexed.get?_eq_some.mp he
    have hsame : r = e := Indexed.eq_of_key_eq hr hmem (hrid.trans hkey.symm)
    exact hsame ▸ hlater
  · exact .refl r

theorem OneUnresolved.keep (hone : OneUnresolved editions)
    (horigin : ∀ e' ∈ editions', e'.unresolved = true →
      ∃ e ∈ editions, e.unresolved = true ∧ e.Later e') : OneUnresolved editions' := by
  intro e₁' h₁' e₂' h₂' hu₁ hu₂ hperiod
  obtain ⟨e₁, h₁, hu₁, hlater₁⟩ := horigin e₁' h₁' hu₁
  obtain ⟨e₂, h₂, hu₂, hlater₂⟩ := horigin e₂' h₂' hu₂
  have hsame : e₁ = e₂ :=
    hone e₁ h₁ e₂ h₂ hu₁ hu₂ (hlater₁.period.symm.trans (hperiod.trans hlater₂.period))
  refine Indexed.eq_of_key_eq h₁' h₂' ?_
  rw [hlater₁.id, hsame, hlater₂.id]

theorem setEdition_oneUnresolved {hid : ∀ e, (f e).id = e.id}
    {hix : ∀ e, [((f e).period, (f e).windowEnd)] = [(e.period, e.windowEnd)]} {e : Edition}
    (he : editions.get? id = some e) (hlater : e.Later (f e)) (hclaimed : e.deliveryState ≠ .draft)
    (hone : OneUnresolved editions) : OneUnresolved (setEdition id f editions hid hix) := by
  refine hone.keep fun r' hr' hu => ?_
  obtain ⟨r, hr, rfl⟩ := mem_setEdition.mp hr'
  refine ⟨r, hr, ?_⟩
  split_ifs at hu ⊢ with hrid
  · obtain ⟨hmem, hkey⟩ := Indexed.get?_eq_some.mp he
    have hsame : r = e := Indexed.eq_of_key_eq hr hmem (hrid.trans hkey.symm)
    rw [hsame] at hu ⊢
    exact ⟨hlater.resolved hclaimed hu, hlater⟩
  · exact ⟨hu, .refl r⟩

theorem insertOrIgnore_advances (draft : Edition) (editions : Editions) :
    Advances editions (insertOrIgnore draft editions) := by
  unfold insertOrIgnore
  cases hins : editions.insert? draft with
  | none => exact .refl editions
  | some editions' => exact fun e he => ⟨e, ((Indexed.insert?_spec hins).1 e).mpr (Or.inr he), .refl e⟩

theorem draftOf_draft {report : Report β} {now : Int} {draft : Edition}
    (h : draftOf formats report now = .ok draft) : draft.deliveryState = .draft := by
  obtain ⟨_, -, h⟩ := bind_eq_ok.mp h
  obtain ⟨_, -, h⟩ := bind_eq_ok.mp h
  obtain ⟨_, -, h⟩ := bind_eq_ok.mp h
  cases pure_eq_ok.mp h
  rfl

theorem prepare_advances (report : Report β) (now : Int) (editions : Editions) :
    Advances editions (prepare formats report now editions).2 := by
  unfold prepare
  split
  · exact .refl editions
  · rename_i draft hdraft
    exact insertOrIgnore_advances draft editions

theorem prepare_oneUnresolved (report : Report β) (now : Int) (hone : OneUnresolved editions) :
    OneUnresolved (prepare formats report now editions).2 := by
  refine hone.keep fun e' he' hu => ?_
  unfold prepare at he'
  split at he'
  · exact ⟨e', he', hu, .refl e'⟩
  · rename_i draft hdraft
    dsimp only at he'
    unfold insertOrIgnore at he'
    cases hins : editions.insert? draft with
    | none =>
      rw [hins] at he'
      exact ⟨e', he', hu, .refl e'⟩
    | some editions' =>
      rw [hins] at he'
      rcases ((Indexed.insert?_spec hins).1 e').mp he' with rfl | he'
      · rw [Edition.unresolved, draftOf_draft hdraft] at hu
        cases hu
      · exact ⟨e', he', hu, .refl e'⟩

theorem setEdition_claimed {hid : ∀ e, (f e).id = e.id}
    {hix : ∀ e, [((f e).period, (f e).windowEnd)] = [(e.period, e.windowEnd)]} {e : Edition}
    (he : e ∈ editions) (heid : e.id = id) (hperiod : ∀ e, (f e).period = e.period)
    (hresolved : ∀ o ∈ editions, o.period = e.period → o.unresolved = true → o.id = id)
    (hone : OneUnresolved editions) : OneUnresolved (setEdition id f editions hid hix) := by
  have hrow : ∀ r' ∈ setEdition id f editions hid hix,
      (r'.id = id ∧ r'.period = e.period) ∨ (r' ∈ editions ∧ r'.id ≠ id) := by
    intro r' hr'
    obtain ⟨r, hr, rfl⟩ := mem_setEdition.mp hr'
    split_ifs with hrid
    · have hsame : r = e := Indexed.eq_of_key_eq hr he (hrid.trans heid.symm)
      exact Or.inl ⟨(hid r).trans hrid, (hperiod r).trans (congrArg _ hsame)⟩
    · exact Or.inr ⟨hr, hrid⟩
  intro r₁ h₁ r₂ h₂ hu₁ hu₂ hsame
  rcases hrow r₁ h₁ with ⟨hid₁, hp₁⟩ | ⟨hmem₁, hne₁⟩ <;>
    rcases hrow r₂ h₂ with ⟨hid₂, hp₂⟩ | ⟨hmem₂, hne₂⟩
  · exact Indexed.eq_of_key_eq h₁ h₂ (hid₁.trans hid₂.symm)
  · exact absurd (hresolved r₂ hmem₂ (hsame.symm.trans hp₁) hu₂) hne₂
  · exact absurd (hresolved r₁ hmem₁ (hsame.trans hp₂) hu₁) hne₁
  · exact hone r₁ hmem₁ r₂ hmem₂ hu₁ hu₂ hsame

theorem claim_spec {channelId : String} {now : Int} {token nonce : String} {row : Row β}
    {acquired : Bool}
    (h : claim formats id channelId now token nonce editions = .ok ((row, acquired), editions')) :
    Advances editions editions' ∧ ¬Unclaimed editions' id ∧
      (acquired = true → Unclaimed editions id) ∧ (OneUnresolved editions → OneUnresolved editions') := by
  obtain ⟨_, -, h⟩ := bind_eq_ok.mp h
  obtain ⟨e, he, h⟩ := bind_eq_ok.mp h
  have he := orRaise_eq_ok.mp he
  obtain ⟨hmem, hid⟩ := Indexed.get?_eq_some.mp he
  split at h
  · rename_i hdraft
    obtain ⟨_, hresolved, h⟩ := bind_eq_ok.mp h
    have hresolved := require_eq_ok.mp hresolved
    obtain ⟨_, -, h⟩ := bind_eq_ok.mp h
    cases pure_eq_ok.mp h
    refine ⟨setEdition_advances he ?_, fun hopen => ?_, fun _ r hr hrid => ?_, ?_⟩
    · exact ⟨rfl, rfl, rfl, rfl, fun _ => by simp, fun _ hm => hm, fun hne => absurd hdraft hne,
        fun hsent => by simp [hdraft] at hsent, fun hne => absurd hdraft hne⟩
    · have hnew := hopen _ (mem_setEdition.mpr ⟨e, hmem, (if_pos hid).symm⟩) hid
      cases hnew
    · rw [Indexed.eq_of_key_eq hr hmem (hrid.trans hid.symm)]
      exact hdraft
    · exact setEdition_claimed hmem hid (fun _ => rfl) hresolved
  · rename_i hclaimed
    obtain ⟨_, -, h⟩ := bind_eq_ok.mp h
    obtain ⟨_, -, h⟩ := bind_eq_ok.mp h
    cases pure_eq_ok.mp h
    exact ⟨.refl editions, fun hopen => hclaimed (hopen e hmem hid), by simp, fun hone => hone⟩

theorem acknowledge_spec {token channelId messageId : String}
    (h : acknowledge id token channelId messageId editions = .ok editions') :
    Advances editions editions' ∧ (OneUnresolved editions → OneUnresolved editions') := by
  obtain ⟨_, -, h⟩ := bind_eq_ok.mp h
  obtain ⟨e, he, h⟩ := bind_eq_ok.mp h
  obtain ⟨_, hidentity, h⟩ := bind_eq_ok.mp h
  obtain ⟨_, hmessage, h⟩ := bind_eq_ok.mp h
  cases pure_eq_ok.mp h
  have he := orRaise_eq_ok.mp he
  have hclaimed := (require_eq_ok.mp hidentity).1.2
  have hmessage := require_eq_ok.mp hmessage
  have hlater : e.Later { e with deliveryState := .sent, messageId := some messageId } :=
    ⟨rfl, rfl, rfl, rfl, fun hp => hp, fun m hm => congrArg some (hmessage m hm).symm,
      fun _ => by simp, fun _ => rfl, fun _ hu => by simp [Edition.unresolved] at hu⟩
  exact ⟨setEdition_advances he hlater, setEdition_oneUnresolved he hlater hclaimed⟩

theorem uncertain_spec {token : String} {state : DeliveryState}
    (h : uncertain id token editions = .ok (state, editions')) :
    Advances editions editions' ∧ (OneUnresolved editions → OneUnresolved editions') := by
  obtain ⟨e, he, h⟩ := bind_eq_ok.mp h
  obtain ⟨_, hidentity, h⟩ := bind_eq_ok.mp h
  cases pure_eq_ok.mp h
  have he := orRaise_eq_ok.mp he
  have hclaimed := (require_eq_ok.mp hidentity).2
  have hlater : e.Later (if e.attemptToken = some token ∧ e.deliveryState = .pending
      then { e with deliveryState := .uncertain } else e) := by
    split
    · rename_i hpending
      exact ⟨rfl, rfl, rfl, rfl, fun hp => hp, fun _ hm => hm, fun _ => by simp,
        fun hsent => by simp [hpending.2] at hsent,
        fun _ _ => by simp [Edition.unresolved, hpending.2]⟩
    · exact .refl e
  exact ⟨setEdition_advances he hlater, setEdition_oneUnresolved he hlater hclaimed⟩

end Specs
end LastSietch.Reports
