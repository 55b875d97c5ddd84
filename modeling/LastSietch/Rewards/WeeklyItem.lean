import LastSietch.Lib.Runs
import LastSietch.Lib.Table

/-!
# The weekly item

`do_weekly_item` of `dune-reward-op.sh` takes three transactions: the row of the claim is reserved
`pending`, the mint is left to `dune-grant.sh` under the same key, and the row is stamped `applied`,
or `failed` where the grant script did not say that it has granted. Sessions of the script run at
the same time, each may die anywhere, and a mint may be served long after its session has given up.

* `lostReply_failed`: the reply of a mint is lost, and its row says that it failed.
-/

namespace LastSietch.WeeklyItem

open Runs

/-- The arguments of `do_weekly_item`. -/
structure Request where
  accountId : Nat
  idem : Nat
  templateId : String
  quality : Nat
  operator : String
  deriving DecidableEq

inductive Status
  | pending | applied | failed
  deriving DecidableEq

inductive GrantStatus
  | applied | replay
  deriving DecidableEq

inductive MintFailure
  | bankFull | bankUnopened
  | other (tail : String)
  deriving DecidableEq

/-- The `detail` of a row: what was asked for, and what the stamp or the failure adds. -/
structure Detail where
  templateId : String
  quality : Nat
  grant : Option (GrantStatus × Option Nat)
  failReason : Option MintFailure
  deriving DecidableEq

/-- A row of `ls_reward_claims` of the kind `weekly_item`. -/
structure ClaimRow where
  id : Nat
  idempotencyKey : Nat
  accountId : Nat
  detail : Detail
  operator : String
  status : Status
  createdAt : Int
  deriving DecidableEq

abbrev Claims := SerialTable ClaimRow ClaimRow.id ClaimRow.idempotencyKey

/-- What `dune-grant.sh` is asked for. -/
structure GrantPayload where
  accountId : Nat
  idem : Nat
  templateId : String
  quality : Nat
  operator : String
  deriving DecidableEq

def Request.payload (q : Request) : GrantPayload :=
  ⟨q.accountId, q.idem, q.templateId, q.quality, q.operator⟩

inductive GrantReply
  | granted (status : GrantStatus) (grantId : Option Nat)
  | failed (reason : MintFailure)
  deriving DecidableEq

/-- The grant script over its database `γ`, and the number of items that it has minted under a
key. -/
structure Mint (γ : Type) where
  run : γ → GrantPayload → γ × GrantReply
  items : γ → Nat → Nat

structure Mint.Idempotent {γ : Type} (mint : Mint γ) : Prop where
  frame : ∀ g p key, key ≠ p.idem → mint.items (mint.run g p).1 key = mint.items g key
  replay : ∀ g p, mint.items g p.idem ≠ 0 →
    mint.items (mint.run g p).1 p.idem = mint.items g p.idem
  fresh : ∀ g p, mint.items g p.idem = 0 → mint.items (mint.run g p).1 p.idem ≤ 1
  told : ∀ g p status grantId, (mint.run g p).2 = .granted status grantId →
    mint.items (mint.run g p).1 p.idem ≠ 0

inductive Answer
  | success (status : GrantStatus)
  | failed (reason : Option MintFailure)
  deriving DecidableEq

inductive Phase
  | gate
  | minting (opId : Nat)
  | stamping (opId : Nat) (status : GrantStatus) (grantId : Option Nat)
  | marking (opId : Nat) (reason : MintFailure)
  | done (answer : Answer)
  | dead
  deriving DecidableEq

structure Session where
  id : Nat
  request : Request
  phase : Phase
  deriving DecidableEq

structure Sent where
  session : Nat
  payload : GrantPayload
  deriving DecidableEq

structure Reply where
  session : Nat
  reply : GrantReply
  deriving DecidableEq

structure Sys (γ : Type) where
  claims : Claims
  game : γ
  sessions : Table Session Session.id
  sent : List Sent
  replies : List Reply

variable {γ : Type}

/-! ## Steps -/

/-- What becomes of a statement: it commits and its session goes on, it commits and its session is
told of a failure, or it fails. -/
inductive Fate
  | whole | unheard | broken
  deriving DecidableEq

def rewardItemMaxPerWeek : Nat := 1

/-- `date_trunc('week', now)`: the last Monday's midnight, in seconds; the epoch is a Thursday. -/
def weekStart (now : Int) : Int := now - (now + 3 * 86400) % 604800

def appliedThisWeek (claims : Claims) (accountId : Nat) (now : Int) : Nat :=
  claims.rows.countP fun r => r.accountId = accountId ∧ r.status = .applied ∧
    weekStart now ≤ r.createdAt

def gate (claims : Claims) (q : Request) (now : Int) : Option (Claims × Nat × Status) :=
  match claims.get? q.idem with
  | some row => some (claims, row.id, row.status)
  | none =>
    if rewardItemMaxPerWeek ≤ appliedThisWeek claims q.accountId now then none
    else
      (claims.insert? fun id =>
        ⟨id, q.idem, q.accountId, ⟨q.templateId, q.quality, none, none⟩, q.operator, .pending, now⟩).map
          fun claims' => (claims', claims.next, .pending)

/-- `UPDATE ... SET status = 'applied'`. -/
def ClaimRow.stamp (status : GrantStatus) (grantId : Option Nat) (r : ClaimRow) : ClaimRow :=
  { r with status := .applied, detail := { r.detail with grant := some (status, grantId) } }

/-- `UPDATE ... SET status = 'failed'`. -/
def ClaimRow.markFailed (reason : MintFailure) (r : ClaimRow) : ClaimRow :=
  { r with status := .failed, detail := { r.detail with failReason := some reason } }

def stampRow (claims : Claims) (opId : Nat) (status : GrantStatus) (grantId : Option Nat) : Claims :=
  claims.update (fun r => r.id = opId) (ClaimRow.stamp status grantId)

def markRow (claims : Claims) (opId : Nat) (reason : MintFailure) : Claims :=
  claims.update (fun r => r.id = opId) (ClaimRow.markFailed reason)

inductive Act
  | start (id : Nat) (q : Request)
  | gate (id : Nat) (now : Int) (fate : Fate)
  | serve (id : Nat)
  | lose (id : Nat)
  | read (id : Nat)
  | misread (id : Nat) (tail : String)
  | stamp (id : Nat) (fate : Fate)
  | mark (id : Nat) (fate : Fate)
  | crash (id : Nat)

def Sys.setPhase (s : Sys γ) (id : Nat) (phase : Phase) : Sys γ :=
  { s with sessions := s.sessions.update (fun ses => ses.id = id) (fun ses => { ses with phase }) }

def Sys.afterGate (s : Sys γ) (ses : Session) (opId : Nat) (status : Status) : Sys γ :=
  if status = .applied then s.setPhase ses.id (.done (.success .replay))
  else { s.setPhase ses.id (.minting opId) with
    sent := ⟨ses.id, ses.request.payload⟩ :: s.sent }

def MintFailure.answer (reason : MintFailure) : Answer := .failed (some reason)

def step (mint : Mint γ) (s : Sys γ) : Act → Option (Sys γ)
  | .start id q => (s.sessions.insert? ⟨id, q, .gate⟩).map fun sessions => { s with sessions }
  | .gate id now fate =>
    match s.sessions.get? id with
    | some ses =>
      if ses.phase ≠ .gate then none
      else
        match fate, gate s.claims ses.request now with
        | .broken, _ | _, none => some (s.setPhase id (.done (.failed none)))
        | .unheard, some (claims, _, _) => some ({ s with claims }.setPhase id (.done (.failed none)))
        | .whole, some (claims, opId, status) => some ({ s with claims }.afterGate ses opId status)
    | none => none
  | .serve id =>
    match s.sent.find? (fun q => q.session = id) with
    | some q => some { s with
        game := (mint.run s.game q.payload).1
        sent := s.sent.filter (fun q => q.session ≠ id)
        replies := ⟨id, (mint.run s.game q.payload).2⟩ :: s.replies }
    | none => none
  | .lose id => some { s with sent := s.sent.filter (fun q => q.session ≠ id) }
  | .read id =>
    match s.sessions.get? id, s.replies.find? (fun r => r.session = id) with
    | some ⟨_, _, .minting opId⟩, some ⟨_, .granted status grantId⟩ =>
      some (s.setPhase id (.stamping opId status grantId))
    | some ⟨_, _, .minting opId⟩, some ⟨_, .failed reason⟩ => some (s.setPhase id (.marking opId reason))
    | _, _ => none
  | .misread id tail =>
    match s.sessions.get? id with
    | some ⟨_, _, .minting opId⟩ => some (s.setPhase id (.marking opId (.other tail)))
    | _ => none
  | .stamp id fate =>
    match s.sessions.get? id with
    | some ⟨_, _, .stamping opId status grantId⟩ =>
      match fate with
      | .whole => some ({ s with claims := stampRow s.claims opId status grantId }.setPhase id
          (.done (.success .applied)))
      | .unheard => some ({ s with claims := stampRow s.claims opId status grantId }.setPhase id
          (.done (.failed none)))
      | .broken => some (s.setPhase id (.done (.failed none)))
    | _ => none
  | .mark id fate =>
    match s.sessions.get? id with
    | some ⟨_, _, .marking opId reason⟩ =>
      if fate = .broken then some (s.setPhase id (.done reason.answer))
      else some ({ s with claims := markRow s.claims opId reason }.setPhase id (.done reason.answer))
    | _ => none
  | .crash id => some (s.setPhase id .dead)

/-! ## The invariant -/

def Phase.opId? : Phase → Option Nat
  | .minting opId | .stamping opId _ _ | .marking opId _ => some opId
  | .gate | .done _ | .dead => none

def Phase.told : Phase → Bool
  | .stamping .. | .done (.success _) => true
  | .gate | .minting _ | .marking .. | .done (.failed _) | .dead => false

def Phase.succeeded : Phase → Bool
  | .done (.success _) => true
  | .gate | .minting _ | .stamping .. | .marking .. | .done (.failed _) | .dead => false

def Sys.Minted (mint : Mint γ) (s : Sys γ) (key : Nat) : Prop := mint.items s.game key ≠ 0

structure Inv (mint : Mint γ) (s : Sys γ) : Prop where
  once : ∀ key, mint.items s.game key ≤ 1
  applied : ∀ r ∈ s.claims, r.status = .applied → s.Minted mint r.idempotencyKey
  row : ∀ ses ∈ s.sessions, ∀ op, ses.phase.opId? = some op →
    ∃ r ∈ s.claims, r.id = op ∧ r.idempotencyKey = ses.request.idem
  told : ∀ ses ∈ s.sessions, ses.phase.told = true → s.Minted mint ses.request.idem
  sent : ∀ q ∈ s.sent, ∃ ses ∈ s.sessions, ses.id = q.session ∧ q.payload = ses.request.payload
  replies : ∀ r ∈ s.replies, ∀ status grantId, r.reply = .granted status grantId →
    ∃ ses ∈ s.sessions, ses.id = r.session ∧ s.Minted mint ses.request.idem

section

variable {mint : Mint γ} {s s' : Sys γ}

theorem mem_setPhase {id : Nat} {phase : Phase} {ses' : Session} :
    ses' ∈ (s.setPhase id phase).sessions ↔
      ∃ ses ∈ s.sessions, ses' = if ses.id = id then { ses with phase } else ses := by
  refine (@Table.mem_update _ _ _ s.sessions (fun ses => ses.id = id) (fun ses => { ses with phase })
    (fun _ => rfl) ses').trans ?_
  simp only [decide_eq_true_eq]

theorem exists_setPhase {id : Nat} {phase : Phase} {ses : Session} (hses : ses ∈ s.sessions) :
    ∃ ses' ∈ (s.setPhase id phase).sessions, ses'.id = ses.id ∧ ses'.request = ses.request := by
  refine ⟨_, mem_setPhase.mpr ⟨ses, hses, rfl⟩, ?_⟩
  split
  · exact ⟨rfl, rfl⟩
  · exact ⟨rfl, rfl⟩

namespace Inv

theorem setPhase (h : Inv mint s) {id : Nat} {phase : Phase}
    (hrow : ∀ ses ∈ s.sessions, ses.id = id → ∀ op, phase.opId? = some op →
      ∃ r ∈ s.claims, r.id = op ∧ r.idempotencyKey = ses.request.idem)
    (htold : ∀ ses ∈ s.sessions, ses.id = id → phase.told = true → s.Minted mint ses.request.idem) :
    Inv mint (s.setPhase id phase) where
  once := h.once
  applied := h.applied
  row ses' hses' op hop := by
    obtain ⟨ses, hses, rfl⟩ := mem_setPhase.mp hses'
    by_cases hid : ses.id = id
    · rw [if_pos hid] at hop ⊢
      exact hrow ses hses hid op hop
    · rw [if_neg hid] at hop ⊢
      exact h.row ses hses op hop
  told ses' hses' ht := by
    obtain ⟨ses, hses, rfl⟩ := mem_setPhase.mp hses'
    by_cases hid : ses.id = id
    · rw [if_pos hid] at ht ⊢
      exact htold ses hses hid ht
    · rw [if_neg hid] at ht ⊢
      exact h.told ses hses ht
  sent q hq := by
    obtain ⟨ses, hses, hid, hpayload⟩ := h.sent q hq
    obtain ⟨ses', hses', hid', hrequest⟩ := @exists_setPhase _ s id phase ses hses
    exact ⟨ses', hses', hid'.trans hid, hrequest ▸ hpayload⟩
  replies r hr status grantId hreply := by
    obtain ⟨ses, hses, hid, hminted⟩ := h.replies r hr status grantId hreply
    obtain ⟨ses', hses', hid', hrequest⟩ := @exists_setPhase _ s id phase ses hses
    exact ⟨ses', hses', hid'.trans hid, hrequest ▸ hminted⟩

theorem setPhase_idle (h : Inv mint s) {id : Nat} {phase : Phase} (hop : phase.opId? = none)
    (ht : phase.told = false) : Inv mint (s.setPhase id phase) := by
  refine h.setPhase (fun ses _ _ op hop' => ?_) (fun ses _ _ ht' => ?_)
  · rw [hop] at hop'
    cases hop'
  · rw [ht] at ht'
    cases ht'

theorem withClaims (h : Inv mint s) {claims : Claims}
    (hkeep : ∀ r ∈ s.claims, ∃ r' ∈ claims, r'.id = r.id ∧ r'.idempotencyKey = r.idempotencyKey)
    (happlied : ∀ r ∈ claims, r.status = .applied → s.Minted mint r.idempotencyKey) :
    Inv mint { s with claims } where
  once := h.once
  applied := happlied
  row ses hses op hop := by
    obtain ⟨r, hr, hid, hkey⟩ := h.row ses hses op hop
    obtain ⟨r', hr', hid', hkey'⟩ := hkeep r hr
    exact ⟨r', hr', hid'.trans hid, hkey'.trans hkey⟩
  told := h.told
  sent := h.sent
  replies := h.replies

theorem withSent (h : Inv mint s) {sent : List Sent} (hsub : ∀ q ∈ sent, q ∈ s.sent) :
    Inv mint { s with sent } :=
  ⟨h.once, h.applied, h.row, h.told, fun q hq => h.sent q (hsub q hq), h.replies⟩

end Inv

/-! ### Rows -/

theorem gate_row {claims claims' : Claims} {q : Request} {now : Int} {op : Nat} {status : Status}
    (h : gate claims q now = some (claims', op, status)) :
    (∃ r ∈ claims', r.id = op ∧ r.idempotencyKey = q.idem ∧ r.status = status) ∧
      (∀ r ∈ claims, r ∈ claims') ∧ ∀ r ∈ claims', r ∈ claims ∨ r.status = .pending := by
  unfold gate at h
  split at h
  · rename_i row hget
    cases h
    obtain ⟨hmem, hkey⟩ := Table.get?_eq_some.mp hget
    exact ⟨⟨row, hmem, rfl, hkey, rfl⟩, fun r hr => hr, fun r hr => Or.inl hr⟩
  · split at h
    · cases h
    · obtain ⟨claims₁, hins, h⟩ := Option.map_eq_some_iff.mp h
      cases h
      refine ⟨⟨_, (SerialTable.mem_insert? hins).mpr (Or.inl rfl), rfl, rfl, rfl⟩, fun r hr => ?_,
        fun r hr => ?_⟩
      · exact (SerialTable.mem_insert? hins).mpr (Or.inr hr)
      · rcases (SerialTable.mem_insert? hins).mp hr with rfl | hr
        · exact Or.inr rfl
        · exact Or.inl hr

theorem mem_stampRow {claims : Claims} {op : Nat} {status : GrantStatus} {grantId : Option Nat}
    {r' : ClaimRow} : r' ∈ stampRow claims op status grantId ↔
      ∃ r ∈ claims, r' = if r.id = op then r.stamp status grantId else r := by
  refine (@SerialTable.mem_update _ _ _ _ claims (fun r => r.id = op) (ClaimRow.stamp status grantId)
    (fun _ => rfl) (fun _ => rfl) r').trans ?_
  simp only [decide_eq_true_eq]

theorem mem_markRow {claims : Claims} {op : Nat} {reason : MintFailure} {r' : ClaimRow} :
    r' ∈ markRow claims op reason ↔
      ∃ r ∈ claims, r' = if r.id = op then r.markFailed reason else r := by
  refine (@SerialTable.mem_update _ _ _ _ claims (fun r => r.id = op) (ClaimRow.markFailed reason)
    (fun _ => rfl) (fun _ => rfl) r').trans ?_
  simp only [decide_eq_true_eq]

/-! ### Transactions -/

variable (hmint : mint.Idempotent)

include hmint in
theorem minted_serve (g : γ) (p : GrantPayload) {key : Nat} (h : mint.items g key ≠ 0) :
    mint.items (mint.run g p).1 key ≠ 0 := by
  by_cases hkey : key = p.idem
  · subst hkey
    rw [hmint.replay g p h]
    exact h
  · rw [hmint.frame g p key hkey]
    exact h

namespace Inv

theorem afterGate (h : Inv mint s) {ses : Session} (hses : ses ∈ s.sessions) {now : Int}
    {claims : Claims} {op : Nat} {status : Status}
    (hgate : gate s.claims ses.request now = some (claims, op, status)) :
    Inv mint ({ s with claims }.afterGate ses op status) := by
  obtain ⟨⟨row, hrow, hid, hkey, hstatus⟩, hkeep, hnew⟩ := gate_row hgate
  have happlied : ∀ r ∈ claims, r.status = .applied → s.Minted mint r.idempotencyKey := by
    intro r hr hr'
    rcases hnew r hr with hold | hpending
    · exact h.applied r hold hr'
    · rw [hpending] at hr'
      cases hr'
  have hclaims := h.withClaims (fun r hr => ⟨r, hkeep r hr, rfl, rfl⟩) happlied
  have hsame : ∀ ses' ∈ s.sessions, ses'.id = ses.id → ses' = ses :=
    fun ses' hses' hid' => Table.eq_of_key_eq hses' hses hid'
  unfold Sys.afterGate
  split
  · rename_i hsuccess
    refine hclaims.setPhase (fun _ _ _ op hop => by cases hop) (fun ses' hses' hid' _ => ?_)
    rw [hsame ses' hses' hid', ← hkey]
    exact happlied row hrow (hstatus.trans hsuccess)
  · have hphase : Inv mint ({ s with claims }.setPhase ses.id (.minting op)) := by
      refine hclaims.setPhase (fun ses' hses' hid' op' hop => ?_) (fun _ _ _ ht => by cases ht)
      cases hop
      rw [hsame ses' hses' hid']
      exact ⟨row, hrow, hid, hkey⟩
    refine ⟨hphase.once, hphase.applied, hphase.row, hphase.told, fun q hq => ?_, hphase.replies⟩
    rcases List.mem_cons.mp hq with rfl | hq
    · obtain ⟨ses', hses', hid', hrequest⟩ :=
        @exists_setPhase _ { s with claims } ses.id (.minting op) ses hses
      exact ⟨ses', hses', hid', hrequest ▸ rfl⟩
    · exact hphase.sent q hq

include hmint in
theorem serve (h : Inv mint s) {q : Sent} (hq : q ∈ s.sent) :
    Inv mint { s with
      game := (mint.run s.game q.payload).1
      sent := s.sent.filter (fun p => p.session ≠ q.session)
      replies := ⟨q.session, (mint.run s.game q.payload).2⟩ :: s.replies } where
  once key := by
    by_cases hkey : key = q.payload.idem
    · subst hkey
      by_cases hzero : mint.items s.game q.payload.idem = 0
      · exact hmint.fresh s.game q.payload hzero
      · exact (hmint.replay s.game q.payload hzero).trans_le (h.once _)
    · exact (hmint.frame s.game q.payload key hkey).trans_le (h.once key)
  applied r hr happlied := minted_serve hmint s.game q.payload (h.applied r hr happlied)
  row := h.row
  told ses hses ht := minted_serve hmint s.game q.payload (h.told ses hses ht)
  sent p hp := h.sent p (List.mem_filter.mp hp).1
  replies r hr status grantId hreply := by
    rcases List.mem_cons.mp hr with rfl | hr
    · obtain ⟨ses, hses, hid, hpayload⟩ := h.sent q hq
      refine ⟨ses, hses, hid, ?_⟩
      have htold := hmint.told s.game q.payload status grantId hreply
      rw [hpayload] at htold
      rw [hpayload]
      exact htold
    · obtain ⟨ses, hses, hid, hminted⟩ := h.replies r hr status grantId hreply
      exact ⟨ses, hses, hid, minted_serve hmint s.game q.payload hminted⟩

theorem stampRow (h : Inv mint s) {id op : Nat} {q : Request} {status : GrantStatus}
    {grantId : Option Nat} (hses : ⟨id, q, .stamping op status grantId⟩ ∈ s.sessions) :
    Inv mint { s with claims := stampRow s.claims op status grantId } := by
  refine h.withClaims (fun r hr => ⟨_, mem_stampRow.mpr ⟨r, hr, rfl⟩, ?_⟩) (fun r' hr' happlied => ?_)
  · split
    · exact ⟨rfl, rfl⟩
    · exact ⟨rfl, rfl⟩
  · obtain ⟨r, hr, rfl⟩ := mem_stampRow.mp hr'
    by_cases hid : r.id = op
    · obtain ⟨row, hrow, hrowid, hkey⟩ := h.row _ hses op rfl
      have heq : r = row := SerialTable.eq_of_id_eq hr hrow (hid.trans hrowid.symm)
      rw [if_pos hid]
      show s.Minted mint r.idempotencyKey
      rw [heq, hkey]
      exact h.told _ hses rfl
    · rw [if_neg hid] at happlied ⊢
      exact h.applied r hr happlied

theorem markRow (h : Inv mint s) (op : Nat) (reason : MintFailure) :
    Inv mint { s with claims := markRow s.claims op reason } := by
  refine h.withClaims (fun r hr => ⟨_, mem_markRow.mpr ⟨r, hr, rfl⟩, ?_⟩) (fun r' hr' happlied => ?_)
  · split
    · exact ⟨rfl, rfl⟩
    · exact ⟨rfl, rfl⟩
  · obtain ⟨r, hr, rfl⟩ := mem_markRow.mp hr'
    by_cases hid : r.id = op
    · rw [if_pos hid] at happlied
      cases happlied
    · rw [if_neg hid] at happlied ⊢
      exact h.applied r hr happlied

theorem gate (h : Inv mint s) {id : Nat} {now : Int} {fate : Fate}
    (hstep : WeeklyItem.step mint s (.gate id now fate) = some s') : Inv mint s' := by
  simp only [WeeklyItem.step] at hstep
  split at hstep
  · rename_i ses hget
    obtain ⟨hses, hid⟩ := Table.get?_eq_some.mp hget
    split at hstep
    · cases hstep
    · split at hstep
      · cases hstep
        exact h.setPhase_idle rfl rfl
      · cases hstep
        exact h.setPhase_idle rfl rfl
      · rename_i claims op status hgate
        cases hstep
        obtain ⟨-, hkeep, hnew⟩ := gate_row hgate
        refine (h.withClaims (fun r hr => ⟨r, hkeep r hr, rfl, rfl⟩) ?_).setPhase_idle rfl rfl
        intro r hr happlied
        rcases hnew r hr with hold | hpending
        · exact h.applied r hold happlied
        · rw [hpending] at happlied
          cases happlied
      · rename_i claims op status hgate
        cases hstep
        exact h.afterGate hses hgate
  · cases hstep

theorem read (h : Inv mint s) {id : Nat}
    (hstep : WeeklyItem.step mint s (.read id) = some s') : Inv mint s' := by
  simp only [WeeklyItem.step] at hstep
  split at hstep
  · rename_i sid q op rid status grantId hget hreply
    cases hstep
    obtain ⟨hses, hid⟩ := Table.get?_eq_some.mp hget
    obtain ⟨ses, hses', hid', hminted⟩ := h.replies _ (List.mem_of_find?_eq_some hreply) status
      grantId rfl
    have hrid : rid = id := by simpa using List.find?_some hreply
    refine h.setPhase (fun ses₁ hses₁ hid₁ op' hop => ?_) (fun ses₁ hses₁ hid₁ _ => ?_)
    · cases hop
      rw [Table.eq_of_key_eq hses₁ hses (hid₁.trans hid.symm)]
      exact h.row _ hses op rfl
    · rw [Table.eq_of_key_eq hses₁ hses' (hid₁.trans (hrid.symm.trans hid'.symm))]
      exact hminted
  · rename_i sid q op rid reason hget hreply
    cases hstep
    obtain ⟨hses, hid⟩ := Table.get?_eq_some.mp hget
    refine h.setPhase (fun ses₁ hses₁ hid₁ op' hop => ?_) (fun _ _ _ ht => by cases ht)
    cases hop
    rw [Table.eq_of_key_eq hses₁ hses (hid₁.trans hid.symm)]
    exact h.row _ hses op rfl
  · cases hstep

include hmint in
theorem step (h : Inv mint s) {a : Act} (hstep : WeeklyItem.step mint s a = some s') :
    Inv mint s' := by
  cases a with
  | start id q =>
    obtain ⟨sessions, hins, rfl⟩ := Option.map_eq_some_iff.mp hstep
    have hmem : ∀ ses ∈ s.sessions, ses ∈ sessions :=
      fun ses hses => (Table.mem_insert? hins).mpr (Or.inr hses)
    refine ⟨h.once, h.applied, fun ses hses op hop => ?_, fun ses hses ht => ?_, fun q hq => ?_,
      fun r hr status grantId hreply => ?_⟩
    · rcases (Table.mem_insert? hins).mp hses with rfl | hses
      · cases hop
      · exact h.row ses hses op hop
    · rcases (Table.mem_insert? hins).mp hses with rfl | hses
      · cases ht
      · exact h.told ses hses ht
    · obtain ⟨ses, hses, hrest⟩ := h.sent q hq
      exact ⟨ses, hmem ses hses, hrest⟩
    · obtain ⟨ses, hses, hrest⟩ := h.replies r hr status grantId hreply
      exact ⟨ses, hmem ses hses, hrest⟩
  | gate id now fate => exact h.gate hstep
  | serve id =>
    simp only [WeeklyItem.step] at hstep
    split at hstep
    · rename_i q hq
      have hid : q.session = id := by simpa using List.find?_some hq
      cases hstep
      subst hid
      exact h.serve hmint (List.mem_of_find?_eq_some hq)
    · cases hstep
  | lose id =>
    cases hstep
    exact h.withSent (fun q hq => (List.mem_filter.mp hq).1)
  | read id => exact h.read hstep
  | misread id tail =>
    simp only [WeeklyItem.step] at hstep
    split at hstep
    · rename_i sid q op hget
      cases hstep
      obtain ⟨hses, hid⟩ := Table.get?_eq_some.mp hget
      refine h.setPhase (fun ses₁ hses₁ hid₁ op' hop => ?_) (fun _ _ _ ht => by cases ht)
      cases hop
      rw [Table.eq_of_key_eq hses₁ hses (hid₁.trans hid.symm)]
      exact h.row _ hses op rfl
    · cases hstep
  | stamp id fate =>
    simp only [WeeklyItem.step] at hstep
    split at hstep
    · rename_i sid q op status grantId hget
      obtain ⟨hses, hid⟩ := Table.get?_eq_some.mp hget
      have hstamped := h.stampRow hses
      cases fate with
      | whole =>
        cases hstep
        refine hstamped.setPhase (fun _ _ _ op hop => by cases hop) (fun ses₁ hses₁ hid₁ _ => ?_)
        rw [Table.eq_of_key_eq hses₁ hses (hid₁.trans hid.symm)]
        exact h.told _ hses rfl
      | unheard =>
        cases hstep
        exact hstamped.setPhase_idle rfl rfl
      | broken =>
        cases hstep
        exact h.setPhase_idle rfl rfl
    · cases hstep
  | mark id fate =>
    simp only [WeeklyItem.step] at hstep
    split at hstep
    · rename_i sid q op reason hget
      split at hstep
      · cases hstep
        exact h.setPhase_idle rfl rfl
      · cases hstep
        exact (h.markRow op reason).setPhase_idle rfl rfl
    · cases hstep
  | crash id =>
    cases hstep
    exact h.setPhase_idle rfl rfl

end Inv

/-! ## Rows that are marked failed -/

def Sys.FailedUngranted (mint : Mint γ) (s : Sys γ) : Prop :=
  ∀ r ∈ s.claims, r.status = .failed → mint.items s.game r.idempotencyKey = 0

/-- A mint that is served for a row that is marked failed grants nothing, and a row is marked failed
while nothing has been granted. -/
def InTurn (mint : Mint γ) (s : Sys γ) : Act → Prop
  | .serve id => ∀ q, s.sent.find? (fun q => q.session = id) = some q →
      (∃ r ∈ s.claims, r.idempotencyKey = q.payload.idem ∧ r.status = .failed) →
        mint.items (mint.run s.game q.payload).1 q.payload.idem = 0
  | .mark id fate => fate = .broken ∨ ∀ q op reason,
      s.sessions.get? id = some ⟨id, q, .marking op reason⟩ → mint.items s.game q.idem = 0
  | _ => True

theorem failedUngranted_gate {claims : Claims} {q : Request} {now : Int} {op : Nat}
    {status : Status} (h : s.FailedUngranted mint)
    (hgate : gate s.claims q now = some (claims, op, status)) :
    Sys.FailedUngranted mint { s with claims } := by
  intro r hr hfailed
  obtain ⟨-, -, hnew⟩ := gate_row hgate
  rcases hnew r hr with hold | hpending
  · exact h r hold hfailed
  · rw [hpending] at hfailed
    cases hfailed

theorem failedUngranted_stamp (h : s.FailedUngranted mint) (op : Nat) (status : GrantStatus)
    (grantId : Option Nat) :
    Sys.FailedUngranted mint { s with claims := stampRow s.claims op status grantId } := by
  intro r' hr' hfailed
  obtain ⟨r, hr, rfl⟩ := mem_stampRow.mp hr'
  by_cases hid : r.id = op
  · rw [if_pos hid] at hfailed
    cases hfailed
  · rw [if_neg hid] at hfailed ⊢
    exact h r hr hfailed

include hmint in
theorem failedUngranted_serve (h : s.FailedUngranted mint) (p : GrantPayload) (sent : List Sent)
    (replies : List Reply) :
    Sys.FailedUngranted mint { s with game := (mint.run s.game p).1, sent, replies } ↔
      ((∃ r ∈ s.claims, r.idempotencyKey = p.idem ∧ r.status = .failed) →
        mint.items (mint.run s.game p).1 p.idem = 0) := by
  constructor
  · rintro hafter ⟨r, hr, hkey, hfailed⟩
    rw [← hkey]
    exact hafter r hr hfailed
  · intro hturn r hr hfailed
    by_cases hkey : r.idempotencyKey = p.idem
    · show mint.items (mint.run s.game p).1 r.idempotencyKey = 0
      rw [hkey]
      exact hturn ⟨r, hr, hkey, hfailed⟩
    · exact (hmint.frame s.game p _ hkey).trans (h r hr hfailed)

theorem failedUngranted_mark (hinv : Inv mint s) (h : s.FailedUngranted mint) {id op : Nat}
    {q : Request} {reason : MintFailure} (hses : ⟨id, q, .marking op reason⟩ ∈ s.sessions) :
    Sys.FailedUngranted mint { s with claims := markRow s.claims op reason } ↔
      mint.items s.game q.idem = 0 := by
  obtain ⟨row, hrow, hid, hkey⟩ := hinv.row _ hses op rfl
  have hkey : row.idempotencyKey = q.idem := hkey
  constructor
  · intro hafter
    have hmarked : row.markFailed reason ∈ markRow s.claims op reason :=
      mem_markRow.mpr ⟨row, hrow, (if_pos hid).symm⟩
    have hzero : mint.items s.game (row.markFailed reason).idempotencyKey = 0 :=
      hafter _ hmarked rfl
    rw [← hkey]
    exact hzero
  · intro hzero r' hr' hfailed
    obtain ⟨r, hr, rfl⟩ := mem_markRow.mp hr'
    by_cases hop : r.id = op
    · rw [if_pos hop]
      have heq : r = row := SerialTable.eq_of_id_eq hr hrow (hop.trans hid.symm)
      show mint.items s.game r.idempotencyKey = 0
      rw [heq, hkey]
      exact hzero
    · rw [if_neg hop] at hfailed ⊢
      exact h r hr hfailed

include hmint in
theorem inTurn_iff (hinv : Inv mint s) (h : s.FailedUngranted mint) (a : Act) :
    InTurn mint s a ↔ ∀ s', step mint s a = some s' → s'.FailedUngranted mint := by
  cases a with
  | serve id =>
    simp only [InTurn, step]
    cases hfind : s.sent.find? (fun q => q.session = id) with
    | none => simp
    | some q =>
      simp only [Option.some.injEq, forall_eq']
      exact (failedUngranted_serve hmint h q.payload _ _).symm
  | mark id fate =>
    simp only [InTurn, step]
    by_cases hfate : fate = .broken
    · refine iff_of_true (Or.inl hfate) (fun s' hstep => ?_)
      split at hstep
      · rw [if_pos hfate] at hstep
        cases hstep
        exact h
      · cases hstep
    · rw [or_iff_right hfate]
      constructor
      · intro hturn s' hstep
        split at hstep
        · rename_i sid q op reason hget
          obtain ⟨hses, hid⟩ := Table.get?_eq_some.mp hget
          have hid : sid = id := hid
          subst hid
          rw [if_neg hfate] at hstep
          cases hstep
          exact (failedUngranted_mark hinv h hses).mpr (hturn q op reason hget)
        · cases hstep
      · intro hafter q op reason hget
        rw [hget] at hafter
        simp only [if_neg hfate, Option.some.injEq, forall_eq'] at hafter
        exact (failedUngranted_mark hinv h (Table.get?_eq_some.mp hget).1).mp hafter
  | start id q =>
    refine iff_of_true trivial (fun s' hstep => ?_)
    obtain ⟨sessions, -, rfl⟩ := Option.map_eq_some_iff.mp hstep
    exact h
  | gate id now fate =>
    refine iff_of_true trivial (fun s' hstep => ?_)
    simp only [step] at hstep
    split at hstep
    · split at hstep
      · cases hstep
      · split at hstep
        · cases hstep
          exact h
        · cases hstep
          exact h
        · rename_i claims op status hgate
          cases hstep
          have hnew := failedUngranted_gate h hgate
          exact hnew
        · rename_i claims op status hgate
          cases hstep
          have hnew := failedUngranted_gate h hgate
          unfold Sys.afterGate
          split
          · exact hnew
          · exact hnew
    · cases hstep
  | lose id =>
    refine iff_of_true trivial (fun s' hstep => ?_)
    cases hstep
    exact h
  | read id =>
    refine iff_of_true trivial (fun s' hstep => ?_)
    simp only [step] at hstep
    split at hstep
    · cases hstep
      exact h
    · cases hstep
      exact h
    · cases hstep
  | misread id tail =>
    refine iff_of_true trivial (fun s' hstep => ?_)
    simp only [step] at hstep
    split at hstep
    · cases hstep
      exact h
    · cases hstep
  | stamp id fate =>
    refine iff_of_true trivial (fun s' hstep => ?_)
    simp only [step] at hstep
    split at hstep
    · cases fate with
      | broken =>
        cases hstep
        exact h
      | whole | unheard =>
        cases hstep
        exact failedUngranted_stamp h _ _ _
    · cases hstep
  | crash id =>
    refine iff_of_true trivial (fun s' hstep => ?_)
    cases hstep
    exact h

end

/-! ## Runs -/

/-- No session runs yet: no key has more than one item, an applied row has one, and a failed row has
none. -/
structure Start (mint : Mint γ) (s : Sys γ) : Prop where
  idle : s.sessions.rows = [] ∧ s.sent = [] ∧ s.replies = []
  once : ∀ key, mint.items s.game key ≤ 1
  applied : ∀ r ∈ s.claims, r.status = .applied → mint.items s.game r.idempotencyKey ≠ 0
  failed : s.FailedUngranted mint

theorem Start.inv {mint : Mint γ} {s : Sys γ} (h : Start mint s) : Inv mint s where
  once := h.once
  applied := h.applied
  row ses hses := by
    have hmem : ses ∈ s.sessions.rows := hses
    rw [h.idle.1] at hmem
    cases hmem
  told ses hses := by
    have hmem : ses ∈ s.sessions.rows := hses
    rw [h.idle.1] at hmem
    cases hmem
  sent q hq := by
    rw [h.idle.2.1] at hq
    cases hq
  replies r hr := by
    rw [h.idle.2.2] at hr
    cases hr

structure Granted (mint : Mint γ) (s : Sys γ) : Prop where
  once : ∀ key, mint.items s.game key ≤ 1
  backed : ∀ ses ∈ s.sessions, ses.phase.succeeded = true → mint.items s.game ses.request.idem = 1

theorem Inv.granted {mint : Mint γ} {s : Sys γ} (h : Inv mint s) : Granted mint s where
  once := h.once
  backed ses hses hsuccess := by
    have htold : ses.phase.told = true := by
      revert hsuccess
      cases ses.phase with
      | done a =>
        intro hsuccess
        cases a with
        | success => rfl
        | failed => cases hsuccess
      | gate | minting | stamping | marking | dead =>
        intro hsuccess
        cases hsuccess
    have hminted : mint.items s.game ses.request.idem ≠ 0 := h.told ses hses htold
    have := h.once ses.request.idem
    omega

/-- In any run no key is granted twice and a reported success has its item; and a row that is marked
failed is never one that was granted exactly in the runs in which every mint and every mark comes in
turn. -/
theorem two_phase_iff (mint : Mint γ) (hmint : mint.Idempotent) {start : Sys γ}
    (hstart : Start mint start) (acts : List Act) :
    (∀ bs s, bs <+: acts → exec (step mint) start bs = some s → Granted mint s) ∧
    ((∀ bs s, bs <+: acts → exec (step mint) start bs = some s → s.FailedUngranted mint) ↔
      Along (step mint) (InTurn mint) start acts) := by
  have hkeep : ∀ s a s', Inv mint s → step mint s a = some s' → Inv mint s' :=
    fun s a s' h hstep => h.step hmint hstep
  constructor
  · intro bs s hbs hrun
    exact (exec_invariant' hkeep hstart.inv hrun).granted
  · refine @along_iff _ _ _ _ (fun s => Inv mint s ∧ s.FailedUngranted mint)
      (fun s => s.FailedUngranted mint) (fun s h => h.2) (fun s a h => inTurn_iff hmint h.1 h.2 a)
      (fun s a s' h hturn hstep => ?_) start acts ⟨hstart.inv, hstart.failed⟩
    exact ⟨hkeep s a s' h.1 hstep, (inTurn_iff hmint h.1 h.2 a).mp hturn s' hstep⟩

/-! ## A reply that is lost -/

def bankMint : Mint (List Nat) where
  run bank p :=
    if p.idem ∈ bank then (bank, .granted .replay none)
    else if bank = [] then ([p.idem], .granted .applied (some 1))
    else (bank, .failed .bankFull)
  items bank key := bank.count key

theorem bankMint_idempotent : bankMint.Idempotent where
  frame g p key hkey := by
    simp only [bankMint]
    split
    · rfl
    · split
      · rename_i hempty
        subst hempty
        simp [hkey.symm]
      · rfl
  replay g p hminted := by
    have hmem : p.idem ∈ g := List.count_pos_iff.mp (Nat.pos_of_ne_zero hminted)
    simp only [bankMint, if_pos hmem]
  fresh g p hzero := by
    have hmem : p.idem ∉ g := List.count_eq_zero.mp hzero
    simp only [bankMint, if_neg hmem]
    split
    · simp
    · exact hzero.trans_le (Nat.zero_le 1)
  told g p status grantId hreply := by
    simp only [bankMint] at hreply ⊢
    split at hreply
    · rename_i hmem
      rw [if_pos hmem]
      exact (List.count_pos_iff.mpr hmem).ne'
    · rename_i hmem
      split at hreply
      · rename_i hempty
        rw [if_neg hmem, if_pos hempty]
        simp
      · cases hreply

def emptySys : Sys (List Nat) := ⟨SerialTable.empty, [], Table.empty, [], []⟩

theorem start_emptySys : Start bankMint emptySys where
  idle := ⟨rfl, rfl, rfl⟩
  once _ := Nat.zero_le 1
  applied r hr := absurd hr (SerialTable.not_mem_empty r)
  failed r hr := absurd hr (SerialTable.not_mem_empty r)

def weeklyRequest : Request := ⟨7, 1, "Item_Weekly", 3, "lastsietch-reward"⟩

def lostReplyRun : List Act :=
  [.start 0 weeklyRequest, .gate 0 0 .whole, .serve 0, .misread 0 "timed out", .mark 0 .whole]

theorem two_phase_iff_lostReply :
    (∀ bs s, bs <+: lostReplyRun → exec (step bankMint) emptySys bs = some s → Granted bankMint s) ∧
    ((∀ bs s, bs <+: lostReplyRun → exec (step bankMint) emptySys bs = some s →
        s.FailedUngranted bankMint) ↔
      Along (step bankMint) (InTurn bankMint) emptySys lostReplyRun) :=
  two_phase_iff bankMint bankMint_idempotent start_emptySys lostReplyRun

theorem lostReply_failed :
    ∃ s, exec (step bankMint) emptySys lostReplyRun = some s ∧ ∃ r ∈ s.claims.rows,
      r.status = .failed ∧ bankMint.items s.game r.idempotencyKey = 1 :=
  exec_shows (by decide)

end LastSietch.WeeklyItem
