import LastSietch.Lib.Serial
import LastSietch.Karum.Solari

/-!
# Gifts of Solari

`do_op` of `dune-gift-op.sh`. The gate of its transaction writes the row of the gift as applied
before anything is checked, and counts on the raise of a refused gift to take it back. A refused
gift leaves a row in `ls_gift_failures`, by a second transaction.

* `gift_applied`, `gift_replayed`: the two ways in which the transaction commits.
-/

namespace LastSietch.GiftOp

open Karum (World Balances SolarisProc Moves)

/-! ## The tables -/

/-- The `detail` of a gift. -/
structure Detail where
  amount : Nat
  currency : String
  deriving DecidableEq, Repr

/-- A row of `ls_guild_gifts`. -/
structure Gift where
  id : Nat
  idempotencyKey : Nat
  createdAt : Nat
  senderAccountId : Nat
  recipientAccountId : Nat
  senderControllerId : Option Nat
  recipientControllerId : Option Nat
  amount : Nat
  currencyId : Nat
  detail : Detail
  operator : String
  requestedByDiscordId : String
  status : String
  appliedAt : Option Nat
  deriving DecidableEq, Repr

abbrev Gifts := SerialTable Gift (·.id) (·.idempotencyKey)

/-- What `do_op` fails with; from `check` on it is a raise of the transaction. -/
inductive Refusal
  | notPositive (field : String)
  | overCeiling (ceiling : Nat)
  | toYourself
  | invalidMode (mode : String)
  | capNotInteger (name : String)
  | noPod
  | check
  | noSender (account : Nat)
  | noRecipient (account : Nat)
  | sameController
  | insufficientBalance (has : Int) (need : Nat)
  | dailyCap (count max : Nat)
  | pairCap (count max : Nat)
  deriving DecidableEq, Repr

/-- A row of `ls_gift_failures`. -/
structure Failure where
  id : Nat
  createdAt : Nat
  idempotencyKey : Nat
  senderAccountId : Nat
  recipientAccountId : Nat
  amount : Nat
  operator : Option String
  requestedByDiscordId : Option String
  failReason : Refusal
  deriving DecidableEq, Repr

structure Db where
  world : World
  gifts : Gifts
  failures : Serial Failure (·.id)

/-- The environment of the tool: a cap that is not a number is `none`. -/
structure Host where
  maxAmount : Nat
  maxPerDay : Option Nat
  maxPerPairPerDay : Option Nat
  enabled : String
  deriving DecidableEq, Repr

def hostDefaults : Host := ⟨5000000, some 20, some 5, "1"⟩

structure Op where
  senderAccountId : Nat
  recipientAccountId : Nat
  amount : Nat
  idempotencyKey : Nat
  operator : String
  requestedByDiscordId : String
  mode : String
  deriving DecidableEq, Repr

def Op.operatorOr (op : Op) : String := if op.operator = "" then "unknown" else op.operator

def Op.modeOr (op : Op) : String := if op.mode = "" then "apply" else op.mode

/-- A call of the tool: with the flag `--dry-run` or not, at a time, when the database pod is found
or not and `record_failure` succeeds or not. -/
structure Call where
  op : Op
  host : Host
  dryRun : Bool
  now : Nat
  pod : Bool
  recorded : Bool
  deriving DecidableEq, Repr

def Op.validate (host : Host) (op : Op) : Except Refusal Unit := do
  require (op.senderAccountId ≠ 0) (.notPositive "sender_account_id")
  require (op.recipientAccountId ≠ 0) (.notPositive "recipient_account_id")
  require (op.amount ≠ 0) (.notPositive "amount")
  require (op.amount ≤ host.maxAmount) (.overCeiling host.maxAmount)
  require (op.senderAccountId ≠ op.recipientAccountId) .toYourself
  require (op.modeOr = "apply" ∨ op.modeOr = "dry-run") (.invalidMode op.modeOr)

def Call.dry (c : Call) : Bool := c.dryRun || c.op.modeOr == "dry-run"

def Op.gateRow (op : Op) (now id : Nat) : Gift :=
  { id, idempotencyKey := op.idempotencyKey, createdAt := now,
    senderAccountId := op.senderAccountId, recipientAccountId := op.recipientAccountId,
    senderControllerId := none, recipientControllerId := none, amount := op.amount,
    currencyId := 0, detail := ⟨op.amount, "solari"⟩, operator := op.operatorOr,
    requestedByDiscordId := op.requestedByDiscordId, status := "applied", appliedAt := some now }

/-- The gifts of a sender that count for the caps: applied in the last day, and not the row
`opId` of the transaction itself. -/
def Gifts.counted (gifts : Gifts) (now opId sender : Nat) (p : Gift → Bool) : Nat :=
  gifts.rows.countP (fun g => g.senderAccountId = sender ∧ p g ∧ g.status = "applied" ∧
    g.id ≠ opId ∧ now ≤ g.createdAt + 86400)

/-- The `UPDATE` of the audit row. -/
def Gifts.resolve (gifts : Gifts) (opId sender recipient : Nat) : Gifts :=
  gifts.update (fun g => g.id = opId)
    (fun g => { g with senderControllerId := some sender, recipientControllerId := some recipient })
    (by intro _; rfl) (by intro _; rfl)

/-- The `DO` block, on a new row `opId`. -/
def mutate (proc : SolarisProc) (perDay perPair now : Nat) (op : Op) (opId : Nat) (gifts : Gifts)
    (world : World) : Except Refusal (Gifts × Balances) := do
  let sender ← orRaise (world.latestController op.senderAccountId) (.noSender op.senderAccountId)
  let recipient ← orRaise (world.latestController op.recipientAccountId)
    (.noRecipient op.recipientAccountId)
  require (sender ≠ recipient) .sameController
  let balance := world.balances.of sender
  require ((op.amount : Int) ≤ balance) (.insufficientBalance balance op.amount)
  let today := gifts.counted now opId op.senderAccountId (fun _ => true)
  require (today < perDay) (.dailyCap today perDay)
  let pair := gifts.counted now opId op.senderAccountId
    (fun g => g.recipientAccountId = op.recipientAccountId)
  require (pair < perPair) (.pairCap pair perPair)
  pure (gifts.resolve opId sender recipient,
    proc.transfer world.balances sender recipient op.amount)

/-- The row `RESULT|op_id|state`. -/
structure Result where
  opId : Nat
  isNew : Bool
  deriving DecidableEq, Repr

/-- `TXN`. -/
def giftTxn (proc : SolarisProc) (perDay perPair now : Nat) (op : Op) (db : Db) :
    Except Refusal (Result × Db) := do
  require (0 < op.amount) .check
  match db.gifts.get? op.idempotencyKey with
  | some prior => pure (⟨prior.id, false⟩, db)
  | none =>
    let gifts ← orRaise (db.gifts.insert? (op.gateRow now)) .check
    let (gifts, balances) ←
      mutate proc perDay perPair now op db.gifts.next gifts db.world
    pure (⟨db.gifts.next, true⟩, { db with world := { db.world with balances }, gifts })

inductive Reply
  | failed (reason : Refusal)
  | deferred
  | dryRun
  | replay (auditId amount : Nat)
  | applied (auditId amount : Nat)
  deriving DecidableEq, Repr

def nullIf (s : String) : Option String := if s = "" then none else some s

def recordFailure (c : Call) (reason : Refusal) (db : Db) : Db :=
  if c.recorded then
    { db with failures := db.failures.insert (fun id =>
        { id, createdAt := c.now, idempotencyKey := c.op.idempotencyKey,
          senderAccountId := c.op.senderAccountId, recipientAccountId := c.op.recipientAccountId,
          amount := c.op.amount, operator := nullIf c.op.operatorOr,
          requestedByDiscordId := nullIf c.op.requestedByDiscordId, failReason := reason }) }
  else db

/-- What `do_op` does before it opens the transaction: the caps, or an early answer. -/
def Call.start (c : Call) : Except Reply (Nat × Nat) :=
  match c.op.validate c.host with
  | .error e => .error (.failed e)
  | .ok () => do
    require (c.host.enabled = "1") .deferred
    let perDay ← orRaise c.host.maxPerDay (.failed (.capNotInteger "GIFT_MAX_PER_DAY"))
    let perPair ← orRaise c.host.maxPerPairPerDay
      (.failed (.capNotInteger "GIFT_MAX_PER_PAIR_PER_DAY"))
    require (c.pod = true) (.failed .noPod)
    require (c.dry = false) .dryRun
    pure (perDay, perPair)

def Result.reply (op : Op) (r : Result) : Reply :=
  if r.isNew then .applied r.opId op.amount else .replay r.opId op.amount

def doOp (proc : SolarisProc) (c : Call) (db : Db) : Reply × Db :=
  match c.start with
  | .error reply => (reply, db)
  | .ok (perDay, perPair) =>
    match giftTxn proc perDay perPair c.now c.op db with
    | .error reason => (.failed reason, recordFailure c reason db)
    | .ok (r, db') => (r.reply c.op, db')

/-! ## The ways in which the transaction commits -/

section Commit

variable {proc : SolarisProc} {perDay perPair now : Nat} {op : Op} {db db' : Db} {r : Result}

def Op.giftRow (op : Op) (now id sender recipient : Nat) : Gift :=
  { op.gateRow now id with
    senderControllerId := some sender, recipientControllerId := some recipient }

/-- What `mutate` does when it does not raise. -/
structure Mutated (proc : SolarisProc) (op : Op) (opId : Nat) (gifts : Gifts) (world : World)
    (sender recipient : Nat) (gifts' : Gifts) (balances : Balances) : Prop where
  pays : world.latestController op.senderAccountId = some sender
  receives : world.latestController op.recipientAccountId = some recipient
  distinct : sender ≠ recipient
  funds : (op.amount : Int) ≤ world.balances.of sender
  gifts : gifts' = gifts.resolve opId sender recipient
  balances : balances = proc.transfer world.balances sender recipient op.amount

theorem mutate_spec {opId : Nat} {gifts gifts' : Gifts} {world : World} {balances : Balances}
    (h : mutate proc perDay perPair now op opId gifts world = .ok (gifts', balances)) :
    ∃ sender recipient, Mutated proc op opId gifts world sender recipient gifts' balances := by
  unfold mutate at h
  obtain ⟨sender, hsender, h⟩ := bind_eq_ok.mp h
  obtain ⟨recipient, hrecipient, h⟩ := bind_eq_ok.mp h
  obtain ⟨_, hdistinct, h⟩ := bind_eq_ok.mp h
  obtain ⟨_, hfunds, h⟩ := bind_eq_ok.mp h
  obtain ⟨_, _, h⟩ := bind_eq_ok.mp h
  obtain ⟨_, _, h⟩ := bind_eq_ok.mp h
  cases pure_eq_ok.mp h
  exact ⟨sender, recipient, orRaise_eq_ok.mp hsender, orRaise_eq_ok.mp hrecipient,
    require_eq_ok.mp hdistinct, require_eq_ok.mp hfunds, rfl, rfl⟩

theorem rows_resolve {gifts gifts' : Gifts} {sender recipient : Nat}
    (h : gifts.insert? (op.gateRow now) = some gifts') :
    (gifts'.resolve gifts.next sender recipient).rows =
      op.giftRow now gifts.next sender recipient :: gifts.rows :=
  @SerialTable.rows_update_insert? _ _ _ _ _ _ _ _ _
    (fun g : Gift => { g with
      senderControllerId := some sender, recipientControllerId := some recipient })
    (fun _ => rfl) (fun _ => rfl) h

/-- The gift has been made: the sender's controller has paid the recipient's, and the ledger has
one more row, with the facts of the gift. -/
structure Applied (op : Op) (now : Nat) (before after : Db) (sender recipient : Nat) (row : Gift) :
    Prop where
  fresh : ∀ g ∈ before.gifts, g.idempotencyKey ≠ op.idempotencyKey
  pays : before.world.latestController op.senderAccountId = some sender
  receives : before.world.latestController op.recipientAccountId = some recipient
  distinct : sender ≠ recipient
  moves : Moves before.world.balances after.world.balances sender recipient op.amount
  funds : (op.amount : Int) ≤ before.world.balances.of sender
  left : 0 ≤ after.world.balances.of sender
  rows : after.gifts.rows = row :: before.gifts.rows
  facts : row = op.giftRow now row.id sender recipient

theorem gift_replayed {prior : Gift} (hprior : prior ∈ db.gifts)
    (hkey : prior.idempotencyKey = op.idempotencyKey) (hamount : 0 < op.amount) :
    giftTxn proc perDay perPair now op db = .ok (⟨prior.id, false⟩, db) := by
  have hget : db.gifts.get? op.idempotencyKey = some prior :=
    SerialTable.get?_eq_some.mpr ⟨hprior, hkey⟩
  unfold giftTxn
  rw [hget, require, if_pos hamount]
  rfl

theorem gift_applied (hfresh : ∀ g ∈ db.gifts, g.idempotencyKey ≠ op.idempotencyKey)
    (h : giftTxn proc perDay perPair now op db = .ok (r, db')) :
    ∃ sender recipient row, Applied op now db db' sender recipient row ∧ r = ⟨row.id, true⟩ := by
  unfold giftTxn at h
  obtain ⟨_, _, h⟩ := bind_eq_ok.mp h
  rw [SerialTable.get?_eq_none.mpr hfresh] at h
  obtain ⟨gifts, hgifts, h⟩ := bind_eq_ok.mp h
  obtain ⟨⟨gifts', balances⟩, hmutate, h⟩ := bind_eq_ok.mp h
  cases pure_eq_ok.mp h
  obtain ⟨sender, recipient, hm⟩ := mutate_spec hmutate
  have hrows : gifts'.rows = op.giftRow now db.gifts.next sender recipient :: db.gifts.rows := by
    rw [hm.gifts]
    exact rows_resolve (orRaise_eq_ok.mp hgifts)
  have hmoves : Moves db.world.balances balances sender recipient op.amount := by
    rw [hm.balances]
    exact proc.moves_transfer _ _ _ _
  have hleft : 0 ≤ balances.of sender :=
    hmoves.nonneg_at (by have := hm.funds; omega) hm.funds
  exact ⟨sender, recipient, _, ⟨hfresh, hm.pays, hm.receives, hm.distinct, hmoves, hm.funds, hleft,
    hrows, rfl⟩, rfl⟩

end Commit

structure Turn where
  call : Call
  before : Db
  reply : Reply
  after : Db

def turn (proc : SolarisProc) (c : Call) (db : Db) : Turn :=
  ⟨c, db, (doOp proc c db).1, (doOp proc c db).2⟩

def turns (proc : SolarisProc) : Db → List Call → List Turn
  | _, [] => []
  | db, c :: cs => turn proc c db :: turns proc (turn proc c db).after cs

def Turn.Opens (t : Turn) : Prop := ∃ caps, t.call.start = .ok caps

def Reply.Idle : Reply → Prop
  | .failed _ | .deferred | .dryRun => True
  | .replay .. | .applied .. => False

def Turn.Unchanged (t : Turn) : Prop :=
  t.after.world = t.before.world ∧ t.after.gifts = t.before.gifts

def Turn.Gives (t : Turn) : Prop :=
  ∃ sender recipient row, Applied t.call.op t.call.now t.before t.after sender recipient row ∧
    t.reply = .applied row.id row.amount

/-- The answer is that the gift of `row` was made before. -/
def Turn.Replays (t : Turn) (row : Gift) : Prop :=
  t.Unchanged ∧ t.reply = .replay row.id row.amount

structure Turn.Exact (t : Turn) : Prop where
  closed : ¬ t.Opens → t.Unchanged ∧ t.reply.Idle
  first : t.Opens → (∀ g ∈ t.before.gifts, g.idempotencyKey ≠ t.call.op.idempotencyKey) →
    t.Unchanged ∧ (∃ reason, t.reply = .failed reason) ∨ t.Gives
  again : t.Opens → ∀ g ∈ t.before.gifts, g.idempotencyKey = t.call.op.idempotencyKey →
    t.Replays g
  total : t.after.world.balances.total = t.before.world.balances.total
  nonneg : ∀ c, 0 ≤ t.before.world.balances.of c → 0 ≤ t.after.world.balances.of c

def Turn.SameAmount (t : Turn) : Prop :=
  t.Opens → ∀ g ∈ t.before.gifts, g.idempotencyKey = t.call.op.idempotencyKey →
    g.amount = t.call.op.amount

/-! ## One call -/

section Calls

variable {proc : SolarisProc} {c : Call} {db : Db}

theorem validate_amount {host : Host} {op : Op} {u : Unit} (h : op.validate host = .ok u) :
    0 < op.amount := by
  unfold Op.validate at h
  obtain ⟨_, _, h⟩ := bind_eq_ok.mp h
  obtain ⟨_, _, h⟩ := bind_eq_ok.mp h
  obtain ⟨_, hamount, _⟩ := bind_eq_ok.mp h
  exact Nat.pos_of_ne_zero (require_eq_ok.mp hamount)

theorem start_amount {caps : Nat × Nat} (h : c.start = .ok caps) : 0 < c.op.amount := by
  unfold Call.start at h
  split at h
  · cases h
  · rename_i hvalid
    exact validate_amount hvalid

theorem start_idle : Raises Reply.Idle c.start := by
  unfold Call.start
  split
  · intro e h
    cases h
    trivial
  · refine Raises.bind (Raises.require trivial) (fun _ => ?_)
    refine Raises.bind (Raises.orRaise trivial) (fun _ => ?_)
    refine Raises.bind (Raises.orRaise trivial) (fun _ => ?_)
    refine Raises.bind (Raises.require trivial) (fun _ => ?_)
    exact Raises.bind (Raises.require trivial) (fun _ => Raises.ok)

theorem recordFailure_frame (c : Call) (reason : Refusal) (db : Db) :
    (recordFailure c reason db).world = db.world ∧
      (recordFailure c reason db).gifts = db.gifts := by
  unfold recordFailure
  split <;> exact ⟨rfl, rfl⟩

theorem turn_closed (h : ¬ (turn proc c db).Opens) :
    (turn proc c db).Unchanged ∧ (turn proc c db).reply.Idle := by
  unfold turn Turn.Unchanged doOp
  cases hstart : c.start with
  | error reply => exact ⟨⟨rfl, rfl⟩, start_idle reply hstart⟩
  | ok caps => exact absurd ⟨caps, hstart⟩ h

theorem turn_first (hopens : (turn proc c db).Opens)
    (hfresh : ∀ g ∈ db.gifts, g.idempotencyKey ≠ c.op.idempotencyKey) :
    (turn proc c db).Unchanged ∧ (∃ reason, (turn proc c db).reply = .failed reason) ∨
      (turn proc c db).Gives := by
  obtain ⟨⟨perDay, perPair⟩, hstart⟩ := hopens
  change c.start = _ at hstart
  unfold turn Turn.Unchanged Turn.Gives doOp
  rw [hstart]
  dsimp only
  cases htxn : giftTxn proc perDay perPair c.now c.op db with
  | error reason => exact Or.inl ⟨recordFailure_frame c reason db, reason, rfl⟩
  | ok out =>
    obtain ⟨r, db'⟩ := out
    obtain ⟨sender, recipient, row, happlied, rfl⟩ := gift_applied hfresh htxn
    refine Or.inr ⟨sender, recipient, row, happlied, ?_⟩
    have hamount := congrArg Gift.amount happlied.facts
    rw [hamount]
    rfl

theorem turn_again (hopens : (turn proc c db).Opens) {g : Gift} (hg : g ∈ db.gifts)
    (hkey : g.idempotencyKey = c.op.idempotencyKey) :
    (turn proc c db).after = db ∧ (turn proc c db).reply = .replay g.id c.op.amount := by
  obtain ⟨⟨perDay, perPair⟩, hstart⟩ := hopens
  change c.start = _ at hstart
  unfold turn doOp
  rw [hstart]
  dsimp only
  rw [gift_replayed hg hkey (start_amount hstart)]
  exact ⟨rfl, rfl⟩

theorem turn_balances (proc : SolarisProc) (c : Call) (db : Db) :
    (turn proc c db).after.world.balances = db.world.balances ∨
      ∃ sender recipient, Moves db.world.balances (turn proc c db).after.world.balances sender
        recipient c.op.amount ∧ (c.op.amount : Int) ≤ db.world.balances.of sender := by
  by_cases hopens : (turn proc c db).Opens
  · by_cases hfresh : ∀ g ∈ db.gifts, g.idempotencyKey ≠ c.op.idempotencyKey
    · rcases turn_first hopens hfresh with ⟨hsame, -⟩ | ⟨sender, recipient, row, happlied, -⟩
      · exact Or.inl (congrArg World.balances hsame.1)
      · exact Or.inr ⟨sender, recipient, happlied.moves, happlied.funds⟩
    · push Not at hfresh
      obtain ⟨g, hg, hkey⟩ := hfresh
      rw [(turn_again hopens hg hkey).1]
      exact Or.inl rfl
  · exact Or.inl (congrArg World.balances (turn_closed hopens).1.1)

theorem turn_exact_iff (proc : SolarisProc) (c : Call) (db : Db) :
    (turn proc c db).Exact ↔ (turn proc c db).SameAmount := by
  constructor
  · intro h hopens g hg hkey
    have hreply := (h.again hopens g hg hkey).2
    rw [(turn_again hopens hg hkey).2] at hreply
    injection hreply with _ hamount
    exact hamount.symm
  · intro hsame
    refine ⟨turn_closed, turn_first, fun hopens g hg hkey => ?_, ?_, fun ctrl hctrl => ?_⟩
    · obtain ⟨hafter, hreply⟩ := turn_again hopens hg hkey
      refine ⟨⟨congrArg Db.world hafter, congrArg Db.gifts hafter⟩, ?_⟩
      rw [hreply, hsame hopens g hg hkey]
      rfl
    · rcases turn_balances proc c db with heq | ⟨sender, recipient, hmoves, -⟩
      · rw [heq]
        rfl
      · exact hmoves.total
    · rcases turn_balances proc c db with heq | ⟨sender, recipient, hmoves, hfunds⟩
      · rw [heq]
        exact hctrl
      · exact hmoves.nonneg_at hctrl hfunds

theorem turn_keeps {g : Gift} (hg : g ∈ db.gifts) : g ∈ (turn proc c db).after.gifts := by
  by_cases hopens : (turn proc c db).Opens
  · by_cases hfresh : ∀ g ∈ db.gifts, g.idempotencyKey ≠ c.op.idempotencyKey
    · rcases turn_first hopens hfresh with ⟨hsame, -⟩ | ⟨sender, recipient, row, happlied, -⟩
      · rw [hsame.2]
        exact hg
      · exact (SerialTable.mem_of_rows happlied.rows).mpr (Or.inr hg)
    · push Not at hfresh
      obtain ⟨h, hh, hkey⟩ := hfresh
      rw [(turn_again hopens hh hkey).1]
      exact hg
  · rw [(turn_closed hopens).1.2]
    exact hg

end Calls

/-! ## A whole sequence -/

section Sequences

variable {proc : SolarisProc} {db : Db} {cs : List Call} {t : Turn}

theorem turns_exact_iff (proc : SolarisProc) (db : Db) (cs : List Call) :
    (∀ t ∈ turns proc db cs, t.Exact) ↔ ∀ t ∈ turns proc db cs, t.SameAmount := by
  induction cs generalizing db with
  | nil => simp [turns]
  | cons c cs ih =>
    rw [turns, List.forall_mem_cons, List.forall_mem_cons, turn_exact_iff, ih]

theorem turns_total (ht : t ∈ turns proc db cs) :
    t.after.world.balances.total = db.world.balances.total := by
  induction cs generalizing db with
  | nil => cases ht
  | cons c cs ih =>
    have hstep : (turn proc c db).after.world.balances.total = db.world.balances.total := by
      rcases turn_balances proc c db with heq | ⟨sender, recipient, hmoves, -⟩
      · rw [heq]
      · exact hmoves.total
    rcases List.mem_cons.mp ht with rfl | ht
    · exact hstep
    · exact (ih ht).trans hstep

theorem mem_before {g : Gift} (hg : g ∈ db.gifts) (ht : t ∈ turns proc db cs) :
    g ∈ t.before.gifts := by
  induction cs generalizing db with
  | nil => cases ht
  | cons c cs ih =>
    rcases List.mem_cons.mp ht with rfl | ht
    · exact hg
    · exact ih (turn_keeps hg) ht

theorem turns_once (proc : SolarisProc) (db : Db) (cs : List Call) :
    (turns proc db cs).Pairwise (fun s t => s.Gives → t.Gives →
      s.call.op.idempotencyKey ≠ t.call.op.idempotencyKey) := by
  induction cs generalizing db with
  | nil => exact List.Pairwise.nil
  | cons c cs ih =>
    refine List.Pairwise.cons (fun t ht => ?_) (ih _)
    rintro ⟨sender, recipient, row, happlied, -⟩ ⟨_, _, _, hlater, -⟩ hkey
    have hrow : row ∈ t.before.gifts :=
      mem_before ((SerialTable.mem_of_rows happlied.rows).mpr (Or.inl rfl)) ht
    exact hlater.fresh row hrow ((congrArg Gift.idempotencyKey happlied.facts).trans hkey)

end Sequences

/-- In every sequence of calls, from any state: a call makes its gift, changes nothing or answers
from the gift that has its key, a key makes one gift at most, and the sum of the balances stays;
all this just if no call comes back to the key of a gift with another amount. -/
theorem gift_turns_iff (proc : SolarisProc) (db : Db) (cs : List Call) :
    ((∀ t ∈ turns proc db cs,
        t.Exact ∧ t.after.world.balances.total = db.world.balances.total) ∧
      (turns proc db cs).Pairwise (fun s t => s.Gives → t.Gives →
        s.call.op.idempotencyKey ≠ t.call.op.idempotencyKey)) ↔
    ∀ t ∈ turns proc db cs, t.SameAmount := by
  constructor
  · rintro ⟨hexact, -⟩
    exact (turns_exact_iff proc db cs).mp (fun t ht => (hexact t ht).1)
  · intro hsame
    have hexact := (turns_exact_iff proc db cs).mpr hsame
    exact ⟨fun t ht => ⟨hexact t ht, turns_total ht⟩, turns_once proc db cs⟩

def sampleDb : Db := ⟨Karum.sampleWorld, SerialTable.empty, Serial.empty⟩

/-- Account 1 gives `amount` to account 2 under key 9. -/
def sampleCall (amount : Nat) : Call :=
  { op := ⟨1, 2, amount, 9, "portal", "111", "apply"⟩, host := hostDefaults, dryRun := false,
    now := 1000, pod := true, recorded := true }

/-- A gift of 10, and a second call under its key with another amount: the answer is that 400 were
given already. -/
theorem replay_misreports :
    ¬ ∀ (proc : SolarisProc) (db : Db) (cs : List Call), ∀ t ∈ turns proc db cs, t.Exact := by
  intro h
  have hsame := (turns_exact_iff Karum.plainProc sampleDb [sampleCall 10, sampleCall 400]).mp
    (h _ _ _) _ (List.mem_cons_of_mem _ (List.mem_cons_self ..))
  have hrow : (sampleCall 10).op.giftRow 1000 1 11 12 ∈
      (turn Karum.plainProc (sampleCall 10) sampleDb).after.gifts.rows := by decide
  exact absurd (hsame ⟨(20, 5), by decide⟩ _ hrow rfl) (by decide)

/-! ## The ledger and the balances -/

section Books

variable {proc : SolarisProc} {db : Db} {cs : List Call} {t : Turn}

def Gift.flow (g : Gift) (c : Nat) : Int :=
  (if some c = g.recipientControllerId then (g.amount : Int) else 0) -
    if some c = g.senderControllerId then (g.amount : Int) else 0

/-- What the gifts of the ledger have brought the controller. -/
def Gifts.net (gifts : Gifts) (c : Nat) : Int := (gifts.rows.map (·.flow c)).sum

theorem turn_books (proc : SolarisProc) (call : Call) (db : Db) (c : Nat) :
    (turn proc call db).after.world.balances.of c =
      db.world.balances.of c + ((turn proc call db).after.gifts.net c - db.gifts.net c) := by
  have hsame : (turn proc call db).Unchanged → (turn proc call db).after.world.balances.of c =
      db.world.balances.of c + ((turn proc call db).after.gifts.net c - db.gifts.net c) := by
    rintro ⟨hworld, hgifts⟩
    rw [hworld, hgifts]
    exact (by omega : ∀ b n : Int, b = b + (n - n)) _ _
  by_cases hopens : (turn proc call db).Opens
  · by_cases hfresh : ∀ g ∈ db.gifts, g.idempotencyKey ≠ call.op.idempotencyKey
    · rcases turn_first hopens hfresh with ⟨hidle, -⟩ | ⟨sender, recipient, row, happlied, -⟩
      · exact hsame hidle
      · have hnet : (turn proc call db).after.gifts.net c = row.flow c + db.gifts.net c := by
          unfold Gifts.net
          rw [happlied.rows, List.map_cons, List.sum_cons]
          rfl
        have hmoves := happlied.moves c
        rw [hnet, happlied.facts, hmoves]
        simp only [Gift.flow, Op.giftRow, Op.gateRow, Option.some.injEq, turn]
        omega
    · push Not at hfresh
      obtain ⟨g, hg, hkey⟩ := hfresh
      rw [(turn_again hopens hg hkey).1]
      omega
  · exact hsame (turn_closed hopens).1

/-- After every call of every sequence, under whatever keys and with whatever amounts, each balance
is explained by the ledger, is not negative where it was not, and no gift has left the ledger. -/
theorem gifts_explain_balances (ht : t ∈ turns proc db cs) :
    (∀ c, t.after.world.balances.of c =
        db.world.balances.of c + (t.after.gifts.net c - db.gifts.net c)) ∧
      (∀ c, 0 ≤ db.world.balances.of c → 0 ≤ t.after.world.balances.of c) ∧
      ∀ g ∈ db.gifts, g ∈ t.after.gifts := by
  induction cs generalizing db with
  | nil => cases ht
  | cons call cs ih =>
    have hbooks := turn_books proc call db
    have hnonneg : ∀ c, 0 ≤ db.world.balances.of c →
        0 ≤ (turn proc call db).after.world.balances.of c := by
      intro c hc
      rcases turn_balances proc call db with heq | ⟨sender, recipient, hmoves, hfunds⟩
      · rw [heq]
        exact hc
      · exact hmoves.nonneg_at hc hfunds
    rcases List.mem_cons.mp ht with rfl | ht
    · exact ⟨hbooks, hnonneg, fun g hg => turn_keeps hg⟩
    · obtain ⟨hlater, hlaterNonneg, hkept⟩ := ih ht
      refine ⟨fun c => ?_, fun c hc => hlaterNonneg c (hnonneg c hc),
        fun g hg => hkept g (turn_keeps hg)⟩
      rw [hlater, hbooks]
      omega

end Books

theorem gifts_explain_balances_sample :
    let ts := turns Karum.plainProc sampleDb [sampleCall 10, sampleCall 400]
    ∃ t ∈ ts, t.after.world.balances.of 12 = sampleDb.world.balances.of 12 + 10 ∧
      t.after.world.balances.of 12 = sampleDb.world.balances.of 12 +
        (t.after.gifts.net 12 - sampleDb.gifts.net 12) := by
  intro ts
  have ht : ts[1] ∈ ts := List.getElem_mem (by decide)
  exact ⟨_, ht, by decide, (gifts_explain_balances ht).1 12⟩

end LastSietch.GiftOp
