import LastSietch.Portal.Sends
import LastSietch.Karum.Solari

/-!
# Gifts

`portal_gift_send`, the caps of `portal_gift_limits` and the transaction of `dune-gift-op.sh`.

* `gift_lawful`: what the writer applies is a new row of `ls_guild_gifts`.
-/

namespace LastSietch.Portal

open Karum (SolarisProc)

/-- `GIFT_MAX_PER_DAY`, `GIFT_MAX_PER_PAIR_PER_DAY` and `GIFT_MAX_AMOUNT`, which the portal and
the writer read from an environment of their own. -/
structure GiftLimits extends SendLimits where
  maxAmount : Nat
  deriving DecidableEq, Repr

def giftDefaults : GiftLimits := ⟨⟨20, 5⟩, 5000000⟩

/-- What the browser sends and the session. `idempotencyKey` is the key of the form, or the one
that the route mints when the form has none. -/
structure GiftForm where
  discordId : String
  activeAccountId : Nat
  csrfOk : Bool
  amount : Option Nat
  recipient : Recipient
  idempotencyKey : Nat

structure GiftBody where
  senderAccountId : Nat
  recipientAccountId : Nat
  amount : Nat
  idempotencyKey : Nat

/-- `portal_gift_send`, up to `check_and_reserve`. -/
def GiftForm.handle (limits : GiftLimits) (f : GiftForm) :
    Except SendToken (Nat × Send Nat × GiftBody) := do
  require (f.csrfOk = true) .csrf
  let amount ← orRaise f.amount .badAmount
  require (0 < amount) .badAmount
  require (amount ≤ limits.maxAmount) .overCeiling
  let recipient ← f.recipient.resolve
  f.recipient.linkedAltRefusal f.activeAccountId f.discordId recipient
  pure (f.idempotencyKey,
    ⟨f.discordId, f.activeAccountId, f.recipient.identityKey recipient, recipient, amount⟩,
    ⟨f.activeAccountId, recipient, amount, f.idempotencyKey⟩)

def giftCounts (s : Send Nat) : Bool := !s.intraIdentity

def giftLane (limits : GiftLimits) : Lane (Send Nat) where
  settled := fun status => status == .applied
  caps := sendCaps giftCounts limits.toSendLimits

/-! ## The writer -/

structure GiftDetail where
  amount : Nat
  senderControllerId : Nat
  recipientControllerId : Nat
  deriving DecidableEq, Repr

inductive GiftError
  | amount | self | sender | recipient | sameController | balance | dailyCap | pairCap | duplicate
  deriving DecidableEq, Repr

/-- The game's database, and what the writer reads on its host. `psqlExits` is whether the session
that runs the transaction ends with exit status 0. -/
structure GiftWorld where
  game : Karum.World
  ledger : SentLedger GiftDetail
  enabled : Bool
  limits : GiftLimits
  psqlExits : Bool

structure GiftChange where
  game : Karum.World
  enabled : Bool
  limits : GiftLimits
  psqlExits : Bool

/-- The transaction under a fresh key. The row of the gate is written at the end here, with the
controllers that the source fills in. -/
def GiftWorld.apply (proc : SolarisProc) (now : Nat) (b : GiftBody) (w : GiftWorld) :
    Except GiftError GiftWorld := do
  let sender ← orRaise (w.game.latestController b.senderAccountId) .sender
  let recipient ← orRaise (w.game.latestController b.recipientAccountId) .recipient
  require (sender ≠ recipient) .sameController
  require ((b.amount : Int) ≤ w.game.balances.of sender) .balance
  require (w.ledger.today now b.senderAccountId < w.limits.perDay) .dailyCap
  require (w.ledger.pairToday now b.senderAccountId b.recipientAccountId < w.limits.perPair) .pairCap
  let ledger ← orRaise (w.ledger.insert? ⟨b.idempotencyKey, b.senderAccountId,
    b.recipientAccountId, now, ⟨b.amount, sender, recipient⟩⟩) .duplicate
  pure { w with
    ledger
    game := { w.game with
      balances := proc.transfer w.game.balances sender recipient b.amount } }

def GiftWorld.doOp (proc : SolarisProc) (now : Nat) (b : GiftBody) (w : GiftWorld) :
    Except GiftError (SendStatus × GiftWorld) := do
  require (b.amount ≤ w.limits.maxAmount) .amount
  require (b.senderAccountId ≠ b.recipientAccountId) .self
  gated w.enabled (w.ledger.get? b.idempotencyKey) (w.apply proc now b) w

/-- The gift route and its writer. An answer that does not come is settled `failed`. -/
@[reducible]
def gifts (limits : GiftLimits) (proc : SolarisProc) : Service (Send Nat) where
  lane := giftLane limits
  Form := GiftForm
  Token := SendToken
  Body := GiftBody
  Reply := SendReply GiftError
  World := GiftWorld
  Change := GiftChange
  Row := Sent GiftDetail
  handle := fun _ => GiftForm.handle limits
  write := fun now b w => answer w.psqlExits w (w.doOp proc now b)
  applied := SendReply.applied
  perturb := fun c w => ⟨c.game, w.ledger, c.enabled, c.limits, c.psqlExits⟩
  settle := fun r => some (r.settle .failed)
  lost := some .failed
  rows := fun w => w.ledger.rows
  records := Sent.Records

/-! ## What the writer applies -/

section Lawful

variable {proc : SolarisProc} {limits : GiftLimits} {now : Nat} {b : GiftBody} {w w' : GiftWorld}

theorem GiftForm.handle_spec {f : GiftForm} {key : Nat} {facts : Send Nat}
    (h : f.handle limits = .ok (key, facts, b)) :
    b.idempotencyKey = key ∧ b.senderAccountId = facts.senderAccountId ∧
      b.recipientAccountId = facts.recipientAccountId := by
  unfold GiftForm.handle at h
  obtain ⟨_, _, h⟩ := bind_eq_ok.mp h
  obtain ⟨amount, _, h⟩ := bind_eq_ok.mp h
  obtain ⟨_, _, h⟩ := bind_eq_ok.mp h
  obtain ⟨_, _, h⟩ := bind_eq_ok.mp h
  obtain ⟨recipient, _, h⟩ := bind_eq_ok.mp h
  obtain ⟨_, _, h⟩ := bind_eq_ok.mp h
  cases pure_eq_ok.mp h
  exact ⟨rfl, rfl, rfl⟩

theorem GiftWorld.apply_rows (h : w.apply proc now b = .ok w') :
    ∃ row, w'.ledger.rows = row :: w.ledger.rows ∧ row.idempotencyKey = b.idempotencyKey ∧
      row.senderAccountId = b.senderAccountId ∧ row.recipientAccountId = b.recipientAccountId ∧
      row.createdAt = now := by
  unfold GiftWorld.apply at h
  obtain ⟨sender, _, h⟩ := bind_eq_ok.mp h
  obtain ⟨recipient, _, h⟩ := bind_eq_ok.mp h
  obtain ⟨_, _, h⟩ := bind_eq_ok.mp h
  obtain ⟨_, _, h⟩ := bind_eq_ok.mp h
  obtain ⟨_, _, h⟩ := bind_eq_ok.mp h
  obtain ⟨_, _, h⟩ := bind_eq_ok.mp h
  obtain ⟨ledger, hledger, h⟩ := bind_eq_ok.mp h
  cases pure_eq_ok.mp h
  exact ⟨_, Table.rows_insert? (orRaise_eq_ok.mp hledger), rfl, rfl, rfl, rfl⟩

theorem GiftWorld.doOp_cases {status : SendStatus} (h : w.doOp proc now b = .ok (status, w')) :
    status ≠ .applied ∧ w' = w ∨
      status = .applied ∧ w.ledger.get? b.idempotencyKey = none ∧ w.apply proc now b = .ok w' := by
  unfold GiftWorld.doOp at h
  obtain ⟨_, _, h⟩ := bind_eq_ok.mp h
  obtain ⟨_, _, h⟩ := bind_eq_ok.mp h
  exact gated_cases h

theorem gift_lawful (limits : GiftLimits) (proc : SolarisProc) : (gifts limits proc).Lawful where
  applied d f key facts b now w hform happlied := by
    obtain ⟨rfl, hsender, hrecipient⟩ := GiftForm.handle_spec hform
    obtain ⟨hfresh, happly⟩ :=
      (answer_spec (fun _ _ h => GiftWorld.doOp_cases h)).1 happlied
    obtain ⟨row, hrows, hkey, hrow⟩ := GiftWorld.apply_rows happly
    refine ⟨fun r hr x hx => ?_, row, hrows, ?_⟩
    · rw [← hx.key]
      exact Table.get?_eq_none.mp hfresh r hr
    · exact ⟨hkey, hrow.2.2, hrow.1.trans hsender, hrow.2.1.trans hrecipient⟩
  replayed now b w happlied := by
    have hsame := (answer_spec (fun _ _ h => GiftWorld.doOp_cases h)).2 happlied
    exact congrArg (fun w => w.ledger.rows) hsame
  perturb _ _ := rfl

end Lawful

/-- The gifts that the writer has applied from the identity to others in the day from `T`. -/
def giftsFrom {limits : GiftLimits} {proc : SolarisProc} (s : (gifts limits proc).Sys)
    (sender : String) (T : Nat) : Int :=
  sentInDay (fun r : Sent GiftDetail => r.createdAt) s
    (fun x => giftCounts x && x.senderIdentity == sender) T

def giftsBetween {limits : GiftLimits} {proc : SolarisProc} (s : (gifts limits proc).Sys)
    (sender recipient : String) (T : Nat) : Int :=
  sentInDay (fun r : Sent GiftDetail => r.createdAt) s
    (fun x => giftCounts x && x.senderIdentity == sender && x.recipientIdentity == recipient) T

/-! ## A lost answer

One identity has the accounts 1 and 2, and account 3 belongs to another. -/

def giftStart : (gifts giftDefaults Karum.plainProc).Sys :=
  (gifts giftDefaults Karum.plainProc).start 1000000 Directory.empty
    { game := { Karum.sampleWorld with balances := ⟨[⟨11, 500⟩, ⟨12, 500⟩, ⟨13, 0⟩], by decide⟩ }
      ledger := Table.empty
      enabled := true
      limits := giftDefaults
      psqlExits := true }

def toAccount3 : Recipient where
  charName := "Duncan"
  code := ""
  accountByCharName := some 3
  validCode := true
  lookupsLeft := true
  accountByCode := none
  identityForAccount := some "2342"

def giftForm (account key : Nat) : GiftForm := ⟨"4815", account, true, some 10, toAccount3, key⟩

def answeredGift (account key i : Nat) : List (gifts giftDefaults Karum.plainProc).Act :=
  [.submit (giftForm account key), .write i, .answer i]

def lostGiftRun : List (gifts giftDefaults Karum.plainProc).Act :=
  [.submit (giftForm 1 1), .write 0, .lose 0] ++ answeredGift 2 2 1 ++ answeredGift 2 3 2 ++
    answeredGift 2 4 3 ++ answeredGift 2 5 4 ++ answeredGift 2 6 5

end LastSietch.Portal
