import LastSietch.Portal.Gifts

/-!
# Item transfers

`portal_storage_v2_transfer`, the caps of `portal_transfer_events` and the transaction of
`dune-item-transfer-op.sh`, which moves the item with the shared take.

* `transfer_lawful`: what the writer applies is a new row of `ls_item_transfers`.
-/

namespace LastSietch.Portal

open Allowance (Spend)
open Karum (SolarisProc TakeArgs TakeResult karumTakeItem)
open Runs (exec Along)

/-- `XFER_MAX_PER_DAY` and `XFER_MAX_PER_PAIR_PER_DAY`. -/
def transferLimits : SendLimits := ⟨30, 15⟩

def marketTermRe (s : String) : Bool :=
  2 ≤ s.length && s.length ≤ 64 && s.toList.all (fun c => c.isAlphanum || c == '_' || c == '-')

/-- The item that `_verify_seller_owns_item` finds in the bank. -/
structure OwnedItem where
  templateId : Option String

/-- What the browser sends, the session and what the route reads on the way. `bank` is the bank
that `_pick_bank` finds and `ownedItem` the item in it; `uuid` is the key of the form, or the one
that the route mints. -/
structure TransferForm where
  discordId : String
  activeAccountId : Nat
  csrfOk : Bool
  itemId : Option Nat
  expectedTemplate : Option String
  recipient : Recipient
  online : Option Bool
  storageRateOk : Bool
  bank : Option Nat
  ownedItem : Option OwnedItem
  uuid : Nat

structure TransferBody where
  senderAccountId : Nat
  recipientAccountId : Nat
  itemId : Nat
  templateId : Option String
  idempotencyKey : Nat

/-- `portal_storage_v2_transfer`, up to `check_and_reserve`. -/
def TransferForm.handle (f : TransferForm) :
    Except SendToken (Nat × Send Nat × TransferBody) := do
  require (f.csrfOk = true) .csrf
  let item ← orRaise f.itemId .badRequest
  require (0 < item) .badRequest
  require (f.expectedTemplate.all marketTermRe = true) .badRequest
  let recipient ← f.recipient.resolve
  f.recipient.linkedAltRefusal f.activeAccountId f.discordId recipient
  require (f.online ≠ some true) .playerOnline
  require (f.storageRateOk = true) .rateLimited
  let _bank ← orRaise f.bank .noBank
  let owned ← orRaise f.ownedItem .itemNotFound
  require (f.expectedTemplate.all (fun t => owned.templateId = some t) = true) .itemNotFound
  let template := owned.templateId.or f.expectedTemplate
  pure (f.uuid,
    ⟨f.discordId, f.activeAccountId, f.recipient.identityKey recipient, recipient, item⟩,
    ⟨f.activeAccountId, recipient, item, template.filter marketTermRe, f.uuid⟩)

def transferLane : Lane (Send Nat) where
  settled := fun status => status == .applied || status == .replay
  caps := sendCaps (fun _ => true) transferLimits

/-! ## The writer -/

/-- `XFER_ERROR_TOKENS`; a token of the take is passed on. -/
inductive TransferError
  | self | rateLimited | bankFull | duplicate
  | take (token : Karum.Token)
  deriving DecidableEq, Repr

/-- The game's database, and what the writer reads on its host. `maxItemCount` is the column of
`inventories`. -/
structure TransferWorld where
  game : Karum.World
  maxItemCount : Nat → Option Int
  ledger : SentLedger TakeResult
  enabled : Bool
  limits : SendLimits
  psqlExits : Bool

structure TransferChange where
  game : Karum.World
  maxItemCount : Nat → Option Int
  enabled : Bool
  limits : SendLimits
  psqlExits : Bool

def TransferBody.take (b : TransferBody) : TakeArgs :=
  { itemId := b.itemId, ownerAccountId := b.senderAccountId, dst := .bank b.recipientAccountId,
    src := .bank, expectedTemplate := b.templateId, expectedQuality := none, qualityMode := .exact,
    ownerCtrl := none, minPosition := 0 }

def bankHolds (cap : Option Int) (used : Nat) : Bool :=
  match cap with
  | none => true
  | some n => n ≠ 0 && (n < 0 || (used : Int) ≤ n)

/-- The transaction under a fresh key. The row of the gate is written at the end here, with what
the source fills in. -/
def TransferWorld.apply (now : Nat) (b : TransferBody) (w : TransferWorld) :
    Except TransferError TransferWorld := do
  require (w.ledger.today now b.senderAccountId < w.limits.perDay) .rateLimited
  require (w.ledger.pairToday now b.senderAccountId b.recipientAccountId < w.limits.perPair)
    .rateLimited
  let (took, game) ← (karumTakeItem b.take { w.game with now }).mapError .take
  let used := (game.items.rows.filter (·.inventoryId = took.dstInv)).length
  require (bankHolds (w.maxItemCount took.dstInv) used = true) .bankFull
  let ledger ← orRaise (w.ledger.insert? ⟨b.idempotencyKey, b.senderAccountId,
    b.recipientAccountId, now, took⟩) .duplicate
  pure { w with ledger, game }

def TransferWorld.doOp (now : Nat) (b : TransferBody) (w : TransferWorld) :
    Except TransferError (SendStatus × TransferWorld) := do
  require (b.senderAccountId ≠ b.recipientAccountId) .self
  gated w.enabled (w.ledger.get? b.idempotencyKey) (w.apply now b) w

/-- The transfer route and its writer. An answer that does not come leaves the row pending. -/
@[reducible]
def transfers : Service (Send Nat) where
  lane := transferLane
  Form := TransferForm
  Token := SendToken
  Body := TransferBody
  Reply := SendReply TransferError
  World := TransferWorld
  Change := TransferChange
  Row := Sent TakeResult
  handle := fun _ => TransferForm.handle
  write := fun now b w => answer w.psqlExits w (w.doOp now b)
  applied := SendReply.applied
  perturb := fun c w => ⟨c.game, c.maxItemCount, w.ledger, c.enabled, c.limits, c.psqlExits⟩
  settle := fun r => some (r.settle .refused)
  lost := none
  rows := fun w => w.ledger.rows
  records := Sent.Records

/-! ## What the writer applies -/

section Lawful

variable {now : Nat} {b : TransferBody} {w w' : TransferWorld}

theorem TransferForm.handle_spec {f : TransferForm} {key : Nat} {facts : Send Nat}
    (h : f.handle = .ok (key, facts, b)) :
    b.idempotencyKey = key ∧ b.senderAccountId = facts.senderAccountId ∧
      b.recipientAccountId = facts.recipientAccountId := by
  unfold TransferForm.handle at h
  obtain ⟨_, _, h⟩ := bind_eq_ok.mp h
  obtain ⟨item, _, h⟩ := bind_eq_ok.mp h
  obtain ⟨_, _, h⟩ := bind_eq_ok.mp h
  obtain ⟨_, _, h⟩ := bind_eq_ok.mp h
  obtain ⟨recipient, _, h⟩ := bind_eq_ok.mp h
  obtain ⟨_, _, h⟩ := bind_eq_ok.mp h
  obtain ⟨_, _, h⟩ := bind_eq_ok.mp h
  obtain ⟨_, _, h⟩ := bind_eq_ok.mp h
  obtain ⟨_, _, h⟩ := bind_eq_ok.mp h
  obtain ⟨owned, _, h⟩ := bind_eq_ok.mp h
  obtain ⟨_, _, h⟩ := bind_eq_ok.mp h
  cases pure_eq_ok.mp h
  exact ⟨rfl, rfl, rfl⟩

theorem TransferWorld.apply_rows (h : w.apply now b = .ok w') :
    ∃ row, w'.ledger.rows = row :: w.ledger.rows ∧ row.idempotencyKey = b.idempotencyKey ∧
      row.senderAccountId = b.senderAccountId ∧ row.recipientAccountId = b.recipientAccountId ∧
      row.createdAt = now := by
  unfold TransferWorld.apply at h
  obtain ⟨_, _, h⟩ := bind_eq_ok.mp h
  obtain ⟨_, _, h⟩ := bind_eq_ok.mp h
  obtain ⟨⟨took, game⟩, _, h⟩ := bind_eq_ok.mp h
  obtain ⟨_, _, h⟩ := bind_eq_ok.mp h
  obtain ⟨ledger, hledger, h⟩ := bind_eq_ok.mp h
  cases pure_eq_ok.mp h
  exact ⟨_, Table.rows_insert? (orRaise_eq_ok.mp hledger), rfl, rfl, rfl, rfl⟩

theorem TransferWorld.doOp_cases {status : SendStatus} (h : w.doOp now b = .ok (status, w')) :
    status ≠ .applied ∧ w' = w ∨
      status = .applied ∧ w.ledger.get? b.idempotencyKey = none ∧ w.apply now b = .ok w' := by
  unfold TransferWorld.doOp at h
  obtain ⟨_, _, h⟩ := bind_eq_ok.mp h
  exact gated_cases h

theorem transfer_lawful : transfers.Lawful where
  applied d f key facts b now w hform happlied := by
    obtain ⟨rfl, hsender, hrecipient⟩ := TransferForm.handle_spec hform
    obtain ⟨hfresh, happly⟩ :=
      (answer_spec (fun _ _ h => TransferWorld.doOp_cases h)).1 happlied
    obtain ⟨row, hrows, hkey, hrow⟩ := TransferWorld.apply_rows happly
    refine ⟨fun r hr x hx => ?_, row, hrows, ?_⟩
    · rw [← hx.key]
      exact Table.get?_eq_none.mp hfresh r hr
    · exact ⟨hkey, hrow.2.2, hrow.1.trans hsender, hrow.2.1.trans hrecipient⟩
  replayed now b w happlied := by
    have hsame := (answer_spec (fun _ _ h => TransferWorld.doOp_cases h)).2 happlied
    exact congrArg (fun w => w.ledger.rows) hsame
  perturb _ _ := rfl

end Lawful

/-- The transfers that the writer has applied from the identity in the day from `T`. -/
def transfersFrom (s : transfers.Sys) (sender : String) (T : Nat) : Int :=
  sentInDay (fun r : Sent TakeResult => r.createdAt) s (fun x => x.senderIdentity == sender) T

def transfersBetween (s : transfers.Sys) (sender recipient : String) (T : Nat) : Int :=
  sentInDay (fun r : Sent TakeResult => r.createdAt) s
    (fun x => x.senderIdentity == sender && x.recipientIdentity == recipient) T

theorem gifts_hold {limits : GiftLimits} {proc : SolarisProc} {now : Nat} {d : Directory}
    {w : GiftWorld} (hw : w.ledger = Table.empty) {acts : List (gifts limits proc).Act}
    {s : (gifts limits proc).Sys}
    (hsound : Along Service.step Service.Sys.Sound ((gifts limits proc).start now d w) acts)
    (hrun : exec Service.step ((gifts limits proc).start now d w) acts = some s)
    (sender recipient : String) (T : Nat) :
    giftsFrom s sender T ≤ limits.perDay ∧ giftsBetween s sender recipient T ≤ limits.perPair :=
  tally_sends_le (gift_lawful limits proc) rfl (fun _ _ h => h.time) (congrArg Table.rows hw)
    hsound hrun sender recipient T

theorem transfers_hold {now : Nat} {d : Directory} {w : TransferWorld}
    (hw : w.ledger = Table.empty) {acts : List transfers.Act} {s : transfers.Sys}
    (hsound : Along Service.step Service.Sys.Sound (transfers.start now d w) acts)
    (hrun : exec Service.step (transfers.start now d w) acts = some s)
    (sender recipient : String) (T : Nat) :
    transfersFrom s sender T ≤ transferLimits.perDay ∧
      transfersBetween s sender recipient T ≤ transferLimits.perPair :=
  have hcaps : transfers.lane.caps = sendCaps (fun _ => true) transferLimits := rfl
  tally_sends_le transfer_lawful hcaps (fun _ _ h => h.time) (congrArg Table.rows hw) hsound hrun
    sender recipient T

def transferForm (account item uuid : Nat) : TransferForm where
  discordId := "4815"
  activeAccountId := account
  csrfOk := true
  itemId := some item
  expectedTemplate := none
  recipient := toAccount3
  online := some false
  storageRateOk := true
  bank := some 1
  ownedItem := some ⟨none⟩
  uuid := uuid

def transferStart : transfers.Sys :=
  transfers.start 1000000 Directory.empty
    { game := { Karum.sampleWorld with
        items := ⟨{ Karum.sampleItem 1 "water" with inventoryId := 201 } ::
          (List.range 15).map (fun n => Karum.sampleItem (n + 2) "spice"), by decide⟩ }
      maxItemCount := fun _ => none
      ledger := Table.empty
      enabled := true
      limits := transferLimits
      psqlExits := true }

def answeredTransfer (account item i : Nat) : List transfers.Act :=
  [.submit (transferForm account item item), .write i, .answer i]

/-- A transfer of the first account is applied and its answer lost; after three minutes the second
account sends fifteen. -/
def lostTransferRun : List transfers.Act :=
  [.submit (transferForm 1 1 1), .write 0, .lose 0, .tick 181] ++
    (List.range 15).flatMap (fun n => answeredTransfer 2 (n + 2) (n + 1))

theorem answeredGift_goes : (exec Service.step giftStart (answeredGift 1 1 0)).isSome = true := by
  decide

theorem answeredTransfer_goes :
    (exec Service.step transferStart (answeredTransfer 1 1 0)).isSome = true := by
  decide

end LastSietch.Portal
