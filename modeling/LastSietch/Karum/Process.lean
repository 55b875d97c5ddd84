import LastSietch.Karum.Writer

/-!
# One relay call

A portal route sends an `Op` to the relay. The relay checks its shape, the writer
process answers `deferred` behind its dark gate, checks the arguments again, and runs
one or two transactions. `Op.start` is everything before the first transaction and
`writerStep?` the process from one transaction to the next, so that other calls can
commit in between.

The answer is a `Reply`. A call without usable output is answered `unknown`, by the relay
or by the portal itself.

* `WriterStep`, `writerStep?_spec`: what one step of the process does, as a case analysis.
-/

namespace LastSietch.Karum

structure CancelArgs where
  corr : Corr
  listingId : Nat
  sellerAccountId : Nat
  price : Nat
  deriving DecidableEq, Repr

structure ForceArgs where
  corr : Corr
  listingId : Nat
  targetAccountId : Nat
  price : Nat
  deriving DecidableEq, Repr

inductive Op
  | list (a : ListArgs)
  | buy (a : BuyArgs)
  | fill (a : FillArgs)
  | cancel (a : CancelArgs)
  | forceDeliver (a : ForceArgs)
  | forceReturn (a : ForceArgs)
  | refund (a : RefundArgs)
  deriving DecidableEq, Repr

def Op.corr : Op → Corr
  | .list a => a.corr
  | .buy a => a.corr
  | .fill a => a.corr
  | .cancel a => a.corr
  | .forceDeliver a => a.corr
  | .forceReturn a => a.corr
  | .refund a => a.corr

def Op.listingId : Op → Nat
  | .list a => a.listingId
  | .buy a => a.listingId
  | .fill a => a.listingId
  | .cancel a => a.listingId
  | .forceDeliver a => a.listingId
  | .forceReturn a => a.listingId
  | .refund a => a.listingId

inductive ReplyStatus
  | deferred | failed | applied | replay | paidUndelivered | escrowMissing | unknown
  deriving DecidableEq, Repr

/-- The writer's JSON; `none` is an absent key. -/
structure Reply where
  status : ReplyStatus
  error : Option Token
  paid : Option Bool
  delivered : Option Bool
  itemId : Option Nat
  orderId : Option Nat
  deriving DecidableEq, Repr

def Reply.unknown : Reply := ⟨.unknown, none, none, none, none, none⟩

def Reply.deferred : Reply := ⟨.deferred, none, some false, some false, none, none⟩

def Reply.failJson (token : Option Token) : Reply := ⟨.failed, token, none, none, none, none⟩

def Reply.unpaid (token : Token) : Reply := ⟨.failed, some token, some false, some false, none, none⟩

def Reply.undelivered (token : Token) : Reply :=
  ⟨.paidUndelivered, some token, some true, some false, none, none⟩

def gateStatus (new : Bool) : ReplyStatus := if new then .applied else .replay

def DeliveryState.status : DeliveryState → ReplyStatus
  | .applied => .applied
  | .replay => .replay
  | .escrowMissing => .escrowMissing

/-- The answer to a purchase or a fill, from the gate of transaction A and the row of
transaction B. Without a row `grep` fails and the process dies without output. -/
def saleReply (new : Bool) : Option DeliveryResult → Reply
  | none => .unknown
  | some r =>
    match r.state with
    | .escrowMissing => .undelivered .escrowMissing
    | state =>
      ⟨if new || state == .applied then .applied else .replay, none, some true, some true, none,
        r.orderId⟩

def cancelReply : Option DeliveryResult → Reply
  | none => .unknown
  | some r =>
    match r.state with
    | .escrowMissing => .failJson (some .escrowMissing)
    | state => ⟨state.status, none, none, none, none, r.orderId⟩

/-- Unlike the other legs this one passes `escrow_missing` through as a status. -/
def forceReply : Option DeliveryResult → Reply
  | none => .unknown
  | some r => ⟨r.state.status, none, none, none, none, r.orderId⟩

/-- `^[A-Za-z0-9_-]{2,64}$`. -/
def isTemplate (s : String) : Bool :=
  decide (2 ≤ s.length ∧ s.length ≤ 64) && s.toList.all (fun c => c.isAlphanum || c == '_' || c == '-')

/-- The relay's checks; a call that fails them is a HTTP error. The correlation ids and
the price are well formed by their types. -/
def Op.relayAccepts : Op → Bool
  | .list a => isTemplate a.templateId && decide (0 < a.listingId ∧ 0 < a.sellerAccountId ∧
      0 < a.itemId)
  | .buy a => decide (0 < a.buyerAccountId ∧ 0 < a.sellerAccountId ∧
      a.buyerAccountId ≠ a.sellerAccountId ∧ 0 < a.listingId ∧ 0 < a.amount)
  | .fill a => isTemplate a.templateId && decide (0 < a.buyerAccountId ∧ 0 < a.sellerAccountId ∧
      0 < a.buyerCtrl ∧ 0 < a.sellerCtrl ∧ a.buyerAccountId ≠ a.sellerAccountId ∧
      a.buyerCtrl ≠ a.sellerCtrl ∧ a.takeCorr ≠ a.corr ∧ 0 < a.requestId ∧ 0 < a.listingId ∧
      0 < a.itemId ∧ 0 < a.stackSize ∧ 0 < a.amount ∧
      ∀ q ∈ a.expectedQuality, 0 ≤ q ∧ q ≤ 5)
  | .cancel a => decide (0 < a.listingId ∧ 0 < a.sellerAccountId)
  | .forceDeliver a => decide (0 < a.listingId ∧ 0 < a.targetAccountId)
  | .forceReturn a => decide (0 < a.listingId ∧ 0 < a.targetAccountId)
  -- compared as text, so the same uuid in another letter case passes
  | .refund a => decide (0 < a.listingId ∧ a.originalCorr ≠ a.corr ∧ 0 < a.buyerAccountId ∧
      0 < a.sellerAccountId ∧ 0 < a.amount)

structure Config where
  enabled : Bool
  wtbEnabled : Bool
  takeLib : Bool
  deriving DecidableEq, Repr

def Op.isDark (conf : Config) : Op → Bool
  | .fill _ => !conf.enabled || !conf.wtbEnabled
  | _ => !conf.enabled

def Op.validate (conf : Config) : Op → Except (Option Token) Unit
  | .list _ => require conf.takeLib (some .writeFailed)
  | .buy a => require (a.amount ≤ maxPrice) (some .priceTooHigh)
  | .fill a => do
    require (a.amount ≤ maxPrice) (some .priceTooHigh)
    require conf.takeLib (some .writeFailed)
  | _ => .ok ()

def Op.start (conf : Config) (op : Op) : Option Reply :=
  if !op.relayAccepts then some .unknown
  else if op.isDark conf then some .deferred
  else
    match op.validate conf with
    | .error token => some (.failJson token)
    | .ok _ => none

/-! ## The process -/

def ForceArgs.deliver (a : ForceArgs) : DeliveryArgs :=
  ⟨a.corr, a.listingId, a.targetAccountId, .buyer, .delivered, a.price, none⟩

def ForceArgs.giveBack (a : ForceArgs) : DeliveryArgs :=
  ⟨a.corr, a.listingId, a.targetAccountId, .seller, .returned, a.price, none⟩

def CancelArgs.giveBack (a : CancelArgs) : DeliveryArgs :=
  ⟨a.corr, a.listingId, a.sellerAccountId, .seller, .returned, a.price, none⟩

def BuyArgs.deliver (a : BuyArgs) : DeliveryArgs :=
  ⟨a.corr, a.listingId, a.buyerAccountId, .buyer, .delivered, a.amount, none⟩

def FillArgs.deliver (a : FillArgs) : DeliveryArgs :=
  ⟨a.corr, a.listingId, a.buyerAccountId, .buyer, .delivered, a.amount, some a.buyerCtrl⟩

/-- Where the writer process of a call stands. `paid` is between transaction A and
transaction B of a purchase or a fill. -/
inductive WriterStage
  | sent
  | paid (new : Bool)
  | done (r : Reply)
  deriving DecidableEq, Repr

def Op.txn : Op → WriterStage → Option Txn
  | .list a, .sent => some (.list a)
  | .buy a, .sent => some (.pay a)
  | .fill a, .sent => some (.fill a)
  | .cancel a, .sent => some (.deliver a.giveBack)
  | .forceDeliver a, .sent => some (.deliver a.deliver)
  | .forceReturn a, .sent => some (.deliver a.giveBack)
  | .refund a, .sent => some (.refund a)
  | .buy a, .paid _ => some (.deliver a.deliver)
  | .fill a, .paid _ => some (.deliver a.deliver)
  | _, _ => none

def Op.onRaise : Op → WriterStage → Token → WriterStage
  | .buy _, .sent, t | .fill _, .sent, t => .done (.unpaid t)
  | .buy _, .paid _, t | .fill _, .paid _, t => .done (.undelivered t)
  | _, _, t => .done (.failJson (some t))

def Op.onCommit : Op → WriterStage → TxnResult → WriterStage
  | .list a, _, .gate new => .done ⟨gateStatus new, none, none, none, some a.itemId, none⟩
  | .buy _, .sent, .gate new | .fill _, .sent, .gate new => .paid new
  | .buy _, .paid new, .delivery r | .fill _, .paid new, .delivery r => .done (saleReply new r)
  | .cancel _, _, .delivery r => .done (cancelReply r)
  | .forceDeliver _, _, .delivery r | .forceReturn _, _, .delivery r => .done (forceReply r)
  | .refund _, _, .gate new => .done ⟨gateStatus new, none, none, none, none, none⟩
  | _, _, _ => .done .unknown

def writerStep? (proc : SolarisProc) (conf : Config) (op : Op) (stage : WriterStage)
    (db : GameDb) : Option (WriterStage × GameDb) :=
  match if stage = .sent then op.start conf else none with
  | some r => some (.done r, db)
  | none => (op.txn stage).map (fun t =>
      match t.run proc db with
      | .error e => (op.onRaise stage e, db)
      | .ok (res, db') => (op.onCommit stage res, db'))

inductive WriterStep (proc : SolarisProc) (conf : Config) (op : Op) (db : GameDb) :
    WriterStage → WriterStage → GameDb → Prop
  | refused (r : Reply) (h : op.start conf = some r) :
      WriterStep proc conf op db .sent (.done r) db
  | raised (stage : WriterStage) (t : Txn) (e : Token) (ht : op.txn stage = some t) :
      WriterStep proc conf op db stage (op.onRaise stage e) db
  | committed (stage : WriterStage) (t : Txn) (res : TxnResult) (db' : GameDb)
      (ht : op.txn stage = some t) (heff : Effect proc db t res db')
      (hstart : stage = .sent → op.start conf = none) :
      WriterStep proc conf op db stage (op.onCommit stage res) db'

theorem writerStep?_spec {proc : SolarisProc} {conf : Config} {op : Op}
    {stage stage' : WriterStage} {db db' : GameDb}
    (h : writerStep? proc conf op stage db = some (stage', db')) :
    WriterStep proc conf op db stage stage' db' := by
  unfold writerStep? at h
  split at h
  · rename_i r hstart
    cases h
    split at hstart
    · rename_i hstage
      subst hstage
      exact .refused r hstart
    · cases hstart
  · rename_i hnone
    obtain ⟨t, ht, h⟩ := Option.map_eq_some_iff.mp h
    split at h
    · cases h
      exact .raised stage t _ ht
    · rename_i hrun
      cases h
      refine .committed stage t _ _ ht (Txn.run_spec hrun) (fun hstage => ?_)
      rwa [if_pos hstage] at hnone

end LastSietch.Karum
