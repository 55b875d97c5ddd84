import LastSietch.Nights.Credit

/-!
# The Stall of the Seven Nights

An order has two legs. `placeOrder` is one transaction that checks window, limit, stock,
character and balance and writes the order with its debit. The other leg is the game writer,
which gets the order's delivery key: `beginDelivery` claims the order for one call and
`applyOutcome` folds the answer back. Role orders are answered by `ackRole`, and an operator
can refund. `ledger` holds the rows of `portal_sn_ledger` of the kinds `order`, `refund` and
`admin_adjust`; their unique indexes are one key.

`perform_change` says all that one operation can do to the orders and the ledger.
-/

namespace LastSietch.Nights

inductive Lane
  | prefs | role | wallet | bank | spec | charxp
  deriving DecidableEq, Repr

def gameLanes : List Lane := [.wallet, .bank, .spec, .charxp]

structure CatalogRow where
  sku : String
  lane : Lane
  price : Nat
  perProfileLimit : Nat
  stock : Option Nat
  opensAt : Int
  closesAt : Int
  disabled : Bool
  secret : Bool
  deriving DecidableEq, Repr

abbrev Catalog : Type := Table CatalogRow CatalogRow.sku

def CatalogRow.skuOpen (row : CatalogRow) (now : Int) : Bool :=
  !row.disabled && decide (row.opensAt ≤ now) && decide (now < row.closesAt)

/-! ## Orders and ledger rows -/

inductive Status
  | queued | delivering | delivered | reconciling | failed | refunded
  deriving DecidableEq, Repr

def Status.settled : Status → Bool
  | .delivered => true
  | .refunded => true
  | _ => false

/-- A row of `portal_sn_orders`. -/
structure Order where
  id : Nat
  idemKey : String
  profileId : Nat
  accountId : Option Nat
  controllerId : Option Nat
  sku : String
  lane : Lane
  price : Nat
  status : Status
  attempts : Nat
  attemptAt : Option Int
  error : Option String
  deriving DecidableEq, Repr

/-- `uuid5` of profile, sku and order id, which name one key. -/
abbrev DeliveryKey : Type := Nat × String × Nat

def Order.deliveryKey (o : Order) : DeliveryKey := (o.profileId, o.sku, o.id)

abbrev Orders : Type := SerialTable Order Order.id Order.idemKey

/-- `ux_sn_debit`, `ux_sn_refund` and `ux_sn_admin`. -/
inductive LedgerKey
  | debit (orderId : Nat)
  | refund (orderId : Nat)
  | admin (profileId : Nat) (ref : String)
  deriving DecidableEq, Repr

structure LedgerRow where
  profileId : Nat
  delta : Int
  key : LedgerKey
  nonzero : delta ≠ 0
  deriving DecidableEq, Repr

abbrev ShopLedger : Type := Table LedgerRow LedgerRow.key

structure Shop where
  sys : Sys
  orders : Orders
  ledger : ShopLedger

def Shop.start : Shop := ⟨Sys.start, SerialTable.empty, Table.empty⟩

def posted (rows : List LedgerRow) (profileId : Nat) : Int :=
  ((rows.filter (fun r => r.profileId = profileId)).map LedgerRow.delta).sum

def earned (credits : Credits) (profileId : Nat) : Int :=
  ((credits.rows.filter (fun c => c.profileId = profileId)).map CreditRow.delta).sum

/-- `SUM(delta)` over the rows of every kind. -/
def Shop.balance (s : Shop) (profileId : Nat) : Int :=
  earned s.sys.credits profileId + posted s.ledger.rows profileId

/-! ## Placing an order -/

inductive Refusal
  | badIdemKey | unknownSku | closed | limit | soldOut | noCharacter | balance
  | raised
  deriving DecidableEq, Repr

def hexDigit (c : Char) : Bool := c.isDigit || (decide ('a' ≤ c) && decide (c ≤ 'f'))

def hexGroups : List Nat → List Char → Bool
  | [], cs => cs.isEmpty
  | [n], cs => decide (cs.length = n) && cs.all hexDigit
  | n :: ns, cs =>
    decide ((cs.take n).length = n) && (cs.take n).all hexDigit &&
      decide ((cs.drop n).head? = some '-') && hexGroups ns (cs.drop (n + 1))

/-- `_IDEM_RE`. -/
def validIdemKey (idemKey : String) : Bool := hexGroups [8, 4, 4, 4, 12] idemKey.toList

def Shop.liveCount (s : Shop) (sku : String) (profileId : Option Nat) : Nat :=
  s.orders.rows.countP (fun o =>
    decide (o.sku = sku ∧ o.status ≠ .refunded ∧ ∀ p ∈ profileId, o.profileId = p))

def present (n : Option Nat) : Bool := n.any (fun k => decide (k ≠ 0))

def Shop.orderRefusal (s : Shop) (profileId : Nat) (sku : String) (catalog : Catalog) (now : Int)
    (accountId controllerId : Option Nat) : Option Refusal :=
  match catalog.get? sku with
  | none => some .unknownSku
  | some row =>
    if row.secret && decide (now < row.opensAt) then some .unknownSku
    else if !row.skuOpen now then some .closed
    else if row.perProfileLimit ≤ s.liveCount sku (some profileId) then some .limit
    else if row.stock.any (fun stock => decide (stock ≤ s.liveCount sku none)) then some .soldOut
    else if row.lane ∈ gameLanes ∧ ¬ (present accountId && present controllerId) then
      some .noCharacter
    else if s.balance profileId < row.price then some .balance
    else none

def debitRow (profileId price orderId : Nat) : Option LedgerRow :=
  if h : 0 < price then some ⟨profileId, -(price : Int), .debit orderId, by omega⟩ else none

/-- An `INSERT` of a row that there may be. -/
def ShopLedger.post? (t : ShopLedger) : Option LedgerRow → Option ShopLedger
  | none => some t
  | some r => t.insert? r

def Shop.sell (s : Shop) (profileId : Nat) (idemKey : String) (row : CatalogRow)
    (accountId controllerId : Option Nat) : Option Shop := do
  let status := if row.lane = .prefs then Status.delivered else .queued
  let oid := s.orders.next
  let orders ← s.orders.insert? (fun id => ⟨id, idemKey, profileId, accountId, controllerId,
    row.sku, row.lane, row.price, status, 0, none, none⟩)
  let ledger ← ShopLedger.post? s.ledger (debitRow profileId row.price oid)
  pure { s with orders, ledger }

def Shop.placeOrder (s : Shop) (profileId : Nat) (sku idemKey : String) (catalog : Catalog)
    (now : Int) (accountId controllerId : Option Nat) : Shop × Except Refusal Order :=
  if ¬ validIdemKey idemKey then (s, .error .badIdemKey)
  else
    match s.orders.get? idemKey with
    | some prior =>
      if prior.profileId ≠ profileId then (s, .error .badIdemKey) else (s, .ok prior)
    | none =>
      match s.orderRefusal profileId sku catalog now accountId controllerId, catalog.get? sku with
      | some err, _ => (s, .error err)
      | none, none => (s, .error .raised)
      | none, some row =>
        match s.sell profileId idemKey row accountId controllerId with
        | none => (s, .error .raised)
        | some s' =>
          match s'.orders.byId? s.orders.next with
          | none => (s', .error .raised)
          | some order => (s', .ok order)

def refundRow (profileId price orderId : Nat) : Option LedgerRow :=
  if h : 0 < price then some ⟨profileId, (price : Int), .refund orderId, by omega⟩ else none

/-- `INSERT OR IGNORE` of a row that there may be. -/
def ShopLedger.post (t : ShopLedger) (row : Option LedgerRow) : ShopLedger :=
  (ShopLedger.post? t row).getD t

def Order.needsConfirm (o : Order) : Bool :=
  -- a role order may be held by the role sync in the middle of a call
  decide (o.status = .delivering ∨ o.status = .reconciling) || decide (o.lane = .role) ||
    decide (o.status = .queued ∧ 0 < o.attempts)

def Shop.refund (s : Shop) (orderId : Nat) (reason : String) : Shop × Bool :=
  match s.orders.byId? orderId with
  | none => (s, false)
  | some o =>
    ({ s with
        ledger := ShopLedger.post s.ledger (refundRow o.profileId o.price orderId)
        orders := s.orders.update (fun r => r.id = orderId) (fun r =>
          { r with status := .refunded, error := some (r.error.getD reason) }) }, true)

inductive RefundError
  | noSuchOrder | settled | confirmFirst
  deriving DecidableEq, Repr

def Shop.operatorRefund (s : Shop) (orderId : Nat) (reason : String)
    (confirmNotDelivered : Bool) : Shop × Except RefundError Unit :=
  match s.orders.byId? orderId with
  | none => (s, .error .noSuchOrder)
  | some o =>
    if o.status = .delivered ∨ o.status = .refunded then (s, .error .settled)
    else if o.needsConfirm && !confirmNotDelivered then (s, .error .confirmFirst)
    else ((s.refund orderId ("admin: " ++ reason)).1, .ok ())

/-! ## Delivery -/

def deliveringStale : Int := 900

/-- A `delivering` order whose sender is gone: its claim is too old. -/
def Order.orphan (o : Order) (now : Int) : Bool :=
  decide (o.status = .delivering) && o.attemptAt.all (fun t => decide (t < now - deliveringStale))

def Shop.beginDelivery (s : Shop) (orderId : Nat) (now : Int) : Shop × Option Order :=
  match s.orders.byId? orderId with
  | none => (s, none)
  | some o =>
    if o.lane ∉ gameLanes then (s, none)
    else if o.status ≠ .queued ∧ o.status ≠ .reconciling ∧ ¬ o.orphan now then (s, none)
    else
      let s' := { s with
        orders := s.orders.update (fun r => r.id = orderId) (fun r =>
          { r with status := .delivering, attempts := r.attempts + 1, attemptAt := some now }) }
      (s', s'.orders.byId? orderId)

inductive WriterStatus
  | applied | replay | deferred | failed
  | other (text : String)
  deriving DecidableEq, Repr

inductive FailCode
  | rejected | notOwner | cap | alreadyOwned | capacity | bankUnopened
  | other (text : String)
  deriving DecidableEq, Repr

def definiteFailures : List FailCode :=
  [.rejected, .notOwner, .cap, .alreadyOwned, .capacity, .bankUnopened]

def FailCode.text : FailCode → String
  | .rejected => "rejected"
  | .notOwner => "not_owner"
  | .cap => "cap"
  | .alreadyOwned => "already_owned"
  | .capacity => "capacity"
  | .bankUnopened => "bank_unopened"
  | .other text => text

def WriterStatus.text : WriterStatus → String
  | .applied => "applied"
  | .replay => "replay"
  | .deferred => "deferred"
  | .failed => "failed"
  | .other text => text

structure Outcome where
  status : WriterStatus
  error : Option FailCode
  deliveryKey : Option DeliveryKey
  sku : Option String
  controllerId : Option Nat
  deriving DecidableEq, Repr

def Outcome.success (r : Outcome) : Bool := decide (r.status = .applied ∨ r.status = .replay)

def Outcome.echoes (r : Outcome) (o : Order) : Bool :=
  decide (r.deliveryKey = some o.deliveryKey ∧ r.sku = some o.sku ∧
    r.controllerId = o.controllerId)

def Outcome.definiteFailure (r : Outcome) : Option FailCode :=
  if r.status = .failed then r.error.filter (fun code => decide (code ∈ definiteFailures))
  else none

/-- `str(text)[:64]`. -/
def clip (text : String) : String := String.ofList (text.toList.take 64)

def doubt : Option Outcome → String
  | none => "no_response"
  | some r =>
    if r.success then "no_echo"
    else
      match (r.error.map FailCode.text).filter (fun text => decide (text ≠ "")) with
      | some text => text
      | none => if r.status.text = "" then "bad_reply" else r.status.text

def Shop.setStatus (s : Shop) (orderId : Nat) (status : Status) (error : Option String) : Shop :=
  { s with
    orders := s.orders.update (fun r => r.id = orderId) (fun r => { r with status, error }) }

/-- `outcome` is `none` when the call timed out. Returns the new status. -/
def Shop.applyOutcome (s : Shop) (orderId : Nat) (outcome : Option Outcome) :
    Shop × Option Status :=
  match s.orders.byId? orderId with
  | none => (s, none)
  | some o =>
    if o.status = .delivered ∨ o.status = .refunded then (s, some o.status)
    else if outcome.any (fun r => r.success && r.echoes o) then
      (s.setStatus orderId .delivered none, some .delivered)
    else if outcome.any (fun r => decide (r.status = .deferred)) then
      (s.setStatus orderId .queued (some "deferred"), some .queued)
    else
      match outcome.bind Outcome.definiteFailure with
      | some code =>
        (((s.setStatus orderId .failed (some code.text)).refund orderId code.text).1,
          some .refunded)
      | none =>
        (s.setStatus orderId .reconciling (some (clip (doubt outcome))), some .reconciling)

def Shop.ackRole (s : Shop) (orderId : Nat) (ok : Bool) (error : Option String) :
    Shop × Option Status :=
  match s.orders.byId? orderId with
  | none => (s, none)
  | some o =>
    if o.lane ≠ .role ∨ (o.status ≠ .queued ∧ o.status ≠ .reconciling) then (s, some o.status)
    else if ok then (s.setStatus orderId .delivered o.error, some .delivered)
    else
      let why := clip (error.getD "role_refused")
      (((s.setStatus orderId .failed (some why)).refund orderId why).1, some .refunded)

def awardMax : Int := 50

/-- One row per profile and case; `true` when the case was paid before. -/
def Shop.adminAward (s : Shop) (profileId : Nat) (amount : Int) (caseId : String) : Shop × Bool :=
  -- OR IGNORE also skips a row that fails CHECK (delta <> 0)
  if h : amount ≠ 0 then
    match s.ledger.insert? ⟨profileId, amount, .admin profileId caseId, h⟩ with
    | none => (s, true)
    | some ledger => ({ s with ledger }, false)
  else (s, true)

inductive ContestCase
  | entry (contest discordId : String)
  | place (contest : String) (rank : Fin 3)
  deriving DecidableEq, Repr

def ContestCase.contest : ContestCase → String
  | .entry contest _ => contest
  | .place contest _ => contest

def ContestCase.caseId : ContestCase → String
  | .entry contest discordId => "contest:" ++ contest ++ ":entry:" ++ discordId
  | .place contest rank => "contest:" ++ contest ++ ":place:" ++ toString (rank.val + 1)

def ContestCase.namesOther (kase : ContestCase) (discordId : String) : Bool :=
  match kase with
  | .entry _ did => decide (did ≠ discordId)
  | .place _ _ => false

def LedgerRow.paysOther (r : LedgerRow) (caseId : String) (profileId : Nat) : Bool :=
  match r.key with
  | .admin pid ref => decide (ref = caseId ∧ pid ≠ profileId)
  | _ => false

inductive ContestAnswer
  | ok (replay : Bool)
  | unlinked | caseTaken
  /-- `ValueError`. -/
  | badCase
  deriving DecidableEq, Repr

/-- `profile` is the active profile of the Discord id. -/
def Shop.contestAward (s : Shop) (discordId : String) (profile : Option Nat) (amount : Int)
    (kase : ContestCase) (allowed : List String) : Shop × ContestAnswer :=
  if kase.contest ∉ allowed then (s, .badCase)
  else if kase.namesOther discordId then (s, .badCase)
  else
    match profile with
    | none => (s, .unlinked)
    | some pid =>
      if s.ledger.rows.any (fun r => r.paysOther kase.caseId pid) then (s, .caseTaken)
      else
        let paid := s.adminAward pid amount kase.caseId
        (paid.1, .ok paid.2)

inductive ShopOp
  | earn (a : Act)
  | placeOrder (profileId : Nat) (sku idemKey : String) (catalog : Catalog) (now : Int)
      (accountId controllerId : Option Nat)
  | beginDelivery (orderId : Nat) (now : Int)
  | applyOutcome (orderId : Nat) (outcome : Option Outcome)
  | refund (orderId : Nat) (reason : String) (confirmNotDelivered : Bool)
  | ackRole (orderId : Nat) (ok : Bool) (error : Option String)
  | adminAward (profileId : Nat) (amount : Int) (caseId : String)
  | contestAward (discordId : String) (profile : Option Nat) (amount : Int) (kase : ContestCase)
      (allowed : List String)

def ShopOp.catalog? : ShopOp → Option Catalog
  | .placeOrder _ _ _ catalog _ _ _ => some catalog
  | _ => none

def Act.isPost : Act → Bool
  | .post _ => true
  | _ => false

def Shop.perform (s : Shop) : ShopOp → Shop
  | .earn a => if a.isPost then s else { s with sys := s.sys.apply a }
  | .placeOrder profileId sku idemKey catalog now accountId controllerId =>
    (s.placeOrder profileId sku idemKey catalog now accountId controllerId).1
  | .beginDelivery orderId now => (s.beginDelivery orderId now).1
  | .applyOutcome orderId outcome => (s.applyOutcome orderId outcome).1
  | .refund orderId reason confirm => (s.operatorRefund orderId reason confirm).1
  | .ackRole orderId ok error => (s.ackRole orderId ok error).1
  | .adminAward profileId amount caseId =>
    if 1 ≤ amount ∧ amount ≤ awardMax then (s.adminAward profileId amount caseId).1 else s
  | .contestAward discordId profile amount kase allowed =>
    if 1 ≤ amount ∧ amount ≤ awardMax then
      (s.contestAward discordId profile amount kase allowed).1
    else s

def shopStep (s : Shop) (op : ShopOp) : Option Shop := some (s.perform op)

/-! ## What one operation can do -/

def Order.identity (o : Order) : Nat × String × Nat × Option Nat × Option Nat × String × Lane × Nat :=
  (o.id, o.idemKey, o.profileId, o.accountId, o.controllerId, o.sku, o.lane, o.price)

/-- The order moves on to `o'`. -/
structure Moves (s : Shop) (orders : Orders) (o o' : Order) : Prop where
  replaced : SerialTable.Replaced s.orders orders o o'
  identity : o'.identity = o.identity
  unsettled : o.status.settled = false
  attempts : o.attempts ≤ o'.attempts

structure Placed (s : Shop) (catalog : Catalog) (orders : Orders) (ledger : ShopLedger)
    (row : CatalogRow) (o : Order) : Prop where
  listed : catalog.get? o.sku = some row
  price : o.price = row.price
  limit : s.liveCount o.sku (some o.profileId) < row.perProfileLimit
  stock : ∀ n, row.stock = some n → s.liveCount o.sku none < n
  solvent : (o.price : Int) ≤ s.balance o.profileId
  fresh : o.id = s.orders.next
  rows : orders.rows = o :: s.orders.rows
  next : orders.next = s.orders.next + 1
  status : o.status = .queued ∨ o.status = .delivered ∧ o.lane = .prefs
  attempts : o.attempts = 0
  posted : ShopLedger.post? s.ledger (debitRow o.profileId o.price o.id) = some ledger

/-- What lets an operation refund the order `o`. -/
inductive RefundCause (o : Order) : ShopOp → Prop
  | operator (reason : String) (confirm : Bool) (h : o.needsConfirm = false ∨ confirm = true) :
      RefundCause o (.refund o.id reason confirm)
  | role (error : Option String) (hlane : o.lane = .role) : RefundCause o (.ackRole o.id false error)
  | writer (r : Outcome) (code : FailCode) (h : r.definiteFailure = some code) :
      RefundCause o (.applyOutcome o.id (some r))

variable {o : Order} {orderId : Nat}

theorem RefundCause.of_applyOutcome {outcome : Option Outcome}
    (h : RefundCause o (.applyOutcome orderId outcome)) :
    orderId = o.id ∧ ∃ r, outcome = some r ∧ r.definiteFailure ≠ none := by
  generalize hop : ShopOp.applyOutcome orderId outcome = op at h
  cases h with
  | writer r code hcode =>
    cases hop
    exact ⟨rfl, r, rfl, by simp [hcode]⟩
  | _ => cases hop

theorem RefundCause.of_refund {reason : String} {confirm : Bool}
    (h : RefundCause o (.refund orderId reason confirm)) :
    orderId = o.id ∧ (o.needsConfirm = false ∨ confirm = true) := by
  generalize hop : ShopOp.refund orderId reason confirm = op at h
  cases h with
  | operator reason confirm hcheck =>
    cases hop
    exact ⟨rfl, hcheck⟩
  | _ => cases hop

theorem RefundCause.of_ackRole {ok : Bool} {error : Option String}
    (h : RefundCause o (.ackRole orderId ok error)) : o.lane = .role := by
  generalize hop : ShopOp.ackRole orderId ok error = op at h
  cases h with
  | role error hlane => exact hlane
  | _ => cases hop

inductive Change (op : ShopOp) (s : Shop) : Shop → Prop
  | same : Change op s s
  | earned (a : Act) (hpost : a.isPost = false) : Change op s { s with sys := s.sys.apply a }
  | awarded (ledger : ShopLedger) (row : LedgerRow) (profileId : Nat) (caseId : String)
      (hkey : row.key = .admin profileId caseId) (hpos : 0 < row.delta)
      (hrows : ledger.rows = row :: s.ledger.rows) : Change op s { s with ledger }
  | placed (catalog : Catalog) (orders : Orders) (ledger : ShopLedger) (row : CatalogRow)
      (o : Order) (hop : op.catalog? = some catalog) (h : Placed s catalog orders ledger row o) :
      Change op s { s with orders, ledger }
  | moved (orders : Orders) (o o' : Order) (h : Moves s orders o o')
      (hstatus : o'.status ≠ .refunded) (hfailed : o'.status ≠ .failed) : Change op s { s with orders }
  | refunded (orders : Orders) (o o' : Order) (h : Moves s orders o o')
      (hstatus : o'.status = .refunded) (hcause : RefundCause o op) :
      Change op s
        { s with
          orders
          ledger := ShopLedger.post s.ledger (refundRow o.profileId o.price o.id) }

theorem settled_eq_false {status : Status} (hd : status ≠ .delivered) (hr : status ≠ .refunded) :
    status.settled = false := by
  cases status with
  | delivered => exact absurd rfl hd
  | refunded => exact absurd rfl hr
  | _ => rfl

theorem setStatus_moves {s : Shop} (ho : o ∈ s.orders) (hset : o.status.settled = false)
    (status : Status) (error : Option String) :
    Moves s (s.setStatus o.id status error).orders o { o with status, error } :=
  ⟨SerialTable.Replaced.of_update ho, rfl, hset, le_refl _⟩

theorem refund_change {op : ShopOp} {s : Shop} (s' : Shop) {o' : Order}
    (hsys : s'.sys = s.sys) (hledger : s'.ledger = s.ledger) (h : Moves s s'.orders o o')
    (reason : String) (hcause : RefundCause o op) :
    Change op s (s'.refund o.id reason).1 := by
  have hid : o'.id = o.id := h.replaced.id_eq
  have hget : s'.orders.byId? o.id = some o' :=
    SerialTable.byId?_eq_some.mpr ⟨h.replaced.mem_new, hid⟩
  have hupd : Moves s (s'.orders.update (fun r => r.id = o.id) (fun r =>
      { r with status := .refunded, error := some (r.error.getD reason) })) o
      { o' with status := .refunded, error := some (o'.error.getD reason) } := by
    refine ⟨h.replaced.trans ?_, h.identity, h.unsettled, h.attempts⟩
    rw [← hid]
    exact SerialTable.Replaced.of_update h.replaced.mem_new
  have hprofile : o'.profileId = o.profileId := congrArg (fun i => i.2.2.1) h.identity
  have hprice : o'.price = o.price := congrArg (fun i => i.2.2.2.2.2.2.2) h.identity
  have hchange := Change.refunded _ o _ hupd rfl hcause
  unfold Shop.refund
  rw [hget]
  simp only [hsys, hledger, hprofile, hprice]
  exact hchange

theorem beginDelivery_change (s : Shop) (orderId : Nat) (now : Int) :
    Change (.beginDelivery orderId now) s (s.beginDelivery orderId now).1 := by
  unfold Shop.beginDelivery
  cases hget : s.orders.byId? orderId with
  | none => exact Change.same
  | some o =>
    obtain ⟨ho, rfl⟩ := SerialTable.byId?_eq_some.mp hget
    simp only []
    split
    · exact Change.same
    · split
      · exact Change.same
      · rename_i _ hstatus
        have hset : o.status.settled = false := by
          by_contra hset
          apply hstatus
          unfold Order.orphan
          cases hs : o.status <;> simp_all [Status.settled]
        refine Change.moved _ o { o with
          status := .delivering, attempts := o.attempts + 1, attemptAt := some now } ?_
          (by simp) (by simp)
        exact ⟨SerialTable.Replaced.of_update ho, rfl, hset, Nat.le_succ _⟩

theorem beginDelivery_spec {s s' : Shop} {now : Int}
    (h : s.beginDelivery orderId now = (s', some o)) :
    o ∈ s'.orders ∧ o.status = .delivering ∧ o.lane ∈ gameLanes ∧ 0 < o.attempts := by
  unfold Shop.beginDelivery at h
  cases hget : s.orders.byId? orderId with
  | none =>
    rw [hget] at h
    cases h
  | some q =>
    obtain ⟨hq, rfl⟩ := SerialTable.byId?_eq_some.mp hget
    rw [hget] at h
    simp only [] at h
    split at h
    · cases h
    · rename_i hlane
      split at h
      · cases h
      · rw [Prod.mk.injEq] at h
        obtain ⟨rfl, hnew⟩ := h
        obtain ⟨ho, hid⟩ := SerialTable.byId?_eq_some.mp hnew
        obtain ⟨r, hr, hor⟩ := SerialTable.mem_update.mp ho
        by_cases hrq : r.id = q.id
        · rw [if_pos (decide_eq_true hrq)] at hor
          have heq : r = q := SerialTable.eq_of_id_eq hr hq hrq
          subst heq
          subst hor
          exact ⟨ho, rfl, not_not.mp hlane, Nat.succ_pos _⟩
        · rw [if_neg (by simpa using hrq)] at hor
          rw [hor] at hid
          exact absurd hid hrq

theorem applyOutcome_change (s : Shop) (orderId : Nat) (outcome : Option Outcome) :
    Change (.applyOutcome orderId outcome) s (s.applyOutcome orderId outcome).1 := by
  unfold Shop.applyOutcome
  cases hget : s.orders.byId? orderId with
  | none => exact Change.same
  | some o =>
    obtain ⟨ho, rfl⟩ := SerialTable.byId?_eq_some.mp hget
    simp only []
    split
    · exact Change.same
    · rename_i hopen
      rw [not_or] at hopen
      have hset := settled_eq_false hopen.1 hopen.2
      split
      · exact Change.moved _ o _ (setStatus_moves ho hset _ _) (by simp) (by simp)
      · split
        · exact Change.moved _ o _ (setStatus_moves ho hset _ _) (by simp) (by simp)
        · split
          · rename_i code hcode
            obtain ⟨r, rfl, hr⟩ := Option.bind_eq_some_iff.mp hcode
            exact refund_change (s := s) (s.setStatus o.id .failed _) rfl rfl
              (setStatus_moves ho hset _ _) _ (.writer r code hr)
          · exact Change.moved _ o _ (setStatus_moves ho hset _ _) (by simp) (by simp)

theorem ackRole_change (s : Shop) (orderId : Nat) (ok : Bool) (error : Option String) :
    Change (.ackRole orderId ok error) s (s.ackRole orderId ok error).1 := by
  unfold Shop.ackRole
  cases hget : s.orders.byId? orderId with
  | none => exact Change.same
  | some o =>
    obtain ⟨ho, rfl⟩ := SerialTable.byId?_eq_some.mp hget
    simp only []
    split
    · exact Change.same
    · rename_i hopen
      have hset : o.status.settled = false := by
        by_contra hset
        apply hopen
        cases hs : o.status <;> simp_all [Status.settled]
      split
      · exact Change.moved _ o _ (setStatus_moves ho hset _ _) (by simp) (by simp)
      · rename_i hok
        have hrole : o.lane = .role := by
          by_contra hlane
          exact hopen (Or.inl hlane)
        rw [Bool.not_eq_true] at hok
        subst hok
        exact refund_change (s := s) (s.setStatus o.id .failed _) rfl rfl
          (setStatus_moves ho hset _ _) _ (.role error hrole)

theorem operatorRefund_change (s : Shop) (orderId : Nat) (reason : String) (confirm : Bool) :
    Change (.refund orderId reason confirm) s (s.operatorRefund orderId reason confirm).1 := by
  unfold Shop.operatorRefund
  cases hget : s.orders.byId? orderId with
  | none => exact Change.same
  | some o =>
    obtain ⟨ho, rfl⟩ := SerialTable.byId?_eq_some.mp hget
    simp only []
    split
    · exact Change.same
    · rename_i hopen
      rw [not_or] at hopen
      split
      · exact Change.same
      · rename_i hconfirm
        have hcheck : o.needsConfirm = false ∨ confirm = true := by
          cases hneeds : o.needsConfirm with
          | false => exact Or.inl rfl
          | true => exact Or.inr (by simpa [hneeds] using hconfirm)
        refine refund_change (s := s) s rfl rfl
          (⟨⟨ho, rfl, ?_, rfl⟩, rfl, ?_, le_refl _⟩ : Moves s s.orders o o) _
          (.operator reason confirm hcheck)
        · refine ((List.map_congr_left (fun q hq => ?_)).trans (List.map_id _)).symm
          by_cases hid : q.id = o.id
          · rw [if_pos hid]
            exact (SerialTable.eq_of_id_eq hq ho hid).symm
          · exact if_neg hid
        · exact settled_eq_false hopen.1 hopen.2

theorem adminAward_change (op : ShopOp) (s : Shop) (profileId : Nat) {amount : Int}
    (hpos : 1 ≤ amount) (caseId : String) :
    Change op s (s.adminAward profileId amount caseId).1 := by
  unfold Shop.adminAward
  split
  · split
    · exact Change.same
    · rename_i ledger hins
      exact Change.awarded ledger _ profileId caseId rfl (by show 0 < amount; omega)
        (Table.rows_insert? hins)
  · exact Change.same

theorem contestAward_change (op : ShopOp) (s : Shop) (discordId : String) (profile : Option Nat)
    {amount : Int} (hpos : 1 ≤ amount) (kase : ContestCase) (allowed : List String) :
    Change op s (s.contestAward discordId profile amount kase allowed).1 := by
  unfold Shop.contestAward
  split
  · exact Change.same
  · split
    · exact Change.same
    · cases profile with
      | none => exact Change.same
      | some pid =>
        simp only []
        split
        · exact Change.same
        · exact adminAward_change op s pid hpos kase.caseId

theorem orderRefusal_eq_none {s : Shop} {p : Nat} {sku : String} {catalog : Catalog} {now : Int}
    {accountId controllerId : Option Nat} {row : CatalogRow} (hrow : catalog.get? sku = some row)
    (h : s.orderRefusal p sku catalog now accountId controllerId = none) :
    s.liveCount sku (some p) < row.perProfileLimit ∧
      (∀ n, row.stock = some n → s.liveCount sku none < n) ∧ (row.price : Int) ≤ s.balance p := by
  unfold Shop.orderRefusal at h
  rw [hrow] at h
  simp only [] at h
  split_ifs at h with h1 h2 h3 h4 h5 h6
  refine ⟨not_le.mp h3, fun n hn => ?_, not_lt.mp h6⟩
  rw [hn] at h4
  simpa using h4

theorem sell_eq_some {s s' : Shop} {p : Nat} {idemKey : String} {row : CatalogRow}
    {accountId controllerId : Option Nat}
    (h : s.sell p idemKey row accountId controllerId = some s') :
    ∃ orders ledger o, s' = { s with orders, ledger } ∧ orders.rows = o :: s.orders.rows ∧
      orders.next = s.orders.next + 1 ∧
      o = ⟨s.orders.next, idemKey, p, accountId, controllerId, row.sku, row.lane, row.price,
        if row.lane = .prefs then .delivered else .queued, 0, none, none⟩ ∧
      ShopLedger.post? s.ledger (debitRow p row.price s.orders.next) = some ledger := by
  simp only [Shop.sell, Option.bind_eq_bind, Option.bind_eq_some_iff, Option.pure_def,
    Option.some.injEq] at h
  obtain ⟨orders, hins, ledger, hpost, rfl⟩ := h
  obtain ⟨hrows, hnext⟩ := SerialTable.rows_insert? hins
  exact ⟨orders, ledger, _, rfl, hrows, hnext, rfl, hpost⟩

theorem placeOrder_change (s : Shop) (p : Nat) (sku idemKey : String) (catalog : Catalog)
    (now : Int) (accountId controllerId : Option Nat) :
    Change (.placeOrder p sku idemKey catalog now accountId controllerId) s
      (s.placeOrder p sku idemKey catalog now accountId controllerId).1 := by
  unfold Shop.placeOrder
  split
  · exact Change.same
  · split
    · split <;> exact Change.same
    · split
      · exact Change.same
      · exact Change.same
      · rename_i row hrefusal hrow
        split
        · exact Change.same
        · rename_i s' hsell
          obtain ⟨hlimit, hstock, hsolvent⟩ := orderRefusal_eq_none hrow hrefusal
          obtain ⟨orders, ledger, o, rfl, hrows, hnext, ho, hpost⟩ := sell_eq_some hsell
          have hsku : row.sku = sku := Table.key_of_get? hrow
          have hplaced : Placed s catalog orders ledger row o := by
            subst ho
            refine ⟨?_, rfl, ?_, ?_, hsolvent, rfl, hrows, hnext, ?_, rfl, hpost⟩
            · rw [hsku]
              exact hrow
            · rw [hsku]
              exact hlimit
            · rw [hsku]
              exact hstock
            · by_cases hlane : row.lane = .prefs
              · exact Or.inr ⟨if_pos hlane, hlane⟩
              · exact Or.inl (if_neg hlane)
          have hchange : Change (.placeOrder p sku idemKey catalog now accountId controllerId) s
              { s with orders, ledger } :=
            Change.placed catalog orders ledger row o rfl hplaced
          split <;> exact hchange

/-- One operation earns, awards, places one order, moves one unsettled order on or refunds
it, or changes nothing. -/
theorem perform_change (s : Shop) (op : ShopOp) : Change op s (s.perform op) := by
  cases op with
  | earn a =>
    simp only [Shop.perform]
    by_cases hpost : a.isPost
    · rw [if_pos hpost]
      exact Change.same
    · rw [if_neg hpost]
      exact Change.earned a (Bool.eq_false_iff.mpr hpost)
  | placeOrder p sku idemKey catalog now accountId controllerId =>
    exact placeOrder_change s p sku idemKey catalog now accountId controllerId
  | beginDelivery orderId now => exact beginDelivery_change s orderId now
  | applyOutcome orderId outcome => exact applyOutcome_change s orderId outcome
  | refund orderId reason confirm => exact operatorRefund_change s orderId reason confirm
  | ackRole orderId ok error => exact ackRole_change s orderId ok error
  | adminAward p amount caseId =>
    simp only [Shop.perform]
    by_cases h : 1 ≤ amount ∧ amount ≤ awardMax
    · rw [if_pos h]
      exact adminAward_change _ s p h.1 caseId
    · rw [if_neg h]
      exact Change.same
  | contestAward discordId profile amount kase allowed =>
    simp only [Shop.perform]
    by_cases h : 1 ≤ amount ∧ amount ≤ awardMax
    · rw [if_pos h]
      exact contestAward_change _ s discordId profile h.1 kase allowed
    · rw [if_neg h]
      exact Change.same

end LastSietch.Nights
