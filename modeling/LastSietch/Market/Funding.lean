import LastSietch.Market.Clock

/-!
# Paying the exchange

The market writers pay from the bank: the amount goes to the wallet of the exchange in one call, and
the procedure that follows takes it from there. What is taken of the procedures is in `Funded`.
`Db.write` is one of the four transactions, and `Db.after` what the database is after it: a
transaction that raises is rolled back.

* `write_spec`: a write that comes to an end has paid its cost, and its request was in order.
-/

namespace LastSietch.Market

open Landsraad (Order Orders)

/-- The arguments of `dune_exchange_fulfill_sell_order`: both destinations are `NULL`. -/
structure FulfillOrder where
  exchangeId : Nat
  maxOrders : Nat
  purchasedType : Nat
  soldType : Nat
  buyerId : Nat
  orderId : Nat
  revision : Int
  count : Nat
  buyerFee : Nat
  purgeTime : Int

structure Debited (owner : Nat) (amount : Int) (db db' : Db) : Prop where
  wallet : db'.wallets owner = db.wallets owner - amount
  bank : db'.bank owner = db.bank owner

/-- The call to `dune_exchange_modify_user_solari_balance` moves what is in the bank, and the
procedures debit the wallet by the fee that they are given, or by the price of what is bought. -/
structure Funded extends Exchange where
  fulfillSellOrder : FulfillOrder → Db → Except Refusal (Option Nat × Db)
  modify_moves : ∀ {owner amount db db' balance},
    modifyUserSolariBalance owner amount db = .ok db' → db.bank owner = some balance →
      amount ≤ balance → db'.wallets owner = db.wallets owner + amount ∧
        db'.bank owner = some (balance - amount)
  add_debits : ∀ {a db added db' id}, addSellOrder a db = .ok (added, db') →
    added.orderId = some id → id ≠ 0 → Debited a.ownerId a.solariCost db db'
  cancel_debits : ∀ {id purge type db db'}, cancelOrder id purge type db = .ok db' →
    ∀ owner, Debited owner 0 db db'
  relist_debits : ∀ {id expiration price wear cost db stack db' o},
    relistOrder id expiration price wear cost db = .ok (some stack, db') → stack ≠ 0 →
      db.orders.byId? id = some o → Debited o.ownerId cost db db'
  fulfill_debits : ∀ {a db item db' o}, fulfillSellOrder a db = .ok (some item, db') → item ≠ 0 →
    db.orders.byId? a.orderId = some o →
      Debited a.buyerId (o.itemPrice * a.count + a.buyerFee) db db'

/-- What `gather_args` lets through. -/
structure Purchase where
  orderId : Nat
  revision : Int
  buyer : Nat
  count : Nat
  maxOrders : Nat

structure Bought where
  itemId : Nat
  templateId : String
  unitPrice : Int
  total : Int
  bankBefore : Int
  bankAfter : Option Int
  deriving DecidableEq, Repr

/-- What a `bigint` holds. -/
def FitsBigint (n : Int) : Prop := -maxBigint - 1 ≤ n ∧ n ≤ maxBigint

instance (n : Int) : Decidable (FitsBigint n) := inferInstanceAs (Decidable (_ ∧ _))

namespace Db

variable (db : Db)

/-- The order with its row in `dune_exchange_sell_orders`. -/
def listing (id : Nat) : Option (Order × SellRow) :=
  (db.orders.byId? id).bind fun o => (db.sellRow id).map fun row => (o, row)

variable {db} in
theorem of_listing {id : Nat} {o : Order} {row : SellRow} (h : db.listing id = some (o, row)) :
    db.orders.byId? id = some o ∧ row ∈ db.sellOrders ∧ row.orderId = id := by
  obtain ⟨o', ho, h⟩ := Option.bind_eq_some_iff.mp h
  obtain ⟨row', hrow, heq⟩ := Option.map_eq_some_iff.mp h
  cases heq
  have hid := List.find?_some hrow
  exact ⟨ho, List.mem_of_find?_eq_some hrow, of_decide_eq_true hid⟩

/-- The write of `dune-market-buy.py`. -/
def buy (x : Funded) (q : Purchase) : Except Refusal (Bought × Db) := do
  let (o, row) ← orRaise (db.listing q.orderId) .orderGone
  require (o.revision = q.revision) .revisionDrift
  require ((q.count : Int) ≤ row.initialStackSize) .countExceedsStack
  let total := o.itemPrice * q.count
  require (FitsBigint total) .writeFailed
  let (balance, db) ← db.fund x.toExchange q.buyer total
  let gameNow ← orRaise (clock db.orders) .purgeTimeUnresolved
  let (item, db) ← x.fulfillSellOrder
    ⟨Landsraad.exchangeId, q.maxOrders, purchasedCompletionType, soldCompletionType, q.buyer,
      q.orderId, q.revision, q.count, buyerFee, gameNow + purgeWindowSecs⟩ db
  let item ← orRaise (item.filter (· ≠ 0)) .fulfillFailed
  pure (⟨item, o.templateId, o.itemPrice, total, balance, db.bank q.buyer⟩, db)

end Db

/-! ## Writes -/

inductive Request
  | list (q : Listing)
  | relist (q : Relist)
  | cancel (q : Cancel)
  | buy (q : Purchase)

def Request.caller : Request → Nat
  | .list q => q.seller
  | .relist q => q.owner
  | .cancel q => q.owner
  | .buy q => q.buyer

namespace Db

variable (db : Db)

def write (x : Funded) : Request → Except Refusal Db
  | .list q => (db.sell x.toExchange q).map Prod.snd
  | .relist q => (db.relist x.toExchange q).map Prod.snd
  | .cancel q => (db.cancel x.toExchange q).map Prod.snd
  | .buy q => (db.buy x q).map Prod.snd

def after (x : Funded) (q : Request) : Db :=
  match db.write x q with
  | .ok db' => db'
  | .error _ => db

def cost : Request → Int
  | .list q => computeFee q.price q.days
  | .relist q => computeFee q.price q.days
  | .cancel _ => 0
  | .buy q => ((db.orders.byId? q.orderId).elim 0 Order.itemPrice) * q.count

def Shown (owner id : Nat) (revision : Int) : Prop :=
  ∃ o ∈ db.orders, o.id = id ∧ o.ownerId = owner ∧ o.isNpcOrder = false ∧ o.revision = revision

def InOrder : Request → Prop
  | .list q => ∃ it ∈ db.land.items, it.id = q.itemId ∧ (q.count : Int) ≤ it.stackSize ∧
      (∀ template ∈ q.expectedTemplate, it.templateId = template) ∧
      ∃ inv, it.inventoryId = some inv ∧ db.owned q.seller inv = true ∧
        ∀ src ∈ q.expectedSrc, db.srcOf q.seller inv = some src
  | .relist q => db.Shown q.owner q.orderId q.revision
  | .cancel q => db.Shown q.owner q.orderId q.revision
  | .buy q => ∃ o ∈ db.orders, o.id = q.orderId ∧ o.revision = q.revision ∧
      ∃ row ∈ db.sellOrders, row.orderId = q.orderId ∧ (q.count : Int) ≤ row.initialStackSize

structure Paid (owner : Nat) (amount : Int) (db db' : Db) : Prop where
  wallet : db'.wallets owner = db.wallets owner
  bank : db'.bank owner = (db.bank owner).map (· - amount)
  covered : amount = 0 ∨ ∃ balance, db'.bank owner = some balance ∧ 0 ≤ balance

end Db

section Payments

variable {x : Funded} {db db' : Db}

theorem fund_debit {owner : Nat} {amount balance : Int} {funded : Db}
    (hfund : db.fund x.toExchange owner amount = .ok (balance, funded))
    (hdebit : Debited owner amount funded db') : Db.Paid owner amount db db' := by
  obtain ⟨b, hbank, hfund⟩ := bind_eq_ok.mp hfund
  obtain ⟨_, hcovered, hfund⟩ := bind_eq_ok.mp hfund
  obtain ⟨moved, hmodify, hfund⟩ := bind_eq_ok.mp hfund
  cases hfund
  have hbank := orRaise_eq_ok.mp hbank
  have hcovered := require_eq_ok.mp hcovered
  obtain ⟨hwallet, hmoved⟩ := x.modify_moves hmodify hbank hcovered
  refine ⟨?_, ?_, Or.inr ⟨_, hdebit.bank.trans hmoved, Int.sub_nonneg_of_le hcovered⟩⟩
  · rw [hdebit.wallet, hwallet, Int.add_sub_cancel]
  · rw [hdebit.bank, hmoved, hbank]
    rfl

theorem lockOrder_shown {owner id : Nat} {revision : Int} {o : Order}
    (h : db.lockOrder owner id revision = .ok o) : db.Shown owner id revision := by
  obtain ⟨hrow, howner, hnpc, hrevision⟩ := Db.lockOrder_ok h
  obtain ⟨ho, hid⟩ := SerialTable.byId?_eq_some.mp hrow
  exact ⟨o, ho, hid, howner, hnpc, hrevision⟩

theorem Db.sell_paid {q : Listing} {r : Receipt} (h : db.sell x.toExchange q = .ok (r, db')) :
    Db.Paid q.seller (computeFee q.price q.days) db db' ∧ db.InOrder (.list q) := by
  obtain ⟨it, inv, T, fee, balance, funded, added, mask, depth,
    ⟨hit, hinv, howned, htemplate, hsrc, hcount⟩, -, hfee, hprice, hfund, hadd, hid, hne, -⟩ :=
    Db.sell_ok h
  obtain ⟨hmem, hitem⟩ := SerialTable.byId?_eq_some.mp hit
  refine ⟨?_, it, hmem, hitem, hcount, htemplate, inv, hinv, howned, hsrc⟩
  rw [← sqlFee_eq hfee hprice]
  exact fund_debit hfund (x.add_debits hadd hid hne)

theorem Db.relist_paid {q : Relist} {r : Receipt} (h : db.relist x.toExchange q = .ok (r, db')) :
    Db.Paid q.owner (computeFee q.price q.days) db db' ∧ db.InOrder (.relist q) := by
  obtain ⟨o, T, fee, balance, funded, stack, hlock, -, hfee, hprice, hfund, hrelist, hne, -⟩ :=
    Db.relist_ok h
  refine ⟨?_, lockOrder_shown hlock⟩
  obtain ⟨hrow, howner, -⟩ := Db.lockOrder_ok hlock
  rw [← Db.fund_orders hfund] at hrow
  have hdebit := x.relist_debits hrelist hne hrow
  rw [howner] at hdebit
  rw [← sqlFee_eq hfee hprice]
  exact fund_debit hfund hdebit

theorem Db.cancel_paid {q : Cancel} {r : Receipt} (h : db.cancel x.toExchange q = .ok (r, db')) :
    Db.Paid q.owner 0 db db' ∧ db.InOrder (.cancel q) := by
  obtain ⟨o, T, hlock, -, hcancel, -⟩ := Db.cancel_ok h
  refine ⟨?_, lockOrder_shown hlock⟩
  have hdebit := x.cancel_debits hcancel q.owner
  refine ⟨hdebit.wallet.trans (Int.sub_zero _), hdebit.bank.trans ?_, Or.inl rfl⟩
  cases db.bank q.owner with
  | none => rfl
  | some b => exact congrArg some (Int.sub_zero b).symm

theorem Db.buy_paid {q : Purchase} {r : Bought} (h : db.buy x q = .ok (r, db')) :
    Db.Paid q.buyer (db.cost (.buy q)) db db' ∧ db.InOrder (.buy q) := by
  obtain ⟨⟨o, row⟩, hlisting, h⟩ := bind_eq_ok.mp h
  obtain ⟨_, hrevision, h⟩ := bind_eq_ok.mp h
  obtain ⟨_, hcount, h⟩ := bind_eq_ok.mp h
  obtain ⟨_, -, h⟩ := bind_eq_ok.mp h
  obtain ⟨⟨balance, funded⟩, hfund, h⟩ := bind_eq_ok.mp h
  obtain ⟨T, -, h⟩ := bind_eq_ok.mp h
  obtain ⟨⟨item, bought⟩, hfulfill, h⟩ := bind_eq_ok.mp h
  obtain ⟨id, hid, h⟩ := bind_eq_ok.mp h
  cases h
  obtain ⟨rfl, hne⟩ := Option.filter_eq_some_iff.mp (orRaise_eq_ok.mp hid)
  obtain ⟨hrow, hsell, hkey⟩ := Db.of_listing (orRaise_eq_ok.mp hlisting)
  obtain ⟨ho, hid⟩ := SerialTable.byId?_eq_some.mp hrow
  have hcost : db.cost (.buy q) = o.itemPrice * q.count := by
    show (db.orders.byId? q.orderId).elim 0 Order.itemPrice * _ = _
    rw [hrow]
    rfl
  refine ⟨?_, o, ho, hid, require_eq_ok.mp hrevision, row, hsell, hkey, require_eq_ok.mp hcount⟩
  rw [hcost]
  rw [← Db.fund_orders hfund] at hrow
  have hdebit := x.fulfill_debits hfulfill (of_decide_eq_true hne) hrow
  exact fund_debit hfund ((Int.add_zero (o.itemPrice * q.count)) ▸ hdebit)

theorem write_spec {q : Request} (h : db.write x q = .ok db') :
    Db.Paid q.caller (db.cost q) db db' ∧ db.InOrder q := by
  cases q with
  | list q =>
    obtain ⟨⟨r, _⟩, hsell, rfl⟩ := map_eq_ok.mp h
    exact Db.sell_paid hsell
  | relist q =>
    obtain ⟨⟨r, _⟩, hrelist, rfl⟩ := map_eq_ok.mp h
    exact Db.relist_paid hrelist
  | cancel q =>
    obtain ⟨⟨r, _⟩, hcancel, rfl⟩ := map_eq_ok.mp h
    exact Db.cancel_paid hcancel
  | buy q =>
    obtain ⟨⟨r, _⟩, hbuy, rfl⟩ := map_eq_ok.mp h
    exact Db.buy_paid hbuy

end Payments

/-! ## The procedures as the writers describe them -/

def boughtBy (buyer : Nat) (purge : Int) (o : Order) : Order :=
  { o with revision := o.revision + 1, ownerId := buyer, expirationTime := some purge }

/-- `dune_exchange_fulfill_sell_order`, of a whole stack. -/
def Db.fulfillSellOrder (db : Db) (a : FulfillOrder) : Option Nat × Db :=
  match db.listing a.orderId with
  | some (o, row) =>
    if db.wallets a.buyerId < o.itemPrice * a.count + a.buyerFee ∨ o.revision ≠ a.revision ∨
        row.initialStackSize ≠ a.count ∨ a.maxOrders ≤ db.slotsUsed a.buyerId then (none, db)
    else
      (o.itemId,
        { db with
          land := { db.land with
            orders := db.orders.update (fun o => o.id = a.orderId) (boughtBy a.buyerId a.purgeTime)
            fulfilled := ⟨a.orderId, a.purchasedType, a.count, none, some a.orderId⟩ ::
              db.land.fulfilled }
          sellOrders := db.sellOrders.filter (·.orderId ≠ a.orderId)
          wallets := Function.update db.wallets a.buyerId
            (db.wallets a.buyerId - (o.itemPrice * a.count + a.buyerFee)) })
  | none => (none, db)

section Described

variable {db db' : Db} {owner : Nat} {amount : Int}

theorem Db.modifyUserSolariBalance_moves {balance : Int} (h : db.bank owner = some balance) :
    (db.modifyUserSolariBalance owner amount).wallets owner = db.wallets owner + amount ∧
      (db.modifyUserSolariBalance owner amount).bank owner = some (balance - amount) := by
  refine ⟨Function.update_self .., ?_⟩
  obtain ⟨b, hb, rfl⟩ := Option.map_eq_some_iff.mp h
  have hfound := List.find?_some hb
  have hkey := of_decide_eq_true hfound
  unfold Db.bank Db.modifyUserSolariBalance
  rw [List.find?_map]
  have hsame : (fun b : Balance => decide (b.playerControllerId = owner ∧
      b.currencyId = bankCurrencyId)) ∘ (fun b =>
        if b.playerControllerId = owner ∧ b.currencyId = bankCurrencyId then
          { b with balance := b.balance - amount }
        else b) =
      fun b => decide (b.playerControllerId = owner ∧ b.currencyId = bankCurrencyId) := by
    funext b
    dsimp only [Function.comp_apply]
    split <;> rfl
  rw [hsame, hb, Option.map_some, Option.map_some, if_pos hkey]

theorem Db.addSellOrder_debits {a : SellOrder} {added : Added} {id : Nat}
    (h : db.addSellOrder a = .ok (added, db')) (hid : added.orderId = some id) :
    Debited a.ownerId a.solariCost db db' := by
  unfold Db.addSellOrder at h
  split at h
  · split at h
    · cases h
      cases hid
    · obtain ⟨orders, -, h⟩ := bind_eq_ok.mp h
      cases h
      exact ⟨Function.update_self .., rfl⟩
  · cases h
    cases hid

theorem Db.relistOrder_debits {id price cost stack : Nat} {expiration : Int} {o : Order}
    (h : db.relistOrder id expiration price cost = (some stack, db')) (hstack : stack ≠ 0)
    (ho : db.orders.byId? id = some o) : Debited o.ownerId cost db db' := by
  unfold Db.relistOrder at h
  rw [ho] at h
  split at h
  · case h_1 _ _ heq _ =>
    cases heq
    split at h
    · cases h
      exact absurd rfl hstack
    · cases h
      exact ⟨Function.update_self .., rfl⟩
  · cases h
    exact absurd rfl hstack

theorem Db.fulfillSellOrder_debits {a : FulfillOrder} {item : Nat} {o : Order}
    (h : db.fulfillSellOrder a = (some item, db')) (ho : db.orders.byId? a.orderId = some o) :
    Debited a.buyerId (o.itemPrice * a.count + a.buyerFee) db db' := by
  unfold Db.fulfillSellOrder at h
  split at h
  · case h_1 o' row hlisting =>
    obtain rfl := Option.some.inj (ho.symm.trans (Db.of_listing hlisting).1)
    split at h
    · cases h
    · obtain ⟨-, rfl⟩ := Prod.mk.inj h
      exact ⟨Function.update_self .., rfl⟩
  · cases h

end Described

def Funded.described : Funded where
  toExchange := .described
  fulfillSellOrder a db := .ok (db.fulfillSellOrder a)
  modify_moves h hbank _ := by
    cases h
    exact Db.modifyUserSolariBalance_moves hbank
  add_debits h hid _ := Db.addSellOrder_debits h hid
  cancel_debits h owner := by
    cases h
    exact ⟨(Int.sub_zero _).symm, rfl⟩
  relist_debits h hstack ho := Db.relistOrder_debits (Except.ok.inj h) hstack ho
  fulfill_debits h _ ho := Db.fulfillSellOrder_debits (Except.ok.inj h) ho

/-- A write raises and leaves everything as it is, or has paid its cost from the bank, with the
wallet as before, for a request that was in order. The fee that is charged is the one of
`compute_fee`. -/
theorem write_funded (x : Funded) (db : Db) (q : Request) :
    ((∃ r, db.write x q = .error r) ∧ db.after x q = db ∨
      Db.Paid q.caller (db.cost q) db (db.after x q) ∧ db.InOrder q) ∧
    ∀ price days fee, sqlFee price days = some fee → price ≤ maxBigint →
      fee = computeFee price days := by
  refine ⟨?_, fun _ _ _ hfee hprice => sqlFee_eq hfee hprice⟩
  unfold Db.after
  cases hwrite : db.write x q with
  | error r => exact Or.inl ⟨⟨r, rfl⟩, rfl⟩
  | ok db' => exact Or.inr (write_spec hwrite)

/-- A fee of 22 out of 1000. -/
theorem copperBars_paid :
    (sampleDb.after .described (.list copperBars)).bank 11 = some 978 ∧
      (sampleDb.after .described (.list copperBars)).wallets 11 = 0 := by
  have hcommits : (sampleDb.write .described (.list copperBars)).toOption.isSome = true := by
    decide
  obtain ⟨⟨⟨r, hr⟩, -⟩ | ⟨hpaid, -⟩, -⟩ := write_funded .described sampleDb (.list copperBars)
  · rw [hr] at hcommits
    cases hcommits
  · exact ⟨hpaid.bank.trans (by decide), hpaid.wallet⟩

/-! ## A trader's writes, one after the other -/

/-- What the writes that commit have cost. -/
def Db.spent (x : Funded) : Db → List Request → Int
  | _, [] => 0
  | db, q :: qs =>
    (if (db.write x q).toOption.isSome then db.cost q else 0) + (db.after x q).spent x qs

/-- Over any writes of one trader his wallet is as before, his bank has paid what the writes that
commit have cost, and it is not overdrawn if it was not. -/
theorem trader_pays (x : Funded) {db : Db} {owner : Nat} {qs : List Request}
    (hcaller : ∀ q ∈ qs, q.caller = owner) :
    (qs.foldl (Db.after · x ·) db).wallets owner = db.wallets owner ∧
      (qs.foldl (Db.after · x ·) db).bank owner = (db.bank owner).map (· - db.spent x qs) ∧
      ((∀ b ∈ db.bank owner, 0 ≤ b) →
        ∀ b ∈ (qs.foldl (Db.after · x ·) db).bank owner, 0 ≤ b) := by
  induction qs generalizing db with
  | nil =>
    refine ⟨rfl, ?_, id⟩
    cases h : db.bank owner <;> simp [Db.spent, h]
  | cons q qs ih =>
    obtain ⟨hwallet, hbank, hsolvent⟩ := @ih (db.after x q)
      (fun q' hq' => hcaller q' (List.mem_cons_of_mem _ hq'))
    have howner := hcaller q (List.mem_cons_self ..)
    rw [List.foldl_cons, hwallet, hbank, Db.spent]
    cases hwrite : db.write x q with
    | error r =>
      have hsame : db.after x q = db := by rw [Db.after, hwrite]
      rw [hsame] at hbank hsolvent ⊢
      exact ⟨rfl, by simp [Except.toOption], hbank ▸ hsolvent⟩
    | ok db' =>
      have hnext : db.after x q = db' := by rw [Db.after, hwrite]
      obtain ⟨hpaid, -⟩ := write_spec hwrite
      rw [howner] at hpaid
      rw [hnext] at hbank hsolvent ⊢
      refine ⟨hpaid.wallet, ?_, fun hstart => hbank ▸ hsolvent (fun b hb => ?_)⟩
      · rw [hpaid.bank, Option.map_map]
        congr 1
        funext b
        simp only [Function.comp_apply, Except.toOption, Option.isSome_some, if_true]
        omega
      · rcases hpaid.covered with hzero | ⟨balance, hbalance, hnonneg⟩
        · rw [hpaid.bank, hzero] at hb
          obtain ⟨b', hb', rfl⟩ := Option.map_eq_some_iff.mp hb
          simpa using hstart b' hb'
        · rw [hbalance] at hb
          cases hb
          exact hnonneg

theorem trader_pays_twice :
    ([.list copperBars, .list copperBars].foldl (Db.after · .described ·) sampleDb).bank 11 =
      some (1000 - sampleDb.spent .described [.list copperBars, .list copperBars]) ∧
    sampleDb.spent .described [.list copperBars, .list copperBars] = 22 :=
  ⟨(trader_pays .described (by decide)).2.1, by decide⟩

end LastSietch.Market
