import LastSietch.Nights.Books

/-!
# Stock and limits of the Stall

A sale checks stock and limit against the orders that are not refunded, so these counts are
the only thing to follow: a sale adds one order to them, a refund takes one away, and no other
operation changes them.

`sales_within_limits` bounds the counts over every run in which the item keeps its stock and
limit, and says what a refund frees.
-/

namespace LastSietch.Nights

open Runs

def Order.counts (o : Order) (sku : String) (profileId : Option Nat) : Bool :=
  decide (o.sku = sku ∧ o.status ≠ .refunded ∧ ∀ p ∈ profileId, o.profileId = p)

theorem liveCount_eq (s : Shop) (sku : String) (profileId : Option Nat) :
    s.liveCount sku profileId = s.orders.rows.countP (fun o => o.counts sku profileId) := rfl

theorem counts_of_refunded {o : Order} (h : o.status = .refunded) (sku : String)
    (profileId : Option Nat) : o.counts sku profileId = false := by
  simp [Order.counts, h]

theorem counts_of_moves {s : Shop} {orders : Orders} {o o' : Order} (h : Moves s orders o o')
    (hstatus : o'.status ≠ .refunded) (sku : String) (profileId : Option Nat) :
    o'.counts sku profileId = o.counts sku profileId := by
  have hsku : o'.sku = o.sku := congrArg (fun i => i.2.2.2.2.2.1) h.identity
  have hprofile : o'.profileId = o.profileId := congrArg (fun i => i.2.2.1) h.identity
  simp [Order.counts, hsku, hprofile, hstatus, Books.not_refunded h.unsettled]

/-- The counts after one operation: a sale adds its order, a refund takes its order away. -/
inductive Counted (op : ShopOp) (s s' : Shop) : Prop
  | kept (hnew : ∀ q ∈ s'.orders, q.status = .refunded → q ∈ s.orders)
      (h : ∀ sku profileId, s'.liveCount sku profileId = s.liveCount sku profileId)
  | sold (catalog : Catalog) (orders : Orders) (ledger : ShopLedger) (row : CatalogRow) (o : Order)
      (hop : op.catalog? = some catalog) (hp : Placed s catalog orders ledger row o)
      (hnew : ∀ q ∈ s'.orders, q.status = .refunded → q ∈ s.orders)
      (h : ∀ sku profileId, s'.liveCount sku profileId =
        s.liveCount sku profileId + if o.counts sku profileId then 1 else 0)
  | refunded (o : Order) (ho : o ∈ s.orders) (hold : o.status ≠ .refunded)
      (hnew : ∀ q ∈ s'.orders, q.status = .refunded → q.id = o.id ∨ q ∈ s.orders)
      (h : ∀ sku profileId, (s'.liveCount sku profileId +
        if o.counts sku profileId then 1 else 0) = s.liveCount sku profileId)

theorem perform_counted (s : Shop) (op : ShopOp) : Counted op s (s.perform op) := by
  have hchange := perform_change s op
  revert hchange
  generalize s.perform op = s'
  intro hchange
  cases hchange with
  | placed catalog orders ledger row o hop hp =>
    refine Counted.sold catalog orders ledger row o hop hp (fun q hq hs => ?_)
      (fun sku profileId => ?_)
    · rcases (SerialTable.mem_of_rows hp.rows).mp hq with rfl | hq
      · rcases hp.status with hstatus | ⟨hstatus, -⟩ <;> simp [hstatus] at hs
      · exact hq
    · rw [liveCount_eq, liveCount_eq]
      show orders.rows.countP _ = _
      rw [hp.rows, List.countP_cons]
  | moved orders o o' hm hstatus hfailed =>
    refine Counted.kept (fun q hq hs => ?_) (fun sku profileId => ?_)
    · rcases hm.replaced.mem_iff.mp hq with rfl | ⟨hq, -⟩
      · exact absurd hs hstatus
      · exact hq
    · have hcount := hm.replaced.countP (fun q => q.counts sku profileId)
      rw [counts_of_moves hm hstatus] at hcount
      rw [liveCount_eq, liveCount_eq]
      show orders.rows.countP _ = _
      omega
  | refunded orders o o' hm hstatus hcause =>
    refine Counted.refunded o hm.replaced.mem (Books.not_refunded hm.unsettled) ?_ ?_
    · intro q hq _
      rcases hm.replaced.mem_iff.mp hq with rfl | ⟨hq, -⟩
      · exact Or.inl hm.replaced.id_eq
      · exact Or.inr hq
    · intro sku profileId
      have hcount := hm.replaced.countP (fun q => q.counts sku profileId)
      rw [counts_of_refunded hstatus] at hcount
      simp only [Bool.false_eq_true, if_false, add_zero] at hcount
      exact hcount
  | _ => exact Counted.kept (fun q hq _ => hq) (fun _ _ => rfl)

/-! ## Limits over every run -/

def ShopOp.Offers (op : ShopOp) (sku : String) (stock : Option Nat) (limit : Nat) : Prop :=
  ∀ catalog row, op.catalog? = some catalog → catalog.get? sku = some row →
    row.stock = stock ∧ row.perProfileLimit = limit

structure Within (s : Shop) (sku : String) (stock : Option Nat) (limit : Nat) : Prop where
  stock : ∀ n, stock = some n → s.liveCount sku none ≤ n
  limit : ∀ p, s.liveCount sku (some p) ≤ limit

theorem Within.step {s : Shop} {sku : String} {stock : Option Nat} {limit : Nat}
    (h : Within s sku stock limit) {op : ShopOp} (hop : op.Offers sku stock limit) :
    Within (s.perform op) sku stock limit := by
  cases perform_counted s op with
  | kept hnew hcount =>
    refine ⟨fun n hn => ?_, fun p => ?_⟩
    · rw [hcount]
      exact h.stock n hn
    · rw [hcount]
      exact h.limit p
  | refunded o ho hold hnew hcount =>
    refine ⟨fun n hn => ?_, fun p => ?_⟩
    · have := hcount sku none
      have := h.stock n hn
      omega
    · have := hcount sku (some p)
      have := h.limit p
      omega
  | sold catalog orders ledger row o hcat hp hnew hcount =>
    by_cases hsku : o.sku = sku
    · subst hsku
      obtain ⟨hstock, hlimit⟩ := hop catalog row hcat hp.listed
      refine ⟨fun n hn => ?_, fun p => ?_⟩
      · have hroom := hp.stock n (hstock.trans hn)
        rw [hcount]
        split <;> omega
      · by_cases hprofile : o.profileId = p
        · have hroom := hp.limit
          rw [hlimit, hprofile] at hroom
          rw [hcount]
          split <;> omega
        · have hother : o.counts o.sku (some p) = false := by simp [Order.counts, hprofile]
          rw [hcount, hother]
          exact h.limit p
    · have hother : ∀ profileId, o.counts sku profileId = false := by
        intro profileId
        simp [Order.counts, hsku]
      refine ⟨fun n hn => ?_, fun p => ?_⟩
      · rw [hcount, hother]
        exact h.stock n hn
      · rw [hcount, hother]
        exact h.limit p

/-- Over every run of orders, refunds and deliveries in which an item keeps its stock and
limit: what is not refunded of it is within its stock and, for every profile, within the
limit; and an operation that refunds an order takes one from the counts of its item and of
its profile, and from no others. -/
theorem sales_within_limits {ops : List ShopOp} {s : Shop}
    (hrun : exec shopStep Shop.start ops = some s) {sku : String} {stock : Option Nat}
    {limit : Nat} (hoffers : ∀ op ∈ ops, op.Offers sku stock limit) :
    (∀ n, stock = some n → s.liveCount sku none ≤ n) ∧
      (∀ p, s.liveCount sku (some p) ≤ limit) ∧
      ∀ op, ∀ o ∈ s.orders, o.status ≠ .refunded →
        (∃ o' ∈ (s.perform op).orders, o'.id = o.id ∧ o'.status = .refunded) →
        ∀ item, s.liveCount item none =
            (s.perform op).liveCount item none + (if o.sku = item then 1 else 0) ∧
          ∀ p, s.liveCount item (some p) = (s.perform op).liveCount item (some p) +
            (if o.sku = item ∧ o.profileId = p then 1 else 0) := by
  have hwithin : Within s sku stock limit := by
    have hstart : Within Shop.start sku stock limit :=
      ⟨fun n _ => Nat.zero_le n, fun p => Nat.zero_le limit⟩
    exact @exec_invariant _ _ _ _ (fun m => Within m sku stock limit)
      (fun m op m' hm hop hstep => Option.some.inj hstep ▸ hm.step hop.1) _ _ _ hstart
      (along_and hoffers (along_true _ _)) hrun
  refine ⟨hwithin.stock, hwithin.limit, ?_⟩
  rintro op o ho hopen ⟨o', ho', hid, hrefunded⟩ item
  have hne : o' ∉ s.orders := by
    intro hold
    have heq : o' = o := SerialTable.eq_of_id_eq hold ho hid
    exact hopen (heq ▸ hrefunded)
  have hone : ∀ profileId, (s.perform op).liveCount item profileId +
      (if o.counts item profileId then 1 else 0) = s.liveCount item profileId := by
    intro profileId
    cases perform_counted s op with
    | kept hnew hcount => exact absurd (hnew o' ho' hrefunded) hne
    | sold catalog orders ledger row q hcat hp hnew hcount =>
      exact absurd (hnew o' ho' hrefunded) hne
    | refunded q hq hold hnew hcount =>
      have hqo : q.id = o.id := by
        rcases hnew o' ho' hrefunded with h | h
        · exact h.symm.trans hid
        · exact absurd h hne
      rw [← SerialTable.eq_of_id_eq hq ho hqo]
      exact hcount item profileId
  refine ⟨?_, fun p => ?_⟩
  · rw [← hone none]
    simp [Order.counts, hopen]
  · rw [← hone (some p)]
    simp [Order.counts, hopen]

/-- Profile 1 buys the only still. Profile 2 is refused until the bank turns it down; then the
still is there for profile 2. -/
def lastStillRun : List ShopOp :=
  [.adminAward 1 10 "case-1", .adminAward 2 10 "case-1",
    .placeOrder 1 "sn-still" stillKey stall 5 (some 10) (some 100),
    .placeOrder 2 "sn-still" giftKey stall 6 (some 20) (some 200),
    .beginDelivery 1 7, .applyOutcome 1 (some bankFull),
    .placeOrder 2 "sn-still" giftKey stall 8 (some 20) (some 200)]

theorem lastStillRun_offers : ∀ op ∈ lastStillRun, op.Offers "sn-still" (some 1) 1 := by
  have hstill : ∀ row, stall.get? "sn-still" = some row → row.stock = some 1 ∧
      row.perProfileLimit = 1 := by
    intro row hrow
    have hget : stall.get? "sn-still" = some ⟨"sn-still", .bank, 6, 1, some 1, 0, 100, false,
      false⟩ := by decide
    rw [hget] at hrow
    cases hrow
    exact ⟨rfl, rfl⟩
  intro op hop catalog row hcat hrow
  simp only [lastStillRun, List.mem_cons, List.not_mem_nil, or_false] at hop
  rcases hop with rfl | rfl | rfl | rfl | rfl | rfl | rfl <;> cases hcat <;> exact hstill row hrow

theorem sales_within_limits_still :
    ∃ s, exec shopStep Shop.start lastStillRun = some s ∧
      s.liveCount "sn-still" none = 1 ∧ s.liveCount "sn-still" (some 2) = 1 ∧
      s.liveCount "sn-still" (some 1) = 0 ∧
      (∀ n, some 1 = some n → s.liveCount "sn-still" none ≤ n) ∧
      ∀ p, s.liveCount "sn-still" (some p) ≤ 1 := by
  have hrun := (Option.some_get (show (exec shopStep Shop.start lastStillRun).isSome by rfl)).symm
  obtain ⟨hstock, hlimit, -⟩ := sales_within_limits hrun lastStillRun_offers
  exact ⟨_, hrun, by decide, by decide, by decide, hstock, hlimit⟩

end LastSietch.Nights
