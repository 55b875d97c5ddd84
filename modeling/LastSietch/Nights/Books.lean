import LastSietch.Nights.Shop

/-!
# The books of the Stall

`Books` couples the orders with the ledger: no balance is negative, an order has the debit of
its price and, when it is refunded, one refund of the same amount. A free order has neither
row. Every operation keeps it.
-/

namespace LastSietch.Nights

open Runs

theorem posted_cons (r : LedgerRow) (rows : List LedgerRow) (p : Nat) :
    posted (r :: rows) p = (if r.profileId = p then r.delta else 0) + posted rows p := by
  unfold posted
  by_cases h : r.profileId = p <;> simp [h]

theorem earned_of_rows {t t' : Credits} {row : CreditRow} (h : t'.rows = row :: t.rows) (p : Nat) :
    earned t' p = (if row.profileId = p then row.delta else 0) + earned t p := by
  unfold earned
  rw [h]
  by_cases hp : row.profileId = p <;> simp [hp]

theorem earned_grows (x : Int) (p : Nat) : Grows (fun t => x ≤ earned t p) := by
  intro t t' row hrows hpos h
  show x ≤ earned t' p
  rw [earned_of_rows hrows]
  split
  · omega
  · omega

theorem earned_le_apply (s : Sys) (a : Act) (p : Nat) :
    earned s.credits p ≤ earned (s.apply a).credits p :=
  (earned_grows (earned s.credits p) p).apply a (le_refl _)

def orderSum (t : ShopLedger) (orderId : Nat) : Int :=
  ((t.rows.filter (fun r => r.key = .debit orderId ∨ r.key = .refund orderId)).map
    LedgerRow.delta).sum

theorem orderSum_eq (t : ShopLedger) (orderId : Nat) :
    orderSum t orderId = ((t.get? (.debit orderId)).map LedgerRow.delta).getD 0 +
      ((t.get? (.refund orderId)).map LedgerRow.delta).getD 0 := by
  have hnd : [LedgerKey.debit orderId, .refund orderId].Nodup := by simp
  have hsum := Table.sum_keys t hnd (g := fun k => k) Function.injective_id
    (q := fun r => decide (r.key = .debit orderId ∨ r.key = .refund orderId)) LedgerRow.delta
    (by simp)
  simp only [List.map_cons, List.map_nil, List.sum_cons, List.sum_nil, add_zero] at hsum
  exact hsum.symm

/-! ## Posting a row -/

variable {t t' : ShopLedger} {row : Option LedgerRow}

theorem post?_eq_some (h : ShopLedger.post? t row = some t') :
    (row = none ∧ t' = t) ∨ ∃ r, row = some r ∧ t.insert? r = some t' := by
  cases row with
  | none =>
    cases h
    exact Or.inl ⟨rfl, rfl⟩
  | some r => exact Or.inr ⟨r, rfl, h⟩

theorem get?_post? (h : ShopLedger.post? t row = some t') (k : LedgerKey) :
    t'.get? k = (row.filter (fun r => decide (r.key = k))).or (t.get? k) := by
  rcases post?_eq_some h with ⟨rfl, rfl⟩ | ⟨r, rfl, hins⟩
  · rfl
  · rw [Table.get?_insert? hins]
    by_cases hk : r.key = k <;> simp [Option.filter_some, hk]

theorem posted_post? (h : ShopLedger.post? t row = some t') (p : Nat) :
    posted t'.rows p =
      ((row.filter (fun r => decide (r.profileId = p))).map LedgerRow.delta).getD 0 +
        posted t.rows p := by
  rcases post?_eq_some h with ⟨rfl, rfl⟩ | ⟨r, rfl, hins⟩
  · simp
  · rw [Table.rows_insert? hins, posted_cons]
    by_cases hp : r.profileId = p <;> simp [Option.filter_some, hp]

theorem mem_post? (h : ShopLedger.post? t row = some t') {r : LedgerRow} (hr : r ∈ t') :
    row = some r ∨ r ∈ t := by
  rcases post?_eq_some h with ⟨-, rfl⟩ | ⟨q, rfl, hins⟩
  · exact Or.inr hr
  · rcases (Table.mem_insert? hins).mp hr with rfl | hr
    · exact Or.inl rfl
    · exact Or.inr hr

theorem post?_eq_post (hfree : ∀ r, row = some r → t.get? r.key = none) :
    ShopLedger.post? t row = some (ShopLedger.post t row) := by
  cases row with
  | none => rfl
  | some r =>
    cases hins : t.insert? r with
    | some t' => simp [ShopLedger.post, ShopLedger.post?, hins]
    | none =>
      obtain ⟨q, hq, hkey⟩ := Table.insert?_eq_none.mp hins
      have hget : t.get? r.key = some q := Table.get?_eq_some.mpr ⟨hq, hkey⟩
      rw [hfree r rfl] at hget
      cases hget

theorem of_debitRow {p price i : Nat} {r : LedgerRow} (h : debitRow p price i = some r) :
    r.key = .debit i ∧ r.profileId = p ∧ r.delta = -(price : Int) := by
  unfold debitRow at h
  split at h
  · cases h
    exact ⟨rfl, rfl, rfl⟩
  · cases h

theorem of_refundRow {p price i : Nat} {r : LedgerRow} (h : refundRow p price i = some r) :
    r.key = .refund i ∧ r.profileId = p ∧ r.delta = (price : Int) := by
  unfold refundRow at h
  split at h
  · cases h
    exact ⟨rfl, rfl, rfl⟩
  · cases h

theorem delta_debitRow (p price i : Nat) :
    ((debitRow p price i).map LedgerRow.delta).getD 0 = -(price : Int) := by
  unfold debitRow
  split
  · rfl
  · simp only [Option.map_none, Option.getD_none]
    omega

theorem delta_refundRow (p price i : Nat) :
    ((refundRow p price i).map LedgerRow.delta).getD 0 = (price : Int) := by
  unfold refundRow
  split
  · rfl
  · simp only [Option.map_none, Option.getD_none]
    omega

/-! ## The invariant -/

def Order.refundPosted (o : Order) : Option LedgerRow :=
  if o.status = .refunded then refundRow o.profileId o.price o.id else none

structure Books (s : Shop) : Prop where
  bounded : Bounded s.sys.credits
  solvent : ∀ p, 0 ≤ s.balance p
  debits : ∀ o ∈ s.orders, s.ledger.get? (.debit o.id) = debitRow o.profileId o.price o.id
  refunds : ∀ o ∈ s.orders, s.ledger.get? (.refund o.id) = o.refundPosted
  below : ∀ r ∈ s.ledger, ∀ i, r.key = .debit i ∨ r.key = .refund i → i < s.orders.next

theorem books_start : Books Shop.start where
  bounded := Bounded.empty
  solvent _ := le_refl _
  debits o ho := absurd ho (SerialTable.not_mem_empty o)
  refunds o ho := absurd ho (SerialTable.not_mem_empty o)
  below r hr := absurd hr (Table.not_mem_empty r)

namespace Books

variable {s : Shop}

theorem free_of_next (h : Books s) {k : LedgerKey}
    (hk : k = .debit s.orders.next ∨ k = .refund s.orders.next) : s.ledger.get? k = none := by
  refine Table.get?_eq_none.mpr (fun r hr hkey => ?_)
  subst hkey
  exact lt_irrefl _ (h.below r hr _ hk)

theorem earn (h : Books s) (a : Act) : Books { s with sys := s.sys.apply a } where
  bounded := h.bounded.apply a
  solvent p := by
    have hle := earned_le_apply s.sys a p
    have hold := h.solvent p
    simp only [Shop.balance] at hold ⊢
    omega
  debits := h.debits
  refunds := h.refunds
  below := h.below

theorem award (h : Books s) {ledger : ShopLedger} {row : LedgerRow} {p : Nat} {c : String}
    (hkey : row.key = .admin p c) (hpos : 0 < row.delta) (hrows : ledger.rows = row :: s.ledger.rows) :
    Books { s with ledger } where
  bounded := h.bounded
  solvent q := by
    have hold := h.solvent q
    simp only [Shop.balance, hrows, posted_cons] at hold ⊢
    split <;> omega
  debits o ho := by
    have hget : ledger.get? (.debit o.id) = s.ledger.get? (.debit o.id) := by
      simp [Table.get?, hrows, hkey]
    rw [hget]
    exact h.debits o ho
  refunds o ho := by
    have hget : ledger.get? (.refund o.id) = s.ledger.get? (.refund o.id) := by
      simp [Table.get?, hrows, hkey]
    rw [hget]
    exact h.refunds o ho
  below r hr i hi := by
    rcases (Table.mem_of_rows hrows).mp hr with rfl | hr
    · simp [hkey] at hi
    · exact h.below r hr i hi

variable {orders : Orders} {o o' : Order}

theorem place (h : Books s) {catalog : Catalog} {ledger : ShopLedger}
    {row : CatalogRow} (hp : Placed s catalog orders ledger row o) :
    Books { s with orders, ledger } where
  bounded := h.bounded
  solvent p := by
    have hold := h.solvent p
    have hsolvent := hp.solvent
    have hposted := posted_post? hp.posted p
    have hdelta := delta_debitRow o.profileId o.price o.id
    simp only [Shop.balance] at hold hsolvent ⊢
    rw [hposted]
    by_cases hpo : o.profileId = p
    · subst hpo
      have hfilter : (debitRow o.profileId o.price o.id).filter
          (fun r => decide (r.profileId = o.profileId)) = debitRow o.profileId o.price o.id := by
        unfold debitRow
        split <;> simp
      rw [hfilter, hdelta]
      omega
    · have hfilter : (debitRow o.profileId o.price o.id).filter
          (fun r => decide (r.profileId = p)) = none := by
        unfold debitRow
        split <;> simp [hpo]
      rw [hfilter]
      simpa using hold
  debits q hq := by
    show ledger.get? (.debit q.id) = _
    rw [get?_post? hp.posted]
    rcases (SerialTable.mem_of_rows hp.rows).mp hq with rfl | hq
    · rw [h.free_of_next (Or.inl (congrArg _ hp.fresh)), Option.or_none]
      unfold debitRow
      split <;> simp
    · have hne : q.id ≠ o.id := by
        have := SerialTable.id_lt_next hq
        have := hp.fresh
        omega
      have hfilter : (debitRow o.profileId o.price o.id).filter
          (fun r => decide (r.key = .debit q.id)) = none := by
        unfold debitRow
        split <;> simp [hne.symm]
      rw [hfilter]
      exact h.debits q hq
  refunds q hq := by
    show ledger.get? (.refund q.id) = _
    have hfilter : (debitRow o.profileId o.price o.id).filter
        (fun r => decide (r.key = .refund q.id)) = none := by
      unfold debitRow
      split <;> simp
    rw [get?_post? hp.posted, hfilter, Option.none_or]
    rcases (SerialTable.mem_of_rows hp.rows).mp hq with rfl | hq
    · rw [h.free_of_next (Or.inr (congrArg _ hp.fresh))]
      have hopen : q.status ≠ .refunded := by
        rcases hp.status with hs | ⟨hs, -⟩ <;> simp [hs]
      exact (if_neg hopen).symm
    · exact h.refunds q hq
  below r hr i hi := by
    show i < orders.next
    rw [hp.next]
    rcases mem_post? hp.posted hr with hrow | hr
    · obtain ⟨hkey, -, -⟩ := of_debitRow hrow
      rw [hkey, hp.fresh] at hi
      rcases hi with hi | hi
      · cases hi
        exact Nat.lt_succ_self _
      · cases hi
    · exact Nat.lt_succ_of_lt (h.below r hr i hi)

theorem debit_identity (h : o'.identity = o.identity) :
    o'.id = o.id ∧ o'.profileId = o.profileId ∧ o'.price = o.price :=
  ⟨congrArg (fun i => i.1) h, congrArg (fun i => i.2.2.1) h,
    congrArg (fun i => i.2.2.2.2.2.2.2) h⟩

theorem not_refunded (h : o.status.settled = false) : o.status ≠ .refunded := by
  intro hs
  rw [hs] at h
  cases h

theorem move (h : Books s) (hm : Moves s orders o o')
    (hstatus : o'.status ≠ .refunded) : Books { s with orders } where
  bounded := h.bounded
  solvent := h.solvent
  debits q hq := by
    obtain ⟨hid, hprofile, hprice⟩ := debit_identity hm.identity
    rcases hm.replaced.mem_iff.mp hq with rfl | ⟨hq, -⟩
    · rw [hid, hprofile, hprice]
      exact h.debits o hm.replaced.mem
    · exact h.debits q hq
  refunds q hq := by
    obtain ⟨hid, -, -⟩ := debit_identity hm.identity
    rcases hm.replaced.mem_iff.mp hq with rfl | ⟨hq, -⟩
    · have hold := h.refunds o hm.replaced.mem
      rw [Order.refundPosted, if_neg (not_refunded hm.unsettled)] at hold
      rw [Order.refundPosted, if_neg hstatus, hid]
      exact hold
    · exact h.refunds q hq
  below r hr i hi := by
    show i < orders.next
    rw [hm.replaced.next]
    exact h.below r hr i hi

theorem refund (h : Books s) (hm : Moves s orders o o') (hstatus : o'.status = .refunded) :
    Books { s with
      orders
      ledger := ShopLedger.post s.ledger (refundRow o.profileId o.price o.id) } := by
  obtain ⟨hid, hprofile, hprice⟩ := debit_identity hm.identity
  have hnone : s.ledger.get? (.refund o.id) = none := by
    rw [h.refunds o hm.replaced.mem, Order.refundPosted, if_neg (not_refunded hm.unsettled)]
  have hpost : ShopLedger.post? s.ledger (refundRow o.profileId o.price o.id) =
      some (ShopLedger.post s.ledger (refundRow o.profileId o.price o.id)) := by
    refine post?_eq_post (fun r hr => ?_)
    rw [(of_refundRow hr).1]
    exact hnone
  refine ⟨h.bounded, fun p => ?_, fun q hq => ?_, fun q hq => ?_, fun r hr i hi => ?_⟩
  · have hold := h.solvent p
    have hle : 0 ≤ (((refundRow o.profileId o.price o.id).filter
        (fun r => decide (r.profileId = p))).map LedgerRow.delta).getD 0 := by
      cases hrow : (refundRow o.profileId o.price o.id).filter (fun r => decide (r.profileId = p)) with
      | none => simp
      | some r =>
        have hmem := (Option.filter_eq_some_iff.mp hrow).1
        simp [(of_refundRow hmem).2.2]
    simp only [Shop.balance] at hold ⊢
    rw [posted_post? hpost p]
    omega
  · have hkeep : (ShopLedger.post s.ledger (refundRow o.profileId o.price o.id)).get?
        (.debit q.id) = s.ledger.get? (.debit q.id) := by
      rw [get?_post? hpost]
      unfold refundRow
      split <;> simp [Option.filter_some]
    rw [hkeep]
    rcases hm.replaced.mem_iff.mp hq with rfl | ⟨hq, -⟩
    · rw [hid, hprofile, hprice]
      exact h.debits o hm.replaced.mem
    · exact h.debits q hq
  · show (ShopLedger.post s.ledger (refundRow o.profileId o.price o.id)).get? (.refund q.id) = _
    rw [get?_post? hpost]
    rcases hm.replaced.mem_iff.mp hq with rfl | ⟨hq, hne⟩
    · rw [hid, hnone, Option.or_none, Order.refundPosted, if_pos hstatus, hid, hprofile, hprice]
      unfold refundRow
      split <;> simp
    · have hfilter : (refundRow o.profileId o.price o.id).filter
          (fun r => decide (r.key = .refund q.id)) = none := by
        unfold refundRow
        split <;> simp [Ne.symm hne]
      rw [hfilter]
      exact h.refunds q hq
  · show i < orders.next
    rw [hm.replaced.next]
    rcases mem_post? hpost hr with hrow | hr
    · have hlt := SerialTable.id_lt_next hm.replaced.mem
      rw [(of_refundRow hrow).1] at hi
      rcases hi with hi | hi
      · cases hi
      · cases hi
        exact hlt
    · exact h.below r hr i hi

theorem step (h : Books s) (op : ShopOp) : Books (s.perform op) := by
  have hchange := perform_change s op
  revert hchange
  generalize s.perform op = s'
  intro hchange
  cases hchange with
  | same => exact h
  | earned a hpost => exact h.earn a
  | awarded ledger row p c hkey hpos hrows => exact h.award hkey hpos hrows
  | placed catalog orders ledger row o hop hp => exact h.place hp
  | moved orders o o' hm hstatus hfailed => exact h.move hm hstatus
  | refunded orders o o' hm hstatus hcause => exact h.refund hm hstatus

theorem orderSum (h : Books s) (ho : o ∈ s.orders) :
    orderSum s.ledger o.id = if o.status = .refunded then 0 else -(o.price : Int) := by
  rw [orderSum_eq, h.debits o ho, h.refunds o ho, delta_debitRow, Order.refundPosted]
  split
  · rw [delta_refundRow]
    omega
  · simp

theorem refundRow_iff (h : Books s) (ho : o ∈ s.orders) (hprice : 0 < o.price) :
    (∃ r ∈ s.ledger, r.key = .refund o.id) ↔ o.status = .refunded := by
  have hget := h.refunds o ho
  constructor
  · rintro ⟨r, hr, hkey⟩
    by_contra hs
    rw [Order.refundPosted, if_neg hs] at hget
    exact Table.get?_eq_none.mp hget r hr hkey
  · intro hs
    rw [Order.refundPosted, if_pos hs, refundRow, dif_pos hprice] at hget
    obtain ⟨hr, hkey⟩ := Table.get?_eq_some.mp hget
    exact ⟨_, hr, hkey⟩

end Books

def SettledAs (o : Order) (s : Shop) : Prop :=
  o.status.settled = true ∧ ∃ o' ∈ s.orders, o'.id = o.id ∧ o'.status = o.status

theorem SettledAs.step {o : Order} {s : Shop} (h : SettledAs o s) (op : ShopOp) :
    SettledAs o (s.perform op) := by
  obtain ⟨hset, o', ho', hid, hstatus⟩ := h
  have hkeep : ∀ {orders : Orders} {q q' : Order}, Moves s orders q q' → o' ∈ orders := by
    intro orders q q' hm
    refine hm.replaced.mem_iff.mpr (Or.inr ⟨ho', fun hq => ?_⟩)
    have heq : o' = q := SerialTable.eq_of_id_eq ho' hm.replaced.mem hq
    have hunset := hm.unsettled
    rw [← heq, hstatus, hset] at hunset
    cases hunset
  refine ⟨hset, o', ?_, hid, hstatus⟩
  have hchange := perform_change s op
  revert hchange
  generalize s.perform op = s'
  intro hchange
  cases hchange with
  | placed catalog orders ledger row q hop hp =>
    exact (SerialTable.mem_of_rows hp.rows).mpr (Or.inr ho')
  | moved orders q q' hm hs hfailed => exact hkeep hm
  | refunded orders q q' hm hs hcause => exact hkeep hm
  | _ => exact ho'

/-! ## The Stall among the acts of the event -/

def LedgerKey.kind : LedgerKey → EntryKind
  | .debit _ => .order
  | .refund _ => .refund
  | .admin _ _ => .adminAdjust

def Shop.asSys (s : Shop) : Sys :=
  { s.sys with
    entries := s.ledger.rows.reverse.map (fun r => ⟨r.profileId, r.key.kind, r.delta⟩) }

theorem balance_asSys (s : Shop) (p : Nat) : s.asSys.balance p = s.balance p := by
  have hposted : (s.asSys.entries.filter (fun e => e.profileId = p)).map Entry.delta =
      ((s.ledger.rows.filter (fun r => r.profileId = p)).map LedgerRow.delta).reverse := by
    simp only [Shop.asSys, List.filter_map, List.map_map, List.filter_reverse, List.map_reverse]
    rfl
  simp only [Sys.balance, Shop.balance, hposted, List.sum_reverse]
  rfl

theorem apply_entries (s : Sys) {a : Act} (hpost : a.isPost = false) (es : List Entry) :
    ({ s with entries := es } : Sys).apply a = { s.apply a with entries := es } := by
  cases a with
  | post entry => cases hpost
  | unlink p a => rfl
  | addEarn accountId night source ref amount =>
    simp only [Sys.apply, Sys.addEarn]
    by_cases h : 0 < amount
    · simp only [dif_pos h]
      cases s.earn.insert? (fun id => ⟨id, accountId, night, source, ref, amount, h⟩) <;> rfl
    · simp only [dif_neg h]
  | link p a =>
    simp only [Sys.apply, Sys.link]
    split <;> rfl
  | recordEarly accountId early =>
    simp only [Sys.apply, Sys.recordEarly]
    split <;> rfl
  | recordLevel accountId lvl =>
    simp only [Sys.apply, Sys.recordLevel]
    split
    · rfl
    · split <;> rfl
  | creditProfile p accounts =>
    by_cases h : accounts.getD (s.profileAccounts p) = [] ∨
        s.profileEligible (accounts.getD (s.profileAccounts p)) = false
    · have hs : (s.creditProfile p accounts).1 = s := congrArg Prod.fst (if_pos h)
      have hes : (({ s with entries := es } : Sys).creditProfile p accounts).1 =
          { s with entries := es } := congrArg Prod.fst (if_pos h)
      simp only [Sys.apply, hs, hes]
    · have hs := congrArg Prod.fst (show s.creditProfile p accounts = _ from if_neg h)
      have hes := congrArg Prod.fst
        (show ({ s with entries := es } : Sys).creditProfile p accounts = _ from if_neg h)
      simp only [Sys.apply, hs, hes]
      rfl

theorem reaches_post {s s' : Shop} {row : Option LedgerRow} (hsys : s'.sys = s.sys)
    (h : ShopLedger.post? s.ledger row = some s'.ledger) : Reaches s.asSys s'.asSys := by
  rcases post?_eq_some h with ⟨-, hledger⟩ | ⟨r, -, hins⟩
  · have heq : s'.asSys = s.asSys := by simp only [Shop.asSys, hsys, hledger]
    rw [heq]
    exact Reaches.refl _
  · have heq : s'.asSys = s.asSys.apply (.post ⟨r.profileId, r.key.kind, r.delta⟩) := by
      simp [Shop.asSys, Sys.apply, hsys, Table.rows_insert? hins]
    rw [heq]
    exact Reaches.act _ _

theorem perform_reaches_asSys {s : Shop} (h : Books s) (op : ShopOp) :
    Reaches s.asSys (s.perform op).asSys := by
  have hchange := perform_change s op
  revert hchange
  generalize s.perform op = s'
  intro hchange
  cases hchange with
  | same => exact Reaches.refl _
  | earned a hpost =>
    have heq : ({ s with sys := s.sys.apply a } : Shop).asSys = s.asSys.apply a :=
      (apply_entries s.sys hpost _).symm
    rw [heq]
    exact Reaches.act _ _
  | awarded ledger row p c hkey hpos hrows =>
    have heq : ({ s with ledger } : Shop).asSys =
        s.asSys.apply (.post ⟨row.profileId, row.key.kind, row.delta⟩) := by
      simp [Shop.asSys, Sys.apply, hrows]
    rw [heq]
    exact Reaches.act _ _
  | placed catalog orders ledger row o hop hp => exact reaches_post rfl hp.posted
  | moved orders o o' hm hstatus hfailed => exact Reaches.refl _
  | refunded orders o o' hm hstatus hcause =>
    refine reaches_post rfl (post?_eq_post (fun r hr => ?_))
    rw [(of_refundRow hr).1, h.refunds o hm.replaced.mem, Order.refundPosted,
      if_neg (Books.not_refunded hm.unsettled)]

/-! ## The books over every run -/

/-- Over every run of orders, deliveries, outcomes, refunds, acks, awards and credits: no
balance is negative, the rows of every order sum to minus its price or, when it is refunded,
to 0, a priced order has a refund row exactly when it is refunded, and whatever comes later
leaves a delivered order delivered and a refunded one refunded. -/
theorem books_balance {ops : List ShopOp} {s : Shop}
    (hrun : exec shopStep Shop.start ops = some s) :
    (∀ p, 0 ≤ s.balance p) ∧
      ∀ o ∈ s.orders,
        orderSum s.ledger o.id = (if o.status = .refunded then 0 else -(o.price : Int)) ∧
        (0 < o.price → ((∃ r ∈ s.ledger, r.key = .refund o.id) ↔ o.status = .refunded)) ∧
        ∀ later s', exec shopStep s later = some s' → o.status = .delivered ∨
          o.status = .refunded → ∃ o' ∈ s'.orders, o'.id = o.id ∧ o'.status = o.status := by
  have hbooks : Books s :=
    exec_invariant' (fun m op m' hm hop => Option.some.inj hop ▸ hm.step op) books_start hrun
  refine ⟨hbooks.solvent, fun o ho => ⟨hbooks.orderSum ho, hbooks.refundRow_iff ho, ?_⟩⟩
  intro later s' hlater hdone
  have hset : o.status.settled = true := by
    rcases hdone with hs | hs <;> rw [hs] <;> rfl
  have hsettled : SettledAs o s' :=
    exec_invariant' (fun m op m' hm hop => Option.some.inj hop ▸ hm.step op)
      ⟨hset, o, ho, rfl, rfl⟩ hlater
  exact hsettled.2

/-! A profile with an award of 10 buys a bank item for 6; the writer finds the bank full and
the order is refunded. Then it takes a free item. -/

def stall : Catalog :=
  ⟨[⟨"sn-still", .bank, 6, 1, some 1, 0, 100, false, false⟩,
    ⟨"sn-gift", .wallet, 0, 2, none, 0, 100, false, false⟩,
    ⟨"sn-frame", .prefs, 0, 1, none, 0, 100, false, false⟩], by decide⟩

def stillKey : String := "00000000-0000-0000-0000-00000000000a"
def giftKey : String := "00000000-0000-0000-0000-00000000000b"
def frameKey : String := "00000000-0000-0000-0000-00000000000c"

def bankFull : Outcome := ⟨.failed, some .capacity, none, none, none⟩

def stillRun : List ShopOp :=
  [.adminAward 1 10 "case-1", .placeOrder 1 "sn-still" stillKey stall 5 (some 10) (some 100),
    .beginDelivery 1 5, .applyOutcome 1 (some bankFull)]

theorem books_balance_still :
    ∃ s, exec shopStep Shop.start stillRun = some s ∧ s.balance 1 = 10 ∧
      (∃ o ∈ s.orders, o.status = .refunded ∧ o.price = 6) ∧
      (∀ p, 0 ≤ s.balance p) ∧
      ∀ o ∈ s.orders,
        orderSum s.ledger o.id = (if o.status = .refunded then 0 else -(o.price : Int)) ∧
        (0 < o.price → ((∃ r ∈ s.ledger, r.key = .refund o.id) ↔ o.status = .refunded)) ∧
        ∀ later s', exec shopStep s later = some s' → o.status = .delivered ∨
          o.status = .refunded → ∃ o' ∈ s'.orders, o'.id = o.id ∧ o'.status = o.status := by
  have hrun := (Option.some_get (show (exec shopStep Shop.start stillRun).isSome by rfl)).symm
  exact ⟨_, hrun, by decide, by decide, books_balance hrun⟩

def giftRun : List ShopOp :=
  [.placeOrder 1 "sn-gift" giftKey stall 5 (some 10) (some 100),
    .placeOrder 1 "sn-frame" frameKey stall 5 none none, .refund 1 "not wanted" false]

/-- A free order is refunded without a row, and a call of `refund` that does not look at the
status first takes a delivered order back. -/
theorem freeOrder_refund_unposted :
    ∃ s, exec shopStep Shop.start giftRun = some s ∧
      (∃ o ∈ s.orders, o.status = .refunded ∧ ¬ ∃ r ∈ s.ledger.rows, r.key = .refund o.id) ∧
      ∃ o ∈ s.orders, o.status = .delivered ∧
        ∃ o' ∈ (s.refund o.id "again").1.orders, o'.id = o.id ∧ o'.status = .refunded := by
  have hrun := (Option.some_get (show (exec shopStep Shop.start giftRun).isSome by rfl)).symm
  exact ⟨_, hrun, by decide, by decide⟩

/-- A run of the Stall is a run of the event's acts, with the same balances: the evidence is
credited as it is without the Stall, below the caps. -/
theorem stall_refines {ops : List ShopOp} {s : Shop}
    (hrun : exec shopStep Shop.start ops = some s) :
    Reaches Shop.start.asSys s.asSys ∧ (∀ p, s.asSys.balance p = s.balance p) ∧
      ∀ p night source cap, capFor night source = some cap →
        credited s.asSys.credits p night source ≤ cap := by
  have h : Books s ∧ Reaches Shop.start.asSys s.asSys := by
    refine exec_invariant' (I := fun m => Books m ∧ Reaches Shop.start.asSys m.asSys) ?_
      ⟨books_start, Reaches.refl _⟩ hrun
    rintro m op m' ⟨hm, hreached⟩ hop
    obtain rfl := Option.some.inj hop
    exact ⟨hm.step op, hreached.trans (perform_reaches_asSys hm op)⟩
  exact ⟨h.2, balance_asSys s, fun p night source cap hcap =>
    h.1.bounded.within p night source cap hcap⟩

theorem stall_refines_still : ∃ s, exec shopStep Shop.start stillRun = some s ∧
    s.balance 1 = 10 ∧ Reaches Shop.start.asSys s.asSys ∧ s.asSys.balance 1 = s.balance 1 := by
  obtain ⟨s, hrun, hbalance⟩ : ∃ s, exec shopStep Shop.start stillRun = some s ∧
      s.balance 1 = 10 := exec_shows (by decide)
  exact ⟨s, hrun, hbalance, (stall_refines hrun).1, (stall_refines hrun).2.1 1⟩

end LastSietch.Nights
