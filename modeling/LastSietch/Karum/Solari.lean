import LastSietch.Lib.Runs
import LastSietch.Karum.Writer
import Mathlib.Algebra.BigOperators.Group.Finset.Piecewise

/-!
# Conservation of Solari

A run of the writer is a list of transactions on the game database, each of which
commits or rolls back (`writerStep`). In every such run the balances keep their sum, and
a transaction that adds a payment row moves exactly the row's amount from one side to
the other (`run_moved`).

The purchase and the fill check the payer's funds under the lock. The refund debits the
seller without a check, so a balance can be driven below zero
(`refund_overdraws`). `solari_conserved` is the full statement for the runs in which
every refund finds the amount on the seller's balance.
-/

namespace LastSietch.Karum

open Runs

/-! ## The sum of the balances -/

variable {b b' : Balances}

theorem Balances.of_mem {r : Balance} (hr : r ∈ b) :
    b.of r.playerControllerId = r.balance := by
  have h : b.get? r.playerControllerId = some r := Table.get?_eq_some.mpr ⟨hr, rfl⟩
  simp [Balances.of, h]

def Balances.holders (b : Balances) : Finset Nat := (b.rows.map (·.playerControllerId)).toFinset

theorem Balances.of_eq_zero {c : Nat} (h : c ∉ b.holders) : b.of c = 0 := by
  have hnone : b.get? c = none := by
    rw [Table.get?_eq_none]
    intro r hr hk
    apply h
    simp only [holders, List.mem_toFinset, List.mem_map]
    exact ⟨r, hr, hk⟩
  simp [Balances.of, hnone]

theorem Balances.total_eq_sum {s : Finset Nat} (hs : b.holders ⊆ s) :
    b.total = ∑ c ∈ s, b.of c := by
  have hrows : b.total = ((b.rows.map (·.playerControllerId)).map b.of).sum := by
    rw [List.map_map]
    unfold Balances.total
    congr 1
    apply List.map_congr_left
    intro r hr
    exact (Balances.of_mem hr).symm
  rw [hrows, ← List.sum_toFinset _ b.unique]
  apply Finset.sum_subset hs
  intro c _ hc
  exact Balances.of_eq_zero hc

/-- `b'` is `b` with `amount` moved from `payer` to `payee`. -/
def Moves (b b' : Balances) (payer payee amount : Nat) : Prop :=
  ∀ c, b'.of c = b.of c - (if c = payer then (amount : Int) else 0) +
    (if c = payee then (amount : Int) else 0)

theorem SolarisProc.moves_transfer (proc : SolarisProc) (b : Balances) (payer payee amount : Nat) :
    Moves b (proc.transfer b payer payee amount) payer payee amount := by
  intro c
  unfold SolarisProc.transfer
  rw [proc.of_adjust, proc.of_adjust]
  split <;> split <;> omega

theorem Moves.total {payer payee amount : Nat}
    (h : Moves b b' payer payee amount) : b'.total = b.total := by
  let s := insert payer (insert payee (b.holders ∪ b'.holders))
  have hb : b.holders ⊆ s := by
    intro c hc
    simp [s, hc]
  have hb' : b'.holders ⊆ s := by
    intro c hc
    simp [s, hc]
  rw [Balances.total_eq_sum hb, Balances.total_eq_sum hb', Finset.sum_congr rfl (fun c _ => h c),
    Finset.sum_add_distrib, Finset.sum_sub_distrib, Finset.sum_ite_eq', Finset.sum_ite_eq']
  simp [s]

theorem Moves.nonneg_at {payer payee amount c : Nat}
    (h : Moves b b' payer payee amount) (hc : 0 ≤ b.of c)
    (hfunds : (amount : Int) ≤ b.of payer) : 0 ≤ b'.of c := by
  rw [h c]
  by_cases hp : c = payer
  · rw [if_pos hp, hp]
    split <;> omega
  · rw [if_neg hp]
    split <;> omega

theorem Moves.nonneg {payer payee amount : Nat}
    (h : Moves b b' payer payee amount) (hb : ∀ c, 0 ≤ b.of c)
    (hfunds : (amount : Int) ≤ b.of payer) (c : Nat) : 0 ≤ b'.of c :=
  h.nonneg_at (hb c) hfunds

/-! ## What a transaction moves -/

def World.owns (w : World) (acct ctrl : Nat) : Prop :=
  ∃ p ∈ w.liveCharacters acct, p.playerControllerId = some ctrl

theorem owns_of_latestController {w : World} {acct ctrl : Nat}
    (h : w.latestController acct = some ctrl) : w.owns acct ctrl := by
  unfold World.latestController at h
  obtain ⟨p, hp, hc⟩ := Option.bind_eq_some_iff.mp h
  exact ⟨p, pick_mem hp, hc⟩

theorem owns_of_exactController {w : World} {acct ctrl c : Nat}
    (h : w.exactController acct ctrl = some c) : w.owns acct ctrl := by
  unfold World.exactController at h
  split at h
  · rename_i hany
    obtain ⟨p, hp, hc⟩ := List.any_eq_true.mp hany
    exact ⟨p, hp, of_decide_eq_true hc⟩
  · cases h

def PaymentRow.payer (p : PaymentRow) : Nat :=
  if p.isRefund then p.sellerAccountId else p.buyerAccountId

def PaymentRow.payee (p : PaymentRow) : Nat :=
  if p.isRefund then p.buyerAccountId else p.sellerAccountId

/-- The transaction has added the row `p` and moved `p.amount` from a controller of the
payer to a controller of the payee. -/
structure Payment (db db' : GameDb) (p : PaymentRow) (payer payee : Nat) : Prop where
  mem : p ∈ db'.payments
  fresh : p.id = db.payments.next
  owns_payer : db.world.owns p.payer payer
  owns_payee : db.world.owns p.payee payee
  moves : Moves db.world.balances db'.world.balances payer payee p.amount

/-- Every payment row of `db'` is as old as `db`. -/
def NoPayment (db db' : GameDb) : Prop :=
  db'.world.balances = db.world.balances ∧ ∀ p ∈ db'.payments, p.id < db.payments.next

theorem NoPayment.of_eq {db db' : GameDb} (hb : db'.world.balances = db.world.balances)
    (hp : db'.payments = db.payments) : NoPayment db db' := by
  refine ⟨hb, fun p hmem => ?_⟩
  rw [hp] at hmem
  exact SerialTable.id_lt_next hmem

/-- The refund finds its amount on the seller's balance, or moves nothing: it is a replay
or one of the two controllers is gone. -/
def RefundFunded (db : GameDb) : Txn → Prop
  | .refund a =>
    (∀ p ∈ db.payments, p.correlationId ≠ a.corr.uuid) →
    (db.world.latestController a.buyerAccountId).isSome →
    ∀ seller ∈ db.world.latestController a.sellerAccountId,
      (a.amount : Int) ≤ db.world.balances.of seller
  | _ => True

instance (db : GameDb) (t : Txn) : Decidable (RefundFunded db t) :=
  match t with
  | .refund a => inferInstanceAs (Decidable ((∀ p ∈ db.payments.rows, p.correlationId ≠ a.corr.uuid) →
      (db.world.latestController a.buyerAccountId).isSome →
      ∀ seller ∈ db.world.latestController a.sellerAccountId,
        (a.amount : Int) ≤ db.world.balances.of seller))
  | .list _ | .pay _ | .fill _ | .deliver _ => .isTrue trivial

theorem Paid.mem_rows {t t' : Payments} {p : PaymentRow} (h : t'.rows = p :: t.rows) : p ∈ t' :=
  (SerialTable.mem_of_rows h).mpr (Or.inl rfl)

theorem Payment.charge {proc : SolarisProc} {db db' : GameDb} {p : PaymentRow} {buyer seller : Nat}
    (hmem : p ∈ db'.payments) (hid : p.id = db.payments.next) (hkind : p.isRefund = false)
    (hbuyer : db.world.owns p.buyerAccountId buyer)
    (hseller : db.world.owns p.sellerAccountId seller)
    (hbal : db'.world.balances = proc.transfer db.world.balances buyer seller p.amount) :
    Payment db db' p buyer seller := by
  refine ⟨hmem, hid, ?_, ?_, ?_⟩
  · simpa [PaymentRow.payer, hkind] using hbuyer
  · simpa [PaymentRow.payee, hkind] using hseller
  · rw [hbal]
    exact proc.moves_transfer _ _ _ _

/-- The step law: one transaction makes no payment, or makes one, which its payer can
afford wherever refunds are funded. -/
theorem commit_payment (proc : SolarisProc) (t : Txn) (db : GameDb) :
    NoPayment db (commit proc t db) ∨
    ∃ p payer payee, Payment db (commit proc t db) p payer payee ∧
      (RefundFunded db t → (p.amount : Int) ≤ db.world.balances.of payer) := by
  rcases commit_spec proc t db with heq | ⟨res, heff⟩
  · rw [heq]
    exact Or.inl (NoPayment.of_eq rfl rfl)
  generalize commit proc t db = db' at heff
  cases heff with
  | listReplay a e he hcorr => exact Or.inl (NoPayment.of_eq rfl rfl)
  | payReplay a p hp hcorr => exact Or.inl (NoPayment.of_eq rfl rfl)
  | fillReplay a e p => exact Or.inl (NoPayment.of_eq rfl rfl)
  | refundReplay a p hp hcorr => exact Or.inl (NoPayment.of_eq rfl rfl)
  | listed a e escrow res world htake =>
    exact Or.inl (NoPayment.of_eq (karumTakeItem_frame htake).2.2 rfl)
  | delivered a res db' hdlv =>
    cases hdlv <;> exact Or.inl (NoPayment.of_eq rfl rfl)
  | paid a p payments buyer seller hpaid hid hrows hbuyer hseller hfunds =>
    refine Or.inr ⟨p, buyer, seller,
      @Payment.charge proc _ _ _ _ _ (Paid.mem_rows hrows) hid ?_ ?_ ?_ ?_, ?_⟩
    · simp [PaymentRow.isRefund, hpaid.detail]
    · rw [hpaid.buyerAccountId]
      exact owns_of_latestController hbuyer
    · rw [hpaid.sellerAccountId]
      exact owns_of_latestController hseller
    · rw [hpaid.amount]
    · rw [hpaid.amount]
      exact fun _ => hfunds
  | filled a e escrow p payments res world htake hheld heid herows hpaid hpid hprows hbuyer hseller
      hfunds =>
    have hbal := (karumTakeItem_frame htake).2.2
    rw [hbal] at hfunds
    refine Or.inr ⟨p, a.buyerCtrl, a.sellerCtrl,
      @Payment.charge proc _ _ _ _ _ (Paid.mem_rows hprows) hpid ?_ ?_ ?_ ?_, ?_⟩
    · simp [PaymentRow.isRefund, hpaid.detail]
    · rw [hpaid.buyerAccountId]
      exact owns_of_exactController hbuyer
    · rw [hpaid.sellerAccountId]
      exact owns_of_exactController hseller
    · rw [hpaid.amount, ← hbal]
    · rw [hpaid.amount]
      exact fun _ => hfunds
  | refunded a p payments buyer seller hpaid hid hrows hbuyer hseller =>
    have hrefund : p.isRefund = true := by simp [PaymentRow.isRefund, hpaid.detail]
    -- the row may stamp itself: the original's uuid can be the refund's own
    obtain ⟨q, hq, hfacts⟩ : ∃ q ∈ stampReversed payments a.originalCorr.uuid db.world.now
        a.corr.uuid, q.id = p.id ∧ q.amount = p.amount ∧ q.payer = p.payer ∧ q.payee = p.payee := by
      refine ⟨_, mem_stampReversed.mpr ⟨p, Paid.mem_rows hrows, rfl⟩, ?_⟩
      split <;> exact ⟨rfl, rfl, rfl, rfl⟩
    obtain ⟨hqid, hamount, hpayer, hpayee⟩ := hfacts
    refine Or.inr ⟨q, seller, buyer, ⟨hq, hqid.trans hid, ?_, ?_, ?_⟩, fun hfunded => ?_⟩
    · rw [hpayer, PaymentRow.payer, if_pos hrefund, hpaid.sellerAccountId]
      exact owns_of_latestController hseller
    · rw [hpayee, PaymentRow.payee, if_pos hrefund, hpaid.buyerAccountId]
      exact owns_of_latestController hbuyer
    · rw [hamount, hpaid.amount]
      exact proc.moves_transfer _ _ _ _
    · rw [hamount, hpaid.amount]
      refine hfunded ?_ (Option.isSome_of_eq_some hbuyer) seller hseller
      intro p' hp'
      rw [← hpaid.correlationId]
      exact SerialTable.fresh_of_rows hrows hp'

def writerStep (proc : SolarisProc) (db : GameDb) (t : Txn) : Option GameDb :=
  some (commit proc t db)

/-- The transaction `t` makes no payment, or one payment that its payer can afford. -/
def PaysExactly (proc : SolarisProc) (db : GameDb) (t : Txn) : Prop :=
  NoPayment db (commit proc t db) ∨
  ∃ p payer payee, Payment db (commit proc t db) p payer payee ∧
    (p.amount : Int) ≤ db.world.balances.of payer

theorem paysExactly_of_funded {proc : SolarisProc} (db : GameDb) (t : Txn)
    (h : RefundFunded db t) : PaysExactly proc db t := by
  rcases commit_payment proc t db with hnone | ⟨p, payer, payee, hpay, hfunds⟩
  · exact Or.inl hnone
  · exact Or.inr ⟨p, payer, payee, hpay, hfunds h⟩

theorem PaysExactly.step {proc : SolarisProc} {db : GameDb} {t : Txn}
    (h : PaysExactly proc db t) :
    (commit proc t db).world.balances.total = db.world.balances.total ∧
      ((∀ c, 0 ≤ db.world.balances.of c) → ∀ c, 0 ≤ (commit proc t db).world.balances.of c) := by
  rcases h with ⟨hbal, -⟩ | ⟨p, payer, payee, hpay, hfunds⟩
  · rw [hbal]
    exact ⟨rfl, fun hnn => hnn⟩
  · exact ⟨hpay.moves.total, fun hnn => hpay.moves.nonneg hnn hfunds⟩

/-- Solari are conserved in every run whose refunds are funded: the sum of the balances
stays, no balance falls below zero, and every transaction pays exactly what its row says. -/
theorem solari_conserved (proc : SolarisProc) {db db' : GameDb} {ts : List Txn}
    (hnn : ∀ c, 0 ≤ db.world.balances.of c)
    (hfunded : Along (writerStep proc) RefundFunded db ts)
    (hrun : exec (writerStep proc) db ts = some db') :
    db'.world.balances.total = db.world.balances.total ∧
      (∀ c, 0 ≤ db'.world.balances.of c) ∧ Along (writerStep proc) (PaysExactly proc) db ts := by
  have hpays := along_mono (@paysExactly_of_funded proc) hfunded
  have hstep : ∀ d t d', (d.world.balances.total = db.world.balances.total ∧
      ∀ c, 0 ≤ d.world.balances.of c) → PaysExactly proc d t → writerStep proc d t = some d' →
      d'.world.balances.total = db.world.balances.total ∧ ∀ c, 0 ≤ d'.world.balances.of c := by
    rintro d t d' ⟨htotal, hd⟩ hp h
    cases h
    exact ⟨hp.step.1.trans htotal, hp.step.2 hd⟩
  obtain ⟨htotal, hfinal⟩ := exec_invariant hstep ⟨rfl, hnn⟩ hpays hrun
  exact ⟨htotal, hfinal, hpays⟩

/-! ## A refund that the seller cannot cover -/

def upsert (b : Balances) (ctrl : Nat) (delta : Int) : Balances :=
  match b.insert? ⟨ctrl, delta⟩ with
  | some b' => b'
  | none => b.update (fun r => r.playerControllerId = ctrl)
      (fun r => { r with balance := r.balance + delta })

theorem of_upsert (b : Balances) (ctrl : Nat) (delta : Int) (c : Nat) :
    (upsert b ctrl delta).of c = if c = ctrl then b.of c + delta else b.of c := by
  unfold upsert
  split
  · rename_i b' h
    have hfresh : b.get? ctrl = none := by
      rw [Table.get?_eq_none]
      intro r hr
      exact Table.fresh_of_insert? h hr
    simp only [Balances.of, Table.get?_insert? h]
    by_cases hc : c = ctrl
    · simp [hc, hfresh]
    · simp [hc, Ne.symm hc]
  · rename_i h
    obtain ⟨r, hr, hk⟩ := Table.insert?_eq_none.mp h
    simp only [Balances.of, Table.get?_update]
    by_cases hc : c = ctrl
    · have hget : b.get? ctrl = some r := Table.get?_eq_some.mpr ⟨hr, hk⟩
      simp [hc, hget, hk]
    · cases hget : b.get? c with
      | none => simp [hc]
      | some s =>
        have hs := Table.key_of_get? hget
        simp [hc, hs]

def plainProc : SolarisProc := ⟨upsert, of_upsert⟩

theorem Balances.nonneg_of_rows (h : ∀ r ∈ b.rows, 0 ≤ r.balance) (c : Nat) :
    0 ≤ b.of c := by
  unfold Balances.of
  cases hget : b.get? c with
  | none => simp
  | some r => simpa using h r (Table.mem_of_get? hget)

def overdrawRun : List Txn :=
  [.pay ⟨⟨1, 0⟩, 1, 1, 2, 100⟩, .pay ⟨⟨2, 0⟩, 2, 2, 3, 100⟩, .refund ⟨⟨3, 0⟩, 1, 1, 2, 100, ⟨1, 0⟩⟩]

/-- Without the condition a balance that started non-negative becomes negative. -/
theorem refund_overdraws :
    (∀ c, 0 ≤ sampleDb.world.balances.of c) ∧
      (exec (writerStep plainProc) sampleDb overdrawRun).map
        (fun db => db.world.balances.of 12) = some (-100) :=
  ⟨Balances.nonneg_of_rows (by decide), by decide⟩

def refundRun : List Txn :=
  [.pay ⟨⟨1, 0⟩, 1, 1, 2, 100⟩, .refund ⟨⟨3, 0⟩, 1, 1, 2, 100, ⟨1, 0⟩⟩]

theorem solari_conserved_refund :
    ∃ db', exec (writerStep plainProc) sampleDb refundRun = some db' ∧
      db'.world.balances.total = 500 ∧ ∀ c, 0 ≤ db'.world.balances.of c := by
  have h := @solari_conserved plainProc sampleDb _ refundRun
    (Balances.nonneg_of_rows (by decide)) (by decide) rfl
  exact ⟨_, rfl, h.1.trans (by decide), h.2.1⟩

end LastSietch.Karum
