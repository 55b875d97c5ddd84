import LastSietch.Karum.Sale

/-!
# Refunds

An operator's refund should give back a payment at most once. The writer makes a retried
refund a replay, by the refund's own correlation id, but every press of the operator has a
new id, and the writer stamps the original payment without looking at it. So two presses
refund twice (`doubleRefundRun`), and a press before the payment is made refunds as well.

`Sys.reversesStanding` is the condition that a new refund finds the payment that it
reverses, of its listing and not reversed yet. `refunds_bounded` proves the
bound in every run that meets it: no payment is given back more than once, nothing is given
back on a listing that nobody has paid for, and what is counted is what has moved
(`RefundStep`).
-/

namespace LastSietch.Karum

open Runs

/-- What the row gives back of the payment `u`. -/
def PaymentRow.backTo (p : PaymentRow) (u : Nat) : Nat :=
  match p.detail with
  | .karumRefund original => if original.uuid = u then p.amount else 0
  | _ => 0

def PaymentRow.backOn (p : PaymentRow) (listing : Nat) : Nat :=
  if p.isRefund ∧ p.listingId = listing then p.amount else 0

def Payments.refunded (t : Payments) (u : Nat) : Nat := (t.rows.map (·.backTo u)).sum

def Payments.refundedOn (t : Payments) (listing : Nat) : Nat :=
  (t.rows.map (·.backOn listing)).sum

variable {p : PaymentRow}

theorem PaymentRow.backTo_charge (h : p.isRefund = false) (u : Nat) :
    p.backTo u = 0 := by
  unfold PaymentRow.isRefund at h
  unfold PaymentRow.backTo
  cases hdetail : p.detail with
  | karumBuy => rfl
  | karumFill _ => rfl
  | karumRefund original =>
    rw [hdetail] at h
    cases h

theorem PaymentRow.backOn_charge (h : p.isRefund = false) (listing : Nat) :
    p.backOn listing = 0 := by
  simp [PaymentRow.backOn, h]

theorem refunded_of_rows {t t' : Payments} (h : t'.rows = p :: t.rows) (u : Nat) :
    t'.refunded u = p.backTo u + t.refunded u := by
  simp [Payments.refunded, h]

theorem refundedOn_of_rows {t t' : Payments} (h : t'.rows = p :: t.rows)
    (listing : Nat) : t'.refundedOn listing = p.backOn listing + t.refundedOn listing := by
  simp [Payments.refundedOn, h]

theorem refunded_stampReversed (t : Payments) (original now reversal u : Nat) :
    (stampReversed t original now reversal).refunded u = t.refunded u :=
  congrArg List.sum (Table.map_key_update t.rows _ _ (fun _ => rfl))

theorem refundedOn_stampReversed (t : Payments) (original now reversal listing : Nat) :
    (stampReversed t original now reversal).refundedOn listing = t.refundedOn listing :=
  congrArg List.sum (Table.map_key_update t.rows _ _ (fun _ => rfl))

/-! ## The payments after a step of a writer -/

section Writer

variable {proc : SolarisProc} {conf : Config} {op : Op} {db db' : GameDb}
  {stage stage' : WriterStage}

def RefundArgs.isNew (a : RefundArgs) (db : GameDb) : Prop :=
  (∀ p ∈ db.payments, p.correlationId ≠ a.corr.uuid) ∧
    (db.world.latestController a.buyerAccountId).isSome ∧
    (db.world.latestController a.sellerAccountId).isSome

instance (a : RefundArgs) (db : GameDb) : Decidable (a.isNew db) := by
  unfold RefundArgs.isNew
  infer_instance

structure Refunds (proc : SolarisProc) (a : RefundArgs) (db db' : GameDb) : Prop where
  isNew : a.isNew db
  mem : ∀ q ∈ db'.payments, q.isRefund = true ∨
    ∃ p ∈ db.payments, SameCharge p q ∧ (p.correlationId = a.originalCorr.uuid → q.status = .reversed) ∧
      (p.correlationId ≠ a.originalCorr.uuid → q = p)
  refunded : ∀ u, db'.payments.refunded u =
    (if a.originalCorr.uuid = u then a.amount else 0) + db.payments.refunded u
  refundedOn : ∀ listing, db'.payments.refundedOn listing =
    (if a.listingId = listing then a.amount else 0) + db.payments.refundedOn listing
  moves : ∃ seller buyer, db.world.owns a.sellerAccountId seller ∧
    db.world.owns a.buyerAccountId buyer ∧
    Moves db.world.balances db'.world.balances seller buyer a.amount

theorem WriterStep.payments_cases (h : WriterStep proc conf op db stage stage' db') :
    db'.payments = db.payments ∨
    (∃ p, db'.payments.rows = p :: db.payments.rows ∧ p.isRefund = false) ∨
    (stage = .sent ∧ op.start conf = none) ∧ ∃ a, op = .refund a ∧ Refunds proc a db db' := by
  cases h with
  | refused | raised => exact Or.inl rfl
  | committed _ t res _ ht heff hstart =>
    cases heff with
    | listReplay | payReplay | fillReplay | refundReplay | listed => exact Or.inl rfl
    | delivered a r _ hdlv => exact Or.inl hdlv.payments_eq
    | paid a p payments buyer seller hpaid hid hrows =>
      exact Or.inr (Or.inl ⟨p, hrows, by simp [PaymentRow.isRefund, hpaid.detail]⟩)
    | filled a e escrow p payments res world htake hheld heid herows hpaid hpid hprows =>
      exact Or.inr (Or.inl ⟨p, hprows, by simp [PaymentRow.isRefund, hpaid.detail]⟩)
    | refunded a p payments buyer seller hpaid hid hrows hbuyer hseller =>
      cases op with
      | list | buy | fill | cancel | forceDeliver | forceReturn => cases stage <;> cases ht
      | refund b =>
        cases stage <;> cases ht
        refine Or.inr (Or.inr ⟨⟨rfl, hstart rfl⟩, _, rfl,
          ⟨?_, Option.isSome_of_eq_some hbuyer, Option.isSome_of_eq_some hseller⟩, ?_, ?_, ?_, ?_⟩)
        · intro q hq
          rw [← hpaid.correlationId]
          exact SerialTable.fresh_of_rows hrows hq
        · intro q hq
          obtain ⟨q₀, hq₀, rfl⟩ := mem_stampReversed.mp hq
          rcases (SerialTable.mem_of_rows hrows).mp hq₀ with rfl | hq₀
          · refine Or.inl ?_
            split <;> simp [PaymentRow.isRefund, PaymentRow.reversed, hpaid.detail]
          · refine Or.inr ⟨q₀, hq₀, ?_, fun heq => ?_, fun hne => if_neg hne⟩
            · split <;> exact ⟨rfl, rfl, rfl, rfl, rfl, rfl⟩
            · rw [if_pos heq]
              rfl
        · intro u
          rw [refunded_stampReversed, refunded_of_rows hrows]
          simp [PaymentRow.backTo, hpaid.detail, hpaid.amount]
        · intro listing
          rw [refundedOn_stampReversed, refundedOn_of_rows hrows]
          simp [PaymentRow.backOn, PaymentRow.isRefund, hpaid.detail, hpaid.amount, hpaid.listingId]
        · exact ⟨seller, buyer, owns_of_latestController hseller, owns_of_latestController hbuyer,
            proc.moves_transfer _ _ _ _⟩

end Writer

/-! ## The invariant -/

def RefundArgs.standing (a : RefundArgs) (t : Payments) : Prop :=
  ∃ p ∈ t, p.correlationId = a.originalCorr.uuid ∧ p.isRefund = false ∧ p.status = .applied ∧
    p.listingId = a.listingId

instance (a : RefundArgs) (t : Payments) : Decidable (a.standing t) := by
  unfold RefundArgs.standing
  infer_instance

def Op.refund? : Op → Option RefundArgs
  | .refund a => some a
  | _ => none

def Sys.reversesStanding (s : Sys) : Act → Prop
  | .write c => ∀ k ∈ s.calls, k.id = c → k.writer = .sent → k.op.start s.conf = none →
      ∀ a ∈ k.op.refund?, a.isNew s.game → a.standing s.game.payments
  | _ => True

instance (s : Sys) (act : Act) : Decidable (s.reversesStanding act) :=
  match act with
  | .write c => inferInstanceAs (Decidable (∀ k ∈ s.calls, k.id = c → k.writer = .sent →
      k.op.start s.conf = none → ∀ a ∈ k.op.refund?, a.isNew s.game → a.standing s.game.payments))
  | .env .. | .post .. | .cancelRequest .. | .list .. | .buy .. | .cancel .. | .fill .. | .force ..
  | .answer _ | .lose _ | .settle _ => .isTrue trivial

structure Payments.Bounded (t : Payments) : Prop where
  standing : ∀ p ∈ t, p.isRefund = false → p.status = .applied → t.refunded p.correlationId = 0
  bounded : ∀ p ∈ t, p.isRefund = false → t.refunded p.correlationId ≤ p.amount
  unpaid : ∀ u, (∀ p ∈ t, p.isRefund = false → p.correlationId ≠ u) → t.refunded u = 0
  unsold : ∀ listing, (∀ p ∈ t, p.isRefund = false → p.listingId ≠ listing) →
    t.refundedOn listing = 0

theorem Payments.Bounded.charge {t t' : Payments} {p : PaymentRow} (h : t.Bounded)
    (hrows : t'.rows = p :: t.rows) (hp : p.isRefund = false) : t'.Bounded := by
  have hrefunded : ∀ u, t'.refunded u = t.refunded u := by
    intro u
    rw [refunded_of_rows hrows, PaymentRow.backTo_charge hp, Nat.zero_add]
  have hfresh : t.refunded p.correlationId = 0 :=
    h.unpaid _ (fun q hq _ => SerialTable.fresh_of_rows hrows hq)
  refine ⟨fun q hq hcharge happlied => ?_, fun q hq hcharge => ?_, fun u hu => ?_,
    fun listing hl => ?_⟩
  · rw [hrefunded]
    rcases (SerialTable.mem_of_rows hrows).mp hq with rfl | hq
    · exact hfresh
    · exact h.standing q hq hcharge happlied
  · rw [hrefunded]
    rcases (SerialTable.mem_of_rows hrows).mp hq with rfl | hq
    · rw [hfresh]
      exact Nat.zero_le _
    · exact h.bounded q hq hcharge
  · rw [hrefunded]
    exact h.unpaid u (fun q hq => hu q ((SerialTable.mem_of_rows hrows).mpr (Or.inr hq)))
  · rw [refundedOn_of_rows hrows, PaymentRow.backOn_charge hp, Nat.zero_add]
    exact h.unsold listing (fun q hq => hl q ((SerialTable.mem_of_rows hrows).mpr (Or.inr hq)))

theorem Payments.Bounded.refund {proc : SolarisProc} {a : RefundArgs} {db db' : GameDb}
    (h : db.payments.Bounded) (hrefund : Refunds proc a db db')
    (hpast : ∀ p ∈ db.payments, ∃ q ∈ db'.payments, SameCharge p q) {o : PaymentRow}
    (ho : o ∈ db.payments) (hcorr : o.correlationId = a.originalCorr.uuid)
    (hcharge : o.isRefund = false) (happlied : o.status = .applied)
    (hlisting : o.listingId = a.listingId) (hamount : o.amount = a.amount) :
    db'.payments.Bounded := by
  have hzero : db.payments.refunded a.originalCorr.uuid = 0 := hcorr ▸ h.standing o ho hcharge happlied
  -- a charge of the new ledger is a charge of the old one
  have hold : ∀ q ∈ db'.payments, q.isRefund = false → ∃ p ∈ db.payments, SameCharge p q ∧
      (p.correlationId = a.originalCorr.uuid → q.status = .reversed) ∧
      (p.correlationId ≠ a.originalCorr.uuid → q = p) := by
    intro q hq hqc
    rcases hrefund.mem q hq with hback | hold
    · rw [hqc] at hback
      cases hback
    · exact hold
  refine ⟨fun q hq hqc hqa => ?_, fun q hq hqc => ?_, fun u hu => ?_, fun listing hl => ?_⟩
  · obtain ⟨p, hp, hsame, hstamp, hkeep⟩ := hold q hq hqc
    have hne : p.correlationId ≠ a.originalCorr.uuid := by
      intro heq
      rw [hstamp heq] at hqa
      cases hqa
    have hqp := hkeep hne
    subst hqp
    rw [hrefund.refunded, if_neg (Ne.symm hne), Nat.zero_add]
    exact h.standing q hp hqc hqa
  · obtain ⟨p, hp, hsame, -⟩ := hold q hq hqc
    rw [hrefund.refunded, hsame.correlationId, hsame.amount]
    split
    · rename_i heq
      have hpo : p = o := SerialTable.eq_of_key_eq hp ho (heq.symm.trans hcorr.symm)
      rw [← heq, hzero, hpo, hamount]
      exact Nat.le_refl _
    · rw [Nat.zero_add]
      exact h.bounded p hp (hsame.isRefund.symm.trans hqc)
  · obtain ⟨o', ho', hsame⟩ := hpast o ho
    have hne : a.originalCorr.uuid ≠ u := by
      rw [← hcorr, ← hsame.correlationId]
      exact hu o' ho' (hsame.isRefund.trans hcharge)
    rw [hrefund.refunded, if_neg hne, Nat.zero_add]
    refine h.unpaid u (fun p hp hpc => ?_)
    obtain ⟨q, hq, hpq⟩ := hpast p hp
    rw [← hpq.correlationId]
    exact hu q hq (hpq.isRefund.trans hpc)
  · obtain ⟨o', ho', hsame⟩ := hpast o ho
    have hne : a.listingId ≠ listing := by
      rw [← hlisting, ← hsame.listingId]
      exact hl o' ho' (hsame.isRefund.trans hcharge)
    rw [hrefund.refundedOn, if_neg hne, Nat.zero_add]
    refine h.unsold listing (fun p hp hpc => ?_)
    obtain ⟨q, hq, hpq⟩ := hpast p hp
    rw [← hpq.listingId]
    exact hl q hq (hpq.isRefund.trans hpc)

structure Refunding (s : Sys) : Prop where
  asked : ∀ k ∈ s.calls, ∀ a, k.op = .refund a →
    ∃ l ∈ s.listings, l.listingId = a.listingId ∧ l.price = a.amount
  payments : s.game.payments.Bounded

theorem refunding_init (w : World) (log : DeliveryLog) (conf : Config) :
    Refunding (Sys.init w log conf) :=
  ⟨fun k hk => absurd hk (SerialTable.not_mem_empty k),
    fun p hp => absurd hp (SerialTable.not_mem_empty p),
    fun p hp => absurd hp (SerialTable.not_mem_empty p), fun _ _ => rfl, fun _ _ => rfl⟩

section Steps

variable {proc : SolarisProc} {s : Sys} {k : Call}

theorem Inv.refund_amount (h : Inv s) (hr : Refunding s) (hk : k ∈ s.calls) {a : RefundArgs}
    (hop : k.op = .refund a) {o : PaymentRow} (ho : o ∈ s.game.payments)
    (hcharge : o.isRefund = false) (hlisting : o.listingId = a.listingId) : o.amount = a.amount := by
  obtain ⟨c, hc, b, hsale, -, -, hol, -, -, hamount⟩ := h.charged o ho hcharge
  obtain ⟨l, hl, hid, hterms⟩ := h.rows c hc
  obtain ⟨m, hm, hmid, hprice⟩ := hr.asked k hk a hop
  have hlm : l = m := by
    apply SerialTable.eq_of_id_eq hl hm
    rw [hid, ← Op.listingId_of_sale hsale, ← hol, hlisting, hmid]
  rw [hamount, ← (hterms b hsale).2, hlm, hprice]

variable {stage : WriterStage} {game : GameDb}

theorem Inv.original (h : Inv s) (hr : Refunding s) (hk : k ∈ s.calls)
    (hstanding : s.reversesStanding (.write k.id))
    (hsent : k.writer = .sent ∧ k.op.start s.conf = none) {a : RefundArgs}
    (hop : k.op = .refund a) (hrefund : Refunds proc a s.game game) :
    ∃ o ∈ s.game.payments, o.correlationId = a.originalCorr.uuid ∧ o.isRefund = false ∧
      o.status = .applied ∧ o.listingId = a.listingId ∧ o.amount = a.amount := by
  obtain ⟨o, ho, hcorr, hcharge, happlied, hlisting⟩ :=
    hstanding k hk rfl hsent.1 hsent.2 a (by rw [hop]; rfl) hrefund.isNew
  exact ⟨o, ho, hcorr, hcharge, happlied, hlisting,
    h.refund_amount hr hk hop ho hcharge hlisting⟩

theorem Refunding.wrote (hr : Refunding s) (h : Inv s) (hk : k ∈ s.calls)
    (hstanding : s.reversesStanding (.write k.id))
    (hwrite : WriterStep proc s.conf k.op s.game k.writer stage game) :
    Refunding { s with game, calls := s.setWriter k.id stage } := by
  refine ⟨fun c hc a hop => ?_, ?_⟩
  · obtain ⟨c₀, hc₀, -, hop₀, -⟩ := setWriter_back hk hc
    exact hr.asked c₀ hc₀ a (hop₀.trans hop)
  · rcases hwrite.payments_cases with heq | ⟨p, hrows, hcharge⟩ | ⟨hsent, a, hop, hrefund⟩
    · exact heq ▸ hr.payments
    · exact hr.payments.charge hrows hcharge
    · obtain ⟨o, ho, hcorr, hcharge, happlied, hlisting, hamount⟩ :=
        h.original hr hk hstanding hsent hop hrefund
      exact hr.payments.refund hrefund (fun p hp => hwrite.payments_past hp) ho hcorr hcharge
        happlied hlisting hamount

theorem Refunding.sent (hr : Refunding s) {op : Op} {read : ListingStatus} {listings : Listings}
    {requests : Requests} {calls : Calls} (hres : Reserve s op read listings requests)
    (hcalls : calls.rows = ⟨s.calls.next, op, read, .waiting, .sent⟩ :: s.calls.rows) :
    Refunding { s with listings, requests, calls } := by
  refine ⟨fun c hc a hop => ?_, hr.payments⟩
  rcases (SerialTable.mem_of_rows hcalls).mp hc with rfl | hc
  · cases hres with
    | list | buy | cancel | fill | forceDeliver | forceReturn => cases hop
    | refund corr row b hrow hbuyer =>
      cases hop
      exact ⟨row, hrow, rfl, rfl⟩
  · obtain ⟨l, hl, hid, hprice⟩ := hr.asked c hc a hop
    obtain ⟨m, hm, hsame⟩ := hres.persists hl
    exact ⟨m, hm, hsame.listingId.trans hid, hsame.price.trans hprice⟩

theorem Refunding.updated (hr : Refunding s) (hk : k ∈ s.calls) {portal : PortalStage}
    (listings : Listings) (requests : Requests)
    (hforth : ∀ l ∈ s.listings, ∃ m ∈ listings, SameTerms l m) :
    Refunding { s with listings, requests, calls := s.setPortal k.id portal } := by
  refine ⟨fun c hc a hop => ?_, hr.payments⟩
  obtain ⟨c₀, hc₀, -, hop₀, -⟩ := setPortal_back hk hc
  obtain ⟨l, hl, hid, hprice⟩ := hr.asked c₀ hc₀ a (hop₀.trans hop)
  obtain ⟨m, hm, hsame⟩ := hforth l hl
  exact ⟨m, hm, hsame.listingId.trans hid, hsame.price.trans hprice⟩

theorem Refunding.step {s' : Sys} {act : Act} (hr : Refunding s) (h : Inv s)
    (hstanding : s.reversesStanding act) (hstep : Step proc s act s') : Refunding s' := by
  cases hstep with
  | env | post | cancelRequest => exact ⟨hr.asked, hr.payments⟩
  | sent _ op read listings requests calls hres hcalls => exact hr.sent hres hcalls
  | wrote k stage game hk hwrite => exact hr.wrote h hk hstanding hwrite
  | exited _ k r listings hk hact hwait hexit =>
    exact hr.updated hk listings s.requests (fun l hl => hexit.persists hl)
  | aborted _ k r hk hact hwait hexit =>
    exact hr.updated hk s.listings s.requests (fun l hl => ⟨l, hl, SameTerms.refl l⟩)
  | settled k r hk hhalf =>
    exact hr.updated hk s.listings _ (fun l hl => ⟨l, hl, SameTerms.refl l⟩)

end Steps

/-! ## Runs -/

/-- A step gives nothing back, or moves the amount of one standing payment from a
controller of its listing's seller to one of the buyer that the operator has named. -/
def RefundStep (s s' : Sys) : Prop :=
  (∀ u, s'.game.payments.refunded u = s.game.payments.refunded u) ∧
    (∀ listing, s'.game.payments.refundedOn listing = s.game.payments.refundedOn listing) ∨
  ∃ k ∈ s.calls, ∃ a, k.op = .refund a ∧ ∃ o ∈ s.game.payments, o.isRefund = false ∧
    o.status = .applied ∧ o.listingId = a.listingId ∧
    (∀ u, s'.game.payments.refunded u =
      (if o.correlationId = u then o.amount else 0) + s.game.payments.refunded u) ∧
    (∀ listing, s'.game.payments.refundedOn listing =
      (if o.listingId = listing then o.amount else 0) + s.game.payments.refundedOn listing) ∧
    ∃ seller buyer, s.game.world.owns a.sellerAccountId seller ∧
      s.game.world.owns a.buyerAccountId buyer ∧
      Moves s.game.world.balances s'.game.world.balances seller buyer o.amount

theorem Step.refundStep {proc : SolarisProc} {s s' : Sys} {act : Act} (hr : Refunding s)
    (h : Inv s) (hstanding : s.reversesStanding act) (hstep : Step proc s act s') :
    RefundStep s s' := by
  cases hstep with
  | env | post | cancelRequest | sent | exited | aborted | settled =>
    exact Or.inl ⟨fun _ => rfl, fun _ => rfl⟩
  | wrote k stage game hk hwrite =>
    rcases hwrite.payments_cases with heq | ⟨p, hrows, hcharge⟩ | ⟨hsent, a, hop, hrefund⟩
    · refine Or.inl ⟨fun u => ?_, fun listing => ?_⟩ <;> simp only [heq]
    · refine Or.inl ⟨fun u => ?_, fun listing => ?_⟩
      · rw [refunded_of_rows hrows, PaymentRow.backTo_charge hcharge, Nat.zero_add]
      · rw [refundedOn_of_rows hrows, PaymentRow.backOn_charge hcharge, Nat.zero_add]
    · obtain ⟨o, ho, hcorr, hcharge, happlied, hlisting, hamount⟩ :=
        h.original hr hk hstanding hsent hop hrefund
      refine Or.inr ⟨k, hk, a, hop, o, ho, hcharge, happlied, hlisting, fun u => ?_,
        fun listing => ?_, ?_⟩
      · rw [hcorr, hamount]
        exact hrefund.refunded u
      · rw [hlisting, hamount]
        exact hrefund.refundedOn listing
      · rw [hamount]
        exact hrefund.moves

/-- Refunds give back at most what was paid, in every run whose refunds reverse payments
that stand: no payment is given back beyond its amount, nothing is given back on a listing
that nobody has paid for, and every step that moves money back finds the payment applied. -/
theorem refunds_bounded {proc : SolarisProc} {w : World} {log : DeliveryLog} {conf : Config}
    {acts : List Act} {s : Sys}
    (hstanding : Along (step proc) Sys.reversesStanding (Sys.init w log conf) acts)
    (hrun : exec (step proc) (Sys.init w log conf) acts = some s) :
    (∀ p ∈ s.game.payments, p.isRefund = false →
      s.game.payments.refunded p.correlationId ≤ p.amount) ∧
    (∀ u, (∀ p ∈ s.game.payments, p.isRefund = false → p.correlationId ≠ u) →
      s.game.payments.refunded u = 0) ∧
    (∀ listing, (∀ p ∈ s.game.payments, p.isRefund = false → p.listingId ≠ listing) →
      s.game.payments.refundedOn listing = 0) ∧
    Along (step proc) (fun m act => ∀ m', step proc m act = some m' → RefundStep m m')
      (Sys.init w log conf) acts := by
  have hstep : ∀ m act m', (Inv m ∧ Refunding m) → m.reversesStanding act →
      step proc m act = some m' → Inv m' ∧ Refunding m' := by
    intro m act m' hm hg hs
    exact ⟨hm.1.step (step_spec hs), hm.2.step hm.1 hg (step_spec hs)⟩
  have hinit : Inv (Sys.init w log conf) ∧ Refunding (Sys.init w log conf) :=
    ⟨inv_init w log conf, refunding_init w log conf⟩
  obtain ⟨-, hr⟩ := exec_invariant hstep hinit hstanding hrun
  refine ⟨hr.payments.bounded, hr.payments.unpaid, hr.payments.unsold, ?_⟩
  refine along_mono (fun m act hm m' hs => ?_) (along_invariant hstep hinit hstanding)
  exact (step_spec hs).refundStep hm.1.2 hm.1.1 hm.2

def refundPressRun : List Act :=
  [listAct 51 "spice" 1, .write 1, .answer 1, buyAct 1 2, .write 2, .write 2, .answer 2,
    .force .refund 1 ⟨3, 0⟩, .write 3, .answer 3, .settle 3]

theorem refunds_bounded_press :
    ∃ s, exec (step plainProc) sampleSys refundPressRun = some s ∧
      s.game.payments.refunded 2 = 100 ∧ ∀ p ∈ s.game.payments, p.isRefund = false →
        s.game.payments.refunded p.correlationId ≤ p.amount := by
  have hrun := (Option.some_get
    (show (exec (step plainProc) sampleSys refundPressRun).isSome by decide)).symm
  exact ⟨_, hrun, by decide, (refunds_bounded (by decide) hrun).1⟩

def doubleRefundRun : List Act :=
  refundPressRun ++ [.force .refund 1 ⟨4, 0⟩, .write 4, .answer 4, .settle 4]

/-- Without the condition the payment of 100 is given back twice. -/
theorem doubleRefund_exceeds :
    ¬ ∀ acts s, exec (step plainProc) sampleSys acts = some s →
      ∀ p ∈ s.game.payments, p.isRefund = false →
        s.game.payments.refunded p.correlationId ≤ p.amount := by
  intro h
  have hrun := (Option.some_get
    (show (exec (step plainProc) sampleSys doubleRefundRun).isSome by decide)).symm
  exact absurd (h _ _ hrun) (by decide)

end LastSietch.Karum
