import LastSietch.Karum.Sale
import LastSietch.Karum.Backing

/-!
# A sale is paid exactly once

A listing that is sold, or whose item has gone to a buyer, should have exactly one applied
payment: its own, from its buyer to its seller, of its price. Without operators this can
fail in one way. The gate of a purchase goes by the correlation id alone, so a purchase
that reuses the id of an older payment is delivered without paying (`reusedBuyRun`).
`Sys.replaysOwn` is the condition that a purchase replays only its own payment; a fill
compares the stored rows by itself.

`sold_paid_once` proves the property in every run of the players that meets the condition.
-/

namespace LastSietch.Karum

open Runs

/-- The stored row is the payment that the sale call `a` asks for. -/
structure PaymentRow.IsFor (p : PaymentRow) (a : BuyArgs) : Prop where
  listingId : p.listingId = a.listingId
  buyerAccountId : p.buyerAccountId = a.buyerAccountId
  sellerAccountId : p.sellerAccountId = a.sellerAccountId
  amount : p.amount = a.amount

theorem PaymentRow.isFor_iff {p : PaymentRow} {a : BuyArgs} : p.IsFor a ↔
    p.listingId = a.listingId ∧ p.buyerAccountId = a.buyerAccountId ∧
      p.sellerAccountId = a.sellerAccountId ∧ p.amount = a.amount :=
  ⟨fun h => ⟨h.1, h.2, h.3, h.4⟩, fun h => ⟨h.1, h.2.1, h.2.2.1, h.2.2.2⟩⟩

instance (p : PaymentRow) (a : BuyArgs) : Decidable (p.IsFor a) :=
  decidable_of_iff' _ PaymentRow.isFor_iff

theorem PaymentRow.IsFor.sameCharge {p q : PaymentRow} {a : BuyArgs} (h : p.IsFor a)
    (hsame : SameCharge p q) : q.IsFor a :=
  ⟨hsame.listingId.trans h.listingId, hsame.buyerAccountId.trans h.buyerAccountId,
    hsame.sellerAccountId.trans h.sellerAccountId, hsame.amount.trans h.amount⟩

def ownReplay (payments : Payments) (op : Op) : Prop :=
  match op with
  | .buy a => ∀ p ∈ payments, p.correlationId = a.corr.uuid → p.IsFor a
  | _ => True

instance (payments : Payments) (op : Op) : Decidable (ownReplay payments op) := by
  unfold ownReplay
  split <;> infer_instance

/-- The condition on an action: a purchase whose correlation id is in the payments
replays its own payment. -/
def Sys.replaysOwn (s : Sys) : Act → Prop
  | .write c => ∀ k ∈ s.calls, k.id = c → k.writer = .sent → k.op.start s.conf = none →
      ownReplay s.game.payments k.op
  | _ => True

instance (s : Sys) (act : Act) : Decidable (s.replaysOwn act) :=
  match act with
  | .write c => inferInstanceAs (Decidable (∀ k ∈ s.calls, k.id = c → k.writer = .sent →
      k.op.start s.conf = none → ownReplay s.game.payments k.op))
  | .env .. | .post .. | .cancelRequest .. | .list .. | .buy .. | .cancel .. | .fill .. | .force ..
  | .answer _ | .lose _ | .settle _ => .isTrue trivial

/-- The writer has answered `paid`, or is about to. -/
def WriterStage.paidFor : WriterStage → Prop
  | .sent => False
  | .paid _ => True
  | .done r => r.paid = some true

/-! ## The payments and the handed-over rows after a step of a writer -/

section Writer

variable {proc : SolarisProc} {conf : Config} {op : Op} {db db' : GameDb}
  {stage stage' : WriterStage}

theorem Op.txn_ne_refund (hplayer : op.byOperator = false) (a : RefundArgs) :
    op.txn stage ≠ some (.refund a) := by
  cases op <;> cases stage <;> simp [Op.txn, Op.byOperator] at hplayer ⊢

theorem WriterStep.applied (h : WriterStep proc conf op db stage stage' db')
    (hplayer : op.byOperator = false) {p' : PaymentRow} (hp' : p' ∈ db'.payments) :
    p' ∈ db.payments ∨ p'.status = .applied ∧ p'.isRefund = false := by
  cases h with
  | refused | raised => exact Or.inl hp'
  | committed _ t res _ ht heff =>
    cases heff with
    | listReplay | payReplay | fillReplay | refundReplay | listed => exact Or.inl hp'
    | delivered a r _ hdlv => exact Or.inl (hdlv.payments_eq ▸ hp')
    | paid a p payments buyer seller hpaid hid hrows =>
      rcases (SerialTable.mem_of_rows hrows).mp hp' with rfl | hp'
      · exact Or.inr ⟨hpaid.status, by simp [PaymentRow.isRefund, hpaid.detail]⟩
      · exact Or.inl hp'
    | filled a e escrow p payments res world htake hheld heid herows hpaid hpid hprows =>
      rcases (SerialTable.mem_of_rows hprows).mp hp' with rfl | hp'
      · exact Or.inr ⟨hpaid.status, by simp [PaymentRow.isRefund, hpaid.detail]⟩
      · exact Or.inl hp'
    | refunded a => exact absurd ht (Op.txn_ne_refund hplayer a)

theorem Op.start_not_paid {conf : Config} {r : Reply} (h : op.start conf = some r) :
    r.paid ≠ some true := by
  rcases Op.start_spec h with rfl | rfl | ⟨token, rfl⟩ <;> simp [Reply.unknown, Reply.deferred,
    Reply.failJson]

/-- A sale call gets to `paid` by its own payment row. -/
theorem WriterStep.paid_row {a : BuyArgs} (h : WriterStep proc conf op db stage stage' db')
    (hsale : op.sale? = some a)
    (hown : stage = .sent → op.start conf = none → ownReplay db.payments op)
    (hpaid : stage'.paidFor) :
    stage.paidFor ∨ ∃ p ∈ db'.payments, p.correlationId = a.corr.uuid ∧ p.IsFor a := by
  cases stage with
  | done r => exact h.not_done.elim
  | paid new => exact Or.inl trivial
  | sent =>
    right
    cases h with
    | refused r hstart => exact absurd hpaid (Op.start_not_paid hstart)
    | raised _ t token ht => cases op <;> cases hsale <;> cases hpaid
    | committed _ t res _ ht heff hstart =>
      cases op with
      | list | cancel | forceDeliver | forceReturn | refund => cases hsale
      | buy b =>
        cases hsale
        cases ht
        cases heff with
        | payReplay _ p hp hcorr => exact ⟨p, hp, hcorr, hown rfl (hstart rfl) p hp hcorr⟩
        | paid _ p payments buyer seller hnew hid hrows =>
          exact ⟨p, (SerialTable.mem_of_rows hrows).mpr (Or.inl rfl), hnew.correlationId,
            hnew.listingId, hnew.buyerAccountId, hnew.sellerAccountId, hnew.amount⟩
      | fill b =>
        cases hsale
        cases ht
        cases heff with
        | fillReplay _ e p he hp hecorr hpcorr hmatch =>
          obtain ⟨-, -, -, -, hlisting, hbuyer, hseller, hamount⟩ := hmatch
          exact ⟨p, hp, hpcorr, hlisting, hbuyer, hseller, hamount⟩
        | filled _ e escrow p payments res world htake hheld heid herows hnew hpid hprows =>
          exact ⟨p, (SerialTable.mem_of_rows hprows).mpr (Or.inl rfl), hnew.correlationId,
            hnew.listingId, hnew.buyerAccountId, hnew.sellerAccountId, hnew.amount⟩

theorem Delivery.delivered_mem {a : DeliveryArgs} {r : Option DeliveryResult}
    (h : Delivery a db r db') {e' : EscrowRow} (he' : e' ∈ db'.escrow)
    (hstate : e'.state = .delivered) :
    e' ∈ db.escrow ∨ e'.listingId = a.listingId ∧ a.endState = .delivered ∧
      ∃ res, r = some res ∧ res.state = .applied := by
  cases h with
  | settled | logged => exact Or.inl he'
  | missing f hf hstack =>
    obtain ⟨e, he, rfl⟩ := mem_markMissing.mp he'
    split at hstate
    · cases hstate
    · rename_i hne
      rw [if_neg hne]
      exact Or.inl he
  | handed f who stack mask depth expiry orders log hf =>
    obtain ⟨hmem, hlisting, -⟩ := heldEscrow_some hf
    obtain ⟨e, he, rfl⟩ := mem_closeEscrow.mp he'
    split
    · rename_i hid
      rw [if_pos hid] at hstate
      refine Or.inr ⟨?_, ?_, _, rfl, rfl⟩
      · rw [SerialTable.eq_of_id_eq he hmem hid]
        exact hlisting
      · cases hend : a.endState with
        | delivered => rfl
        | returned =>
          rw [hend] at hstate
          cases hstate
    · exact Or.inl he

/-- Without operators an item goes to a buyer only in transaction B of a sale call, which
then answers so. -/
theorem WriterStep.delivered_mem (h : WriterStep proc conf op db stage stage' db')
    (hplayer : op.byOperator = false) {e' : EscrowRow} (he' : e' ∈ db'.escrow)
    (hstate : e'.state = .delivered) :
    e' ∈ db.escrow ∨ e'.listingId = op.listingId ∧ op.sale?.isSome ∧
      ∃ r, stage' = .done r ∧ r.saleExit = .delivered := by
  cases h with
  | refused | raised => exact Or.inl he'
  | committed _ t res _ ht heff =>
    cases heff with
    | listReplay | payReplay | fillReplay | refundReplay | paid | refunded => exact Or.inl he'
    | listed a f escrow res world htake hheld hid hrows =>
      rcases (SerialTable.mem_of_rows hrows).mp he' with rfl | he'
      · rw [hheld.state] at hstate
        cases hstate
      · exact Or.inl he'
    | filled a f escrow p payments res world htake hheld heid herows =>
      rcases (SerialTable.mem_of_rows herows).mp he' with rfl | he'
      · rw [hheld.state] at hstate
        cases hstate
      · exact Or.inl he'
    | delivered a r _ hdlv =>
      rcases hdlv.delivered_mem he' hstate with he' | ⟨hlisting, hend, res, rfl, hres⟩
      · exact Or.inl he'
      · refine Or.inr ⟨hlisting.trans (Op.listingId_of_deliver ht), ?_⟩
        obtain ⟨state, order, item, escrow, stack⟩ := res
        cases hres
        cases op with
        | list | refund => cases stage <;> cases ht
        | forceDeliver | forceReturn => cases hplayer
        | cancel =>
          cases stage <;> cases ht
          cases hend
        | buy b =>
          cases stage <;> cases ht
          exact ⟨rfl, _, rfl, by simp [saleReply, Reply.saleExit]⟩
        | fill b =>
          cases stage <;> cases ht
          exact ⟨rfl, _, rfl, by simp [saleReply, Reply.saleExit]⟩

end Writer

/-! ## The invariant -/

def Sys.deliveredBy (s : Sys) (listing : Nat) : Prop :=
  ∃ k ∈ s.calls, k.op.sale?.isSome ∧ k.op.listingId = listing ∧
    ∃ r, k.writer = .done r ∧ r.saleExit = .delivered

structure Paying (s : Sys) : Prop where
  players : ∀ k ∈ s.calls, k.op.byOperator = false
  applied : ∀ p ∈ s.game.payments, p.status = .applied ∧ p.isRefund = false
  paid : ∀ k ∈ s.calls, ∀ a, k.op.sale? = some a → k.writer.paidFor →
    ∃ p ∈ s.game.payments, p.correlationId = a.corr.uuid ∧ p.IsFor a
  buyer : ∀ k ∈ s.calls, ∀ a, k.op.sale? = some a → ¬ k.free → ∀ l ∈ s.listings,
    l.listingId = a.listingId → ∃ b, l.buyer = some b ∧ b.accountId = a.buyerAccountId
  sold : ∀ l ∈ s.listings, l.status = .sold → s.deliveredBy l.listingId
  delivered : ∀ e ∈ s.game.escrow, e.state = .delivered → s.deliveredBy e.listingId

theorem paying_init (w : World) (log : DeliveryLog) (conf : Config) :
    Paying (Sys.init w log conf) :=
  ⟨fun k hk => absurd hk (SerialTable.not_mem_empty k),
    fun p hp => absurd hp (SerialTable.not_mem_empty p),
    fun k hk => absurd hk (SerialTable.not_mem_empty k),
    fun k hk => absurd hk (SerialTable.not_mem_empty k),
    fun l hl => absurd hl (SerialTable.not_mem_empty l),
    fun e he => absurd he (SerialTable.not_mem_empty e)⟩

section Sent

variable {s : Sys} {op : Op} {read : ListingStatus} {listings : Listings} {requests : Requests}

theorem Reserve.buyer (h : Reserve s op read listings requests) {m : Listing}
    (hm : m ∈ listings) : m.listingId = s.listings.next ∨
      ∃ l ∈ s.listings, l.listingId = m.listingId ∧ (m.buyer = l.buyer ∨ l.status = .active) := by
  cases h with
  | list u f ctrl owned src listings hrows =>
    rcases (SerialTable.mem_of_rows hrows).mp hm with rfl | hm
    · exact Or.inl rfl
    · exact Or.inr ⟨m, hm, rfl, Or.inl rfl⟩
  | fill u f ctrl owned src row listings hrow hid hactive hrows =>
    rcases (SerialTable.mem_of_rows hrows).mp hm with rfl | hm
    · exact Or.inl rfl
    · exact Or.inr ⟨m, hm, rfl, Or.inl rfl⟩
  | buy u f ctrl row listings hrow hid hactive hmem =>
    rcases (hmem m).mp hm with rfl | ⟨hm, -⟩
    · exact Or.inr ⟨row, hrow, rfl, Or.inr hactive⟩
    · exact Or.inr ⟨m, hm, rfl, Or.inl rfl⟩
  | cancel f row listings hrow hid hactive hmem =>
    rcases (hmem m).mp hm with rfl | ⟨hm, -⟩
    · exact Or.inr ⟨row, hrow, rfl, Or.inl rfl⟩
    · exact Or.inr ⟨m, hm, rfl, Or.inl rfl⟩
  | forceDeliver | forceReturn | refund => exact Or.inr ⟨m, hm, rfl, Or.inl rfl⟩

theorem Reserve.mem (h : Reserve s op read listings requests) {m : Listing} (hm : m ∈ listings) :
    m ∈ s.listings ∨ m.status = .pending ∨ m.status = .selling ∨ m.status = .returning := by
  cases h with
  | list u f ctrl owned src listings hrows =>
    rcases (SerialTable.mem_of_rows hrows).mp hm with rfl | hm
    · exact Or.inr (Or.inl rfl)
    · exact Or.inl hm
  | fill u f ctrl owned src row listings hrow hid hactive hrows =>
    rcases (SerialTable.mem_of_rows hrows).mp hm with rfl | hm
    · exact Or.inr (Or.inr (Or.inl rfl))
    · exact Or.inl hm
  | buy u f ctrl row listings hrow hid hactive hmem =>
    rcases (hmem m).mp hm with rfl | ⟨hm, -⟩
    · exact Or.inr (Or.inr (Or.inl rfl))
    · exact Or.inl hm
  | cancel f row listings hrow hid hactive hmem =>
    rcases (hmem m).mp hm with rfl | ⟨hm, -⟩
    · exact Or.inr (Or.inr (Or.inr rfl))
    · exact Or.inl hm
  | forceDeliver | forceReturn | refund => exact Or.inl hm

theorem Reserve.sale_buyer (h : Reserve s op read listings requests) {a : BuyArgs}
    (hsale : op.sale? = some a) {m : Listing} (hm : m ∈ listings)
    (hid : m.listingId = a.listingId) : ∃ b, m.buyer = some b ∧ b.accountId = a.buyerAccountId := by
  cases h with
  | list | cancel | forceDeliver | forceReturn | refund => cases hsale
  | buy u f ctrl row listings hrow hrid hactive hmem =>
    cases hsale
    rcases (hmem m).mp hm with rfl | ⟨-, hne⟩
    · exact ⟨_, rfl, rfl⟩
    · exact absurd hid hne
  | fill u f ctrl owned src row listings hrow hrid hactive hrows =>
    cases hsale
    rcases (SerialTable.mem_of_rows hrows).mp hm with rfl | hm
    · exact ⟨_, rfl, rfl⟩
    · have := SerialTable.id_lt_next hm
      simp only at hid
      omega

theorem Paying.sent (hp : Paying s) (h : Inv s) {calls : Calls} (hplayer : op.byOperator = false)
    (hres : Reserve s op read listings requests)
    (hcalls : calls.rows = ⟨s.calls.next, op, read, .waiting, .sent⟩ :: s.calls.rows) :
    Paying { s with listings, requests, calls } := by
  have hmem : ∀ c, c ∈ calls ↔ c = ⟨s.calls.next, op, read, .waiting, .sent⟩ ∨ c ∈ s.calls :=
    fun c => SerialTable.mem_of_rows hcalls
  have hby : ∀ listing, s.deliveredBy listing →
      Sys.deliveredBy { s with listings, requests, calls } listing := by
    rintro listing ⟨k, hk, hrest⟩
    exact ⟨k, (hmem k).mpr (Or.inr hk), hrest⟩
  refine ⟨fun k hk => ?_, hp.applied, fun k hk a hsale hpaid => ?_,
    fun k hk a hsale hfree m hm hid => ?_, fun m hm hsold => ?_,
    fun e he hstate => hby _ (hp.delivered e he hstate)⟩
  · rcases (hmem k).mp hk with rfl | hk
    · exact hplayer
    · exact hp.players k hk
  · rcases (hmem k).mp hk with rfl | hk
    · cases hpaid
    · exact hp.paid k hk a hsale hpaid
  · rcases (hmem k).mp hk with rfl | hk
    · exact hres.sale_buyer hsale hm hid
    · rcases hres.buyer hm with hfresh | ⟨l, hl, hlid, hbuyer | hactive⟩
      · have hlt := h.listing_lt hk
        rw [← Op.listingId_of_sale hsale] at hlt
        omega
      · rw [hbuyer]
        exact hp.buyer k hk a hsale hfree l hl (hlid.trans hid)
      · -- the row is held, so it is not active
        refine absurd ⟨l, hl, rfl, Or.inr hactive⟩ (h.board.not_open
          (⟨k, hk, rfl, ?_, Op.claims_of_sale hsale, hfree⟩ : s.holds k.id l.listingId))
        rw [← Op.listingId_of_sale hsale, hlid, hid]
  · rcases hres.mem hm with hm | hstatus
    · exact hby _ (hp.sold m hm hsold)
    · simp [hsold] at hstatus

end Sent

section Updates

variable {proc : SolarisProc} {s : Sys} {k : Call}

theorem Paying.wrote {stage : WriterStage} {game : GameDb} (hp : Paying s) (hk : k ∈ s.calls)
    (hown : k.writer = .sent → k.op.start s.conf = none → ownReplay s.game.payments k.op)
    (hwrite : WriterStep proc s.conf k.op s.game k.writer stage game) :
    Paying { s with game, calls := s.setWriter k.id stage } := by
  have hby : ∀ listing, s.deliveredBy listing →
      Sys.deliveredBy { s with game, calls := s.setWriter k.id stage } listing := by
    rintro listing ⟨c₀, hc₀, hsale, hlisting, r, hdone, hr⟩
    obtain ⟨c, hc, -, hop, -, rfl | ⟨rfl, -⟩⟩ := @setWriter_forth s k stage hk c₀ hc₀
    · exact ⟨c, hc, hsale, hlisting, r, hdone, hr⟩
    · rw [hdone] at hwrite
      exact hwrite.not_done.elim
  have hkeep : ∀ a : BuyArgs, (∃ p ∈ s.game.payments, p.correlationId = a.corr.uuid ∧ p.IsFor a) →
      ∃ p ∈ game.payments, p.correlationId = a.corr.uuid ∧ p.IsFor a := by
    rintro a ⟨p, hpm, hcorr, hfor⟩
    obtain ⟨q, hq, hsame⟩ := hwrite.payments_past hpm
    exact ⟨q, hq, hsame.correlationId.trans hcorr, hfor.sameCharge hsame⟩
  refine ⟨fun c hc => ?_, fun p hpm => ?_, fun c hc a hsale hpaid => ?_,
    fun c hc a hsale hfree l hl hid => ?_, fun l hl hsold => hby _ (hp.sold l hl hsold),
    fun e he hstate => ?_⟩
  · obtain ⟨c₀, hc₀, -, hop, -⟩ := setWriter_back hk hc
    rw [← hop]
    exact hp.players c₀ hc₀
  · rcases hwrite.applied (hp.players k hk) hpm with hpm | happlied
    · exact hp.applied p hpm
    · exact happlied
  · obtain ⟨c₀, hc₀, -, hop, -, -, rfl | ⟨rfl, hwriter⟩⟩ := setWriter_back hk hc
    · exact hkeep a (hp.paid c₀ hc₀ a hsale hpaid)
    · rw [← hop] at hsale
      rw [hwriter] at hpaid
      rcases hwrite.paid_row hsale hown hpaid with hpaid | hrow
      · exact hkeep a (hp.paid c₀ hk a hsale hpaid)
      · exact hrow
  · obtain ⟨c₀, hc₀, -, hop, hportal, -⟩ := setWriter_back hk hc
    rw [Call.free_congr hop hportal] at hfree
    exact hp.buyer c₀ hc₀ a (by rw [hop, hsale]) hfree l hl hid
  · rcases hwrite.delivered_mem (hp.players k hk) he hstate with he | ⟨hlisting, hsale, r, rfl, hr⟩
    · exact hby _ (hp.delivered e he hstate)
    · exact ⟨{ k with writer := .done r }, (mem_setWriter hk _ _).mpr (Or.inl rfl), hsale,
        hlisting.symm, r, rfl, hr⟩

theorem Op.Sets.buyer {op : Op} {r : Reply} {l m : Listing} (h : op.Sets r l m) :
    m.buyer = l.buyer ∨
      op.claims = true ∧ op.frees r = true ∧ op.exitStage r = .finished r := by
  cases h with
  | force target hforce hm => exact Or.inl (by rw [hm]; rfl)
  | cas expect target cols hexit hstatus hm =>
    subst hm
    cases op with
    | list a =>
      simp only [Op.exitCas] at hexit
      split at hexit <;> cases hexit <;> exact Or.inl rfl
    | buy a =>
      simp only [Op.exitCas] at hexit
      cases hr : r.saleExit <;> simp only [hr, SaleExit.buyStatus] at hexit <;> cases hexit <;>
        first
          | exact Or.inl rfl
          | exact Or.inr ⟨rfl, by simp [Op.frees, hr, SaleExit.lets], rfl⟩
    | fill a =>
      simp only [Op.exitCas] at hexit
      cases hr : r.saleExit <;> simp only [hr, SaleExit.fillStatus] at hexit <;> cases hexit <;>
        exact Or.inl rfl
    | cancel a =>
      simp only [Op.exitCas] at hexit
      split at hexit
      · cases hexit
        exact Or.inl rfl
      · split at hexit <;> cases hexit
        exact Or.inl rfl
    | forceDeliver | forceReturn | refund => cases hexit

theorem Op.Sets.sold {op : Op} {r : Reply} {l m : Listing} (h : op.Sets r l m)
    (hplayer : op.byOperator = false) (hsold : m.status = .sold) :
    op.sale?.isSome ∧ r.saleExit = .delivered := by
  cases h with
  | force target hforce hm => cases op <;> first | cases hforce | cases hplayer
  | cas expect target cols hexit hstatus hm =>
    rw [hm, Listing.status_set] at hsold
    subst hsold
    cases op with
    | list a =>
      simp only [Op.exitCas] at hexit
      split at hexit <;> cases hexit
    | buy a =>
      simp only [Op.exitCas] at hexit
      cases hr : r.saleExit <;> simp only [hr, SaleExit.buyStatus] at hexit <;> cases hexit
      exact ⟨rfl, rfl⟩
    | fill a =>
      simp only [Op.exitCas] at hexit
      cases hr : r.saleExit <;> simp only [hr, SaleExit.fillStatus] at hexit <;> cases hexit
      exact ⟨rfl, rfl⟩
    | cancel a =>
      simp only [Op.exitCas] at hexit
      split at hexit
      · cases hexit
      · split at hexit <;> cases hexit
    | forceDeliver | forceReturn | refund => cases hexit

/-- An update of the handler of `k`: every changed row is the work of its exit. -/
theorem Paying.updated {r : Reply} (hp : Paying s) (h : Inv s) (hk : k ∈ s.calls)
    (hkfree : ¬ k.free) {stage : PortalStage} (listings : Listings) (requests : Requests)
    (hback : ∀ m ∈ listings, m ∈ s.listings ∨ ∃ l ∈ s.listings,
      l.listingId = k.op.listingId ∧ k.op.Sets r l m ∧ stage = k.op.exitStage r ∧
        (k.writer = .done r ∨ r = .unknown)) :
    Paying { s with listings, requests, calls := s.setPortal k.id stage } := by
  have hby : ∀ listing, s.deliveredBy listing →
      Sys.deliveredBy { s with listings, requests, calls := s.setPortal k.id stage } listing := by
    rintro listing ⟨c₀, hc₀, hsale, hlisting, hrest⟩
    obtain ⟨c, hc, -, hop, hwriter, -⟩ := @setPortal_forth s k stage hk c₀ hc₀
    exact ⟨c, hc, by rwa [hop], by rwa [hop], by rwa [hwriter]⟩
  refine ⟨fun c hc => ?_, hp.applied, fun c hc a hsale hpaid => ?_,
    fun c hc a hsale hfree m hm hid => ?_, fun m hm hsold => ?_,
    fun e he hstate => hby _ (hp.delivered e he hstate)⟩
  · obtain ⟨c₀, hc₀, -, hop, -⟩ := setPortal_back hk hc
    rw [← hop]
    exact hp.players c₀ hc₀
  · obtain ⟨c₀, hc₀, -, hop, hwriter, -⟩ := setPortal_back hk hc
    exact hp.paid c₀ hc₀ a (by rw [hop, hsale]) (by rwa [hwriter])
  · obtain ⟨c₀, hc₀, hcid, hop, -, -, hcc⟩ := setPortal_back hk hc
    have hsale₀ : c₀.op.sale? = some a := by rw [hop, hsale]
    have hfree₀ : ¬ c₀.free := by
      rcases hcc with rfl | ⟨rfl, -⟩
      · exact hfree
      · exact hkfree
    rcases hback m hm with hm | ⟨l, hl, hlid, hsets, hexit, -⟩
    · exact hp.buyer c₀ hc₀ a hsale₀ hfree₀ m hm hid
    · have hsame := hsets.sameTerms.listingId
      rcases hsets.buyer with hbuyer | ⟨hclaim, hfrees, hfinish⟩
      · rw [hbuyer]
        exact hp.buyer c₀ hc₀ a hsale₀ hfree₀ l hl (by rw [← hsame, hid])
      · -- the call that lets go is the only one that holds the row
        have hck : c₀.id = k.id := by
          refine h.board.holder_eq (⟨c₀, hc₀, rfl, ?_, Op.claims_of_sale hsale₀, hfree₀⟩ :
            s.holds c₀.id k.op.listingId) ⟨k, hk, rfl, rfl, hclaim, hkfree⟩
          rw [← Op.listingId_of_sale hsale₀, ← hid, hsame, hlid]
        rcases (mem_setPortal hk stage c).mp hc with rfl | ⟨-, hne⟩
        · exact absurd ⟨r, hexit.trans hfinish, hfrees⟩ hfree
        · exact absurd (hcid.symm.trans hck) hne
  · rcases hback m hm with hm | ⟨l, hl, hlid, hsets, -, hdone⟩
    · exact hby _ (hp.sold m hm hsold)
    · obtain ⟨hsale, hr⟩ := hsets.sold (hp.players k hk) hsold
      have hdone : k.writer = .done r := by
        rcases hdone with hdone | rfl
        · exact hdone
        · cases hr
      refine hby _ ⟨k, hk, hsale, ?_, r, hdone, hr⟩
      rw [hsets.sameTerms.listingId, hlid]

end Updates

theorem Paying.step {proc : SolarisProc} {s s' : Sys} {act : Act} (hp : Paying s) (h : Inv s)
    (hplayer : act.byOperator = false) (hown : s.replaysOwn act) (hstep : Step proc s act s') :
    Paying s' := by
  cases hstep with
  | env | post | cancelRequest =>
    exact ⟨hp.players, hp.applied, hp.paid, hp.buyer, hp.sold, hp.delivered⟩
  | sent _ op read listings requests calls hres hcalls hact =>
    exact hp.sent h (hact.trans hplayer) hres hcalls
  | wrote k stage game hk hwrite => exact hp.wrote hk (hown k hk rfl) hwrite
  | exited _ k r listings hk hact hwait hexit =>
    refine @Paying.updated s k r hp h hk (not_free_of_waiting hwait) _ listings s.requests
      (fun m hm => ?_)
    rcases hexit.mem hm with hm | ⟨l, hl, hid, hsets⟩
    · exact Or.inl hm
    · exact Or.inr ⟨l, hl, hid, hsets, rfl, hact.imp And.right And.right⟩
  | aborted _ k r hk hact hwait hexit =>
    exact @Paying.updated s k r hp h hk (not_free_of_waiting hwait) _ s.listings s.requests
      (fun m hm => Or.inl hm)
  | settled k r hk hhalf =>
    exact @Paying.updated s k r hp h hk (not_free_of_half hhalf) _ s.listings _
      (fun m hm => Or.inl hm)

/-! ## Runs -/

structure PaidFor (l : Listing) (p : PaymentRow) : Prop where
  status : p.status = .applied
  listingId : p.listingId = l.listingId
  buyer : l.buyer.map (·.accountId) = some p.buyerAccountId
  sellerAccountId : p.sellerAccountId = l.sellerAccountId
  amount : p.amount = l.price

theorem PaidFor.iff {l : Listing} {p : PaymentRow} : PaidFor l p ↔
    p.status = .applied ∧ p.listingId = l.listingId ∧
      l.buyer.map (·.accountId) = some p.buyerAccountId ∧
      p.sellerAccountId = l.sellerAccountId ∧ p.amount = l.price :=
  ⟨fun h => ⟨h.1, h.2, h.3, h.4, h.5⟩, fun h => ⟨h.1, h.2.1, h.2.2.1, h.2.2.2.1, h.2.2.2.2⟩⟩

instance (l : Listing) (p : PaymentRow) : Decidable (PaidFor l p) :=
  decidable_of_iff' _ PaidFor.iff

/-- A sold or delivered listing has exactly one applied payment, and it is its own, in every
run of the players whose purchases replay only their own payments. -/
theorem sold_paid_once {proc : SolarisProc} {w : World} {log : DeliveryLog} {conf : Config}
    {acts : List Act} {s : Sys} (hplayers : ∀ act ∈ acts, act.byOperator = false)
    (hown : Along (step proc) Sys.replaysOwn (Sys.init w log conf) acts)
    (hrun : exec (step proc) (Sys.init w log conf) acts = some s) :
    ∀ l ∈ s.listings, (l.status = .sold ∨
        ∃ e ∈ s.game.escrow, e.listingId = l.listingId ∧ e.state = .delivered) →
      ∃ p ∈ s.game.payments, PaidFor l p ∧ ∀ q ∈ s.game.payments, q.status = .applied →
        q.listingId = l.listingId → q = p := by
  obtain ⟨h, hp⟩ : Inv s ∧ Paying s := by
    refine @exec_invariant _ _ _ _ (fun m => Inv m ∧ Paying m) (fun m act m' hm hg hs => ?_) _ _ _
      ⟨inv_init w log conf, paying_init w log conf⟩ (along_and hplayers hown) hrun
    exact ⟨hm.1.step (step_spec hs), hm.2.step hm.1 hg.1 hg.2 (step_spec hs)⟩
  intro l hl hsold
  obtain ⟨k, hk, hsale, hlisting, r, hdone, hr⟩ : s.deliveredBy l.listingId := by
    rcases hsold with hsold | ⟨e, he, hid, hstate⟩
    · exact hp.sold l hl hsold
    · exact hid ▸ hp.delivered e he hstate
  obtain ⟨a, ha⟩ := Option.isSome_iff_exists.mp hsale
  have hcharged : k.writer.charged := by
    rw [hdone]
    simp [WriterStage.charged, hr, SaleExit.lets]
  have hpaid : k.writer.paidFor := by
    rw [hdone]
    unfold Reply.saleExit at hr
    split at hr
    · cases hr
    · split at hr
      · cases hr
      · split at hr
        · assumption
        · cases hr
  have hla : l.listingId = a.listingId := by rw [Op.listingId_of_sale ha, hlisting]
  obtain ⟨p, hpm, hcorr, hfor⟩ := hp.paid k hk a ha hpaid
  obtain ⟨b, hb, hacct⟩ :=
    hp.buyer k hk a ha (h.not_free_of_charged hk ha hcharged) l hl hla
  obtain ⟨l', hl', hid', hterms⟩ := h.rows k hk
  have hll : l' = l := SerialTable.eq_of_id_eq hl' hl (hid'.trans hlisting)
  subst hll
  obtain ⟨hseller, hprice⟩ := hterms a ha
  refine ⟨p, hpm, ⟨(hp.applied p hpm).1, ?_, ?_, ?_, ?_⟩, fun q hq _ hql => ?_⟩
  · rw [hfor.listingId, hla]
  · rw [hb, hfor.buyerAccountId, ← hacct]
    rfl
  · rw [hfor.sellerAccountId, hseller]
  · rw [hfor.amount, hprice]
  · refine h.charge_unique hq hpm (hp.applied q hq).2 (hp.applied p hpm).2 ?_
    rw [hql, hfor.listingId, hla]

/-- A sale whose answer is lost before it is delivered. -/
theorem sold_paid_once_lostAnswer :
    ∃ s, exec (step plainProc) sampleSys (lostAnswerRun ++ [.write 2]) = some s ∧
      (∃ e ∈ s.game.escrow, e.listingId = 1 ∧ e.state = .delivered) ∧
      ∀ l ∈ s.listings, l.listingId = 1 → ∃ p ∈ s.game.payments, PaidFor l p := by
  have hrun := (Option.some_get (show (exec (step plainProc) sampleSys
    (lostAnswerRun ++ [.write 2])).isSome by decide)).symm
  refine ⟨_, hrun, by decide, fun l hl hid => ?_⟩
  obtain ⟨p, hp, hfor, -⟩ := sold_paid_once (by decide) (by decide) hrun l hl
    (Or.inr (by rw [hid]; decide))
  exact ⟨p, hp, hfor⟩

def reusedBuyRun : List Act :=
  [listAct 51 "spice" 1, .write 1, .answer 1, listAct 52 "water" 2, .write 2, .answer 2,
    buyAct 1 9, .write 3, .write 3, .answer 3, buyAct 2 9, .write 4, .write 4, .answer 4]

/-- Without the condition the second listing is sold and nobody has paid for it. -/
theorem reusedBuy_unpaid :
    ¬ ∀ acts s, (∀ act ∈ acts, act.byOperator = false) →
      exec (step plainProc) sampleSys acts = some s →
      ∀ l ∈ s.listings, l.status = .sold → ∃ p ∈ s.game.payments, PaidFor l p := by
  intro h
  have hrun := (Option.some_get
    (show (exec (step plainProc) sampleSys reusedBuyRun).isSome by decide)).symm
  exact absurd (h _ _ (by decide) hrun) (by decide)

end LastSietch.Karum
