import LastSietch.Karum.Items
import LastSietch.Karum.Invariants

/-!
# One buyer per sale

What has happened stays: calls, answers, payments and closed escrow rows are never undone
(`Past`, `past_of_run`). Together with the invariants this gives `one_buyer`: whatever the
order of purchases, cancellations, operator actions, answers and lost answers,

* a listing is charged at most once;
* a listing that has been charged, or whose buyer was told that nobody knows, is never
  active again;
* its escrowed item is not both returned and delivered.
-/

namespace LastSietch.Karum

open Runs

/-! ## What has happened stays -/

/-- `s'` remembers everything that has happened in `s`. -/
structure Past (s s' : Sys) : Prop where
  calls : ∀ k ∈ s.calls, ∃ c ∈ s'.calls, c.id = k.id ∧ c.op = k.op ∧
    ∀ r, k.portal.reply? = some r → c.portal.reply? = some r
  payments : ∀ p ∈ s.game.payments, ∃ q ∈ s'.game.payments, SameCharge p q
  closed : ∀ e ∈ s.game.escrow, e.state ≠ .held → e ∈ s'.game.escrow
  listings : ∀ l ∈ s.listings, ∃ m ∈ s'.listings, SameTerms l m

theorem SameCharge.refl (p : PaymentRow) : SameCharge p p := ⟨rfl, rfl, rfl, rfl, rfl, rfl⟩

theorem SameCharge.trans {p q r : PaymentRow} (h : SameCharge p q) (h' : SameCharge q r) :
    SameCharge p r :=
  ⟨h'.correlationId.trans h.correlationId, h'.listingId.trans h.listingId,
    h'.buyerAccountId.trans h.buyerAccountId, h'.sellerAccountId.trans h.sellerAccountId,
    h'.amount.trans h.amount, h'.detail.trans h.detail⟩

theorem SameCharge.isRefund {p q : PaymentRow} (h : SameCharge p q) : q.isRefund = p.isRefund := by
  unfold PaymentRow.isRefund
  rw [h.detail]

theorem SameTerms.trans {l m n : Listing} (h : SameTerms l m) (h' : SameTerms m n) :
    SameTerms l n :=
  ⟨h'.listingId.trans h.listingId, h'.sellerAccountId.trans h.sellerAccountId,
    h'.price.trans h.price⟩

theorem Past.refl (s : Sys) : Past s s :=
  ⟨fun k hk => ⟨k, hk, rfl, rfl, fun _ h => h⟩, fun p hp => ⟨p, hp, SameCharge.refl p⟩,
    fun _ he _ => he, fun l hl => ⟨l, hl, SameTerms.refl l⟩⟩

theorem Past.trans {s m s' : Sys} (h : Past s m) (h' : Past m s') : Past s s' := by
  refine ⟨fun k hk => ?_, fun p hp => ?_, fun e he hstate => ?_, fun l hl => ?_⟩
  · obtain ⟨c, hc, hid, hop, hreply⟩ := h.calls k hk
    obtain ⟨d, hd, hid', hop', hreply'⟩ := h'.calls c hc
    exact ⟨d, hd, hid'.trans hid, hop'.trans hop, fun r hr => hreply' r (hreply r hr)⟩
  · obtain ⟨q, hq, hsame⟩ := h.payments p hp
    obtain ⟨r, hr, hsame'⟩ := h'.payments q hq
    exact ⟨r, hr, hsame.trans hsame'⟩
  · exact h'.closed e (h.closed e he hstate) hstate
  · obtain ⟨m, hm, hsame⟩ := h.listings l hl
    obtain ⟨n, hn, hsame'⟩ := h'.listings m hm
    exact ⟨n, hn, hsame.trans hsame'⟩

variable {proc : SolarisProc} {db db' : GameDb}

theorem Effect.payments_past {t : Txn} {res : TxnResult}
    (heff : Effect proc db t res db') {p : PaymentRow} (hp : p ∈ db.payments) :
    ∃ q ∈ db'.payments, SameCharge p q := by
  cases heff with
  | listReplay | payReplay | fillReplay | refundReplay | listed => exact ⟨p, hp, SameCharge.refl p⟩
  | delivered a res _ hdlv => exact ⟨p, hdlv.payments_eq ▸ hp, SameCharge.refl p⟩
  | paid a q payments buyer seller hpaid hid hrows =>
    exact ⟨p, (SerialTable.mem_of_rows hrows).mpr (Or.inr hp), SameCharge.refl p⟩
  | filled a e escrow q payments res world htake hheld heid herows hpaid hpid hprows =>
    exact ⟨p, (SerialTable.mem_of_rows hprows).mpr (Or.inr hp), SameCharge.refl p⟩
  | refunded a q payments buyer seller hpaid hid hrows =>
    refine ⟨_, mem_stampReversed.mpr ⟨p, (SerialTable.mem_of_rows hrows).mpr (Or.inr hp), rfl⟩, ?_⟩
    split <;> exact ⟨rfl, rfl, rfl, rfl, rfl, rfl⟩

theorem WriterStep.payments_past {conf : Config} {op : Op}
    {stage stage' : WriterStage} (h : WriterStep proc conf op db stage stage' db') {p : PaymentRow}
    (hp : p ∈ db.payments) : ∃ q ∈ db'.payments, SameCharge p q := by
  cases h with
  | refused | raised => exact ⟨p, hp, SameCharge.refl p⟩
  | committed _ t res _ ht heff => exact heff.payments_past hp

theorem WriterStep.escrowStep {conf : Config} {op : Op}
    {stage stage' : WriterStage} (h : WriterStep proc conf op db stage stage' db') :
    EscrowStep db db' := by
  cases h with
  | refused | raised => exact EscrowStep.refl rfl
  | committed _ t res _ ht heff => exact heff.escrowStep

theorem Past.portal {s : Sys} {k : Call} (hk : k ∈ s.calls) {stage : PortalStage}
    (hstage : ∀ r, k.portal.reply? = some r → stage.reply? = some r) {listings : Listings}
    (requests : Requests) (hforth : ∀ l ∈ s.listings, ∃ m ∈ listings, SameTerms l m) :
    Past s { s with listings, requests, calls := s.setPortal k.id stage } := by
  refine ⟨fun c hc => ?_, fun p hp => ⟨p, hp, SameCharge.refl p⟩, fun _ he _ => he, hforth⟩
  obtain ⟨d, hd, hid, hop, -, rfl | ⟨rfl, hportal⟩⟩ := @setPortal_forth s k stage hk c hc
  · exact ⟨d, hd, hid, hop, fun _ h => h⟩
  · exact ⟨d, hd, hid, hop, fun r hr => by rw [hportal]; exact hstage r hr⟩

theorem Step.past {s s' : Sys} {act : Act} (h : Step proc s act s') :
    Past s s' := by
  cases h with
  | env | post | cancelRequest =>
    exact ⟨(Past.refl s).calls, (Past.refl s).payments, (Past.refl s).closed,
      (Past.refl s).listings⟩
  | sent _ op read listings requests calls hres hcalls =>
    refine ⟨fun k hk => ⟨k, (SerialTable.mem_of_rows hcalls).mpr (Or.inr hk), rfl, rfl,
      fun _ h => h⟩, (Past.refl s).payments, (Past.refl s).closed, fun l hl => hres.persists hl⟩
  | wrote k stage game hk hwrite =>
    refine ⟨fun c hc => ?_, fun p hp => hwrite.payments_past hp, fun e he hstate => ?_,
      (Past.refl s).listings⟩
    · obtain ⟨d, hd, hid, hop, hportal, -⟩ := @setWriter_forth s k stage hk c hc
      exact ⟨d, hd, hid, hop, fun r hr => by rwa [hportal]⟩
    · rcases hwrite.escrowStep.stays e he with hstay | ⟨hheld, -⟩
      · exact hstay
      · exact absurd hheld hstate
  | exited _ k r listings hk hact hwait hexit =>
    refine Past.portal hk (fun r' hr => ?_) s.requests (fun l hl => hexit.persists hl)
    rw [hwait] at hr
    cases hr
  | aborted _ k r hk hact hwait hexit =>
    refine Past.portal hk (fun r' hr => ?_) s.requests (fun l hl => ⟨l, hl, SameTerms.refl l⟩)
    rw [hwait] at hr
    cases hr
  | settled k r hk hhalf =>
    refine Past.portal hk (fun r' hr => ?_) _ (fun l hl => ⟨l, hl, SameTerms.refl l⟩)
    rw [hhalf] at hr
    exact hr

theorem past_of_run {s s' : Sys} {acts : List Act}
    (hrun : exec (step proc) s acts = some s') : Past s s' :=
  exec_invariant' (fun _ _ _ h hs => h.trans (step_spec hs).past) (Past.refl s) hrun

/-! ## One charge, one escrow row -/

section OneSale

variable {s : Sys}

theorem Inv.not_free_of_charged (h : Inv s) {k : Call} (hk : k ∈ s.calls) {a : BuyArgs}
    (ha : k.op.sale? = some a) (hcharged : k.writer.charged) : ¬ k.free := by
  intro hfree
  obtain ⟨r, hdone, hfrees⟩ := h.done_of_free hk hfree
  rw [Op.frees_of_sale ha] at hfrees
  rw [hdone] at hcharged
  exact Bool.noConfusion (hcharged.symm.trans hfrees)

theorem Inv.holds_of_charged (h : Inv s) {k : Call} (hk : k ∈ s.calls) {a : BuyArgs}
    (ha : k.op.sale? = some a) (hcharged : k.writer.charged) : s.holds k.id a.listingId :=
  ⟨k, hk, rfl, (Op.listingId_of_sale ha).symm, Op.claims_of_sale ha,
    h.not_free_of_charged hk ha hcharged⟩

theorem Inv.charge_unique (h : Inv s) {p q : PaymentRow} (hp : p ∈ s.game.payments)
    (hq : q ∈ s.game.payments) (hpc : p.isRefund = false) (hqc : q.isRefund = false)
    (hpq : p.listingId = q.listingId) : p = q := by
  obtain ⟨k, hk, a, ha, hkc, hcorr, hlisting, -⟩ := h.charged p hp hpc
  obtain ⟨c, hc, b, hb, hcc, hcorr', hlisting', -⟩ := h.charged q hq hqc
  have hab : a.listingId = b.listingId := by rw [← hlisting, ← hlisting', hpq]
  have hkid := h.board.holder_eq (h.holds_of_charged hk ha hkc)
    (hab ▸ h.holds_of_charged hc hb hcc)
  have hkc := SerialTable.eq_of_id_eq hk hc hkid
  subst hkc
  rw [ha] at hb
  cases hb
  exact SerialTable.eq_of_key_eq hp hq (hcorr.trans hcorr'.symm)

theorem Inv.escrow_unique (h : Inv s) {e f : EscrowRow} (he : e ∈ s.game.escrow)
    (hf : f ∈ s.game.escrow) (hef : e.listingId = f.listingId) : e = f := by
  obtain ⟨k, hk, a, ha, -, hcorr, hlisting, -⟩ := h.escrowed e he
  obtain ⟨c, hc, b, hb, -, hcorr', hlisting', -⟩ := h.escrowed f hf
  have hkc := h.taker k hk c hc (by rw [ha]; rfl) (by rw [hb]; rfl) (by
    rw [← Op.listingId_of_take ha, ← Op.listingId_of_take hb, ← hlisting, ← hlisting', hef])
  subst hkc
  rw [ha] at hb
  cases hb
  exact SerialTable.eq_of_key_eq he hf (hcorr.trans hcorr'.symm)

def MayBeCharged (s : Sys) (listing : Nat) : Prop :=
  (∃ p ∈ s.game.payments, p.isRefund = false ∧ p.listingId = listing) ∨
  ∃ k ∈ s.calls, ∃ a, k.op.sale? = some a ∧ a.listingId = listing ∧
    ∃ r, k.portal.reply? = some r ∧ r.saleExit.lets = false

theorem MayBeCharged.past {s' : Sys} {listing : Nat} (h : MayBeCharged s listing)
    (hpast : Past s s') : MayBeCharged s' listing := by
  rcases h with ⟨p, hp, hcharge, hlisting⟩ | ⟨k, hk, a, ha, hlisting, r, hr, hlets⟩
  · obtain ⟨q, hq, hsame⟩ := hpast.payments p hp
    exact Or.inl ⟨q, hq, hsame.isRefund.trans hcharge, hsame.listingId.trans hlisting⟩
  · obtain ⟨c, hc, -, hop, hreply⟩ := hpast.calls k hk
    exact Or.inr ⟨c, hc, a, by rw [hop, ha], hlisting, r, hreply r hr, hlets⟩

theorem Inv.not_active_of_charged (h : Inv s) {listing : Nat} (hc : MayBeCharged s listing)
    {l : Listing} (hl : l ∈ s.listings) (hid : l.listingId = listing) : l.status ≠ .active := by
  intro hactive
  have hopen : s.isOpen listing := ⟨l, hl, hid, Or.inr hactive⟩
  rcases hc with ⟨p, hp, hcharge, hlisting⟩ | ⟨k, hk, a, ha, hlisting, r, hr, hlets⟩
  · obtain ⟨k, hk, a, ha, hcharged, -, hlisting', -⟩ := h.charged p hp hcharge
    refine h.board.not_open (h.holds_of_charged hk ha hcharged) ?_
    rwa [← hlisting', hlisting]
  · refine h.board.free k.id listing hopen ⟨k, hk, rfl, ?_, Op.claims_of_sale ha, ?_⟩
    · rw [← Op.listingId_of_sale ha, hlisting]
    · rintro ⟨r', hr', hfrees⟩
      rw [hr'] at hr
      cases hr
      rw [Op.frees_of_sale ha, hlets] at hfrees
      cases hfrees

end OneSale

/-- One buyer per sale, in every run and at every later time. -/
theorem one_buyer {proc : SolarisProc} {w : World} {log : DeliveryLog} {conf : Config}
    {acts more : List Act} {s s' : Sys}
    (hrun : exec (step proc) (Sys.init w log conf) acts = some s)
    (hmore : exec (step proc) s more = some s') (listing : Nat) :
    (∀ p ∈ s'.game.payments, ∀ q ∈ s'.game.payments, p.isRefund = false → q.isRefund = false →
      p.listingId = listing → q.listingId = listing → p = q) ∧
    (MayBeCharged s listing → ∀ l ∈ s'.listings, l.listingId = listing → l.status ≠ .active) ∧
    (∀ e ∈ s.game.escrow, ∀ e' ∈ s'.game.escrow, e.listingId = listing →
      e'.listingId = listing → ¬ (e.state = .returned ∧ e'.state = .delivered) ∧
        ¬ (e.state = .delivered ∧ e'.state = .returned)) := by
  have h : Inv s' := inv_of_run (exec_append.mpr ⟨s, hrun, hmore⟩)
  have hpast : Past s s' := past_of_run hmore
  refine ⟨?_, ?_, ?_⟩
  · intro p hp q hq hpc hqc hpl hql
    exact h.charge_unique hp hq hpc hqc (hpl.trans hql.symm)
  · intro hcharged l hl hid
    exact h.not_active_of_charged (hcharged.past hpast) hl hid
  · -- a closed row is still there, and it is the listing's only row
    have hsame : ∀ e ∈ s.game.escrow, ∀ e' ∈ s'.game.escrow, e.listingId = listing →
        e'.listingId = listing → e.state ≠ .held → e'.state = e.state := by
      intro e he e' he' hel hel' hstate
      rw [h.escrow_unique he' (hpast.closed e he hstate) (hel'.trans hel.symm)]
    intro e he e' he' hel hel'
    refine ⟨?_, ?_⟩
    · rintro ⟨hreturned, hdelivered⟩
      have := hsame e he e' he' hel hel' (by rw [hreturned]; decide)
      rw [hreturned, hdelivered] at this
      cases this
    · rintro ⟨hdelivered, hreturned⟩
      have := hsame e he e' he' hel hel' (by rw [hdelivered]; decide)
      rw [hreturned, hdelivered] at this
      cases this

def lostAnswerRun : List Act :=
  [listAct 51 "spice" 1, .write 1, .answer 1, buyAct 1 2, .write 2, .lose 2]

/-- Its delivery comes later, and the listing stays off the market. -/
theorem one_buyer_lostAnswer :
    ∃ s s', exec (step plainProc) sampleSys lostAnswerRun = some s ∧
      exec (step plainProc) s [.write 2] = some s' ∧ MayBeCharged s 1 ∧
      ∀ l ∈ s'.listings, l.listingId = 1 → l.status ≠ .active := by
  have hrun := (Option.some_get
    (show (exec (step plainProc) sampleSys lostAnswerRun).isSome by decide)).symm
  have hmore := (Option.some_get (show (exec (step plainProc)
    ((exec (step plainProc) sampleSys lostAnswerRun).get (by decide)) [.write 2]).isSome
    by decide)).symm
  refine ⟨_, _, hrun, hmore, Or.inl (by decide), (one_buyer hrun hmore 1).2.1 (Or.inl ?_)⟩
  decide

/-- What the ledgers say of a sale is final, in every run and at every later time: a charge is at
the price of its listing and for its seller, and stays its only one; an escrow row that is closed
stays as it is, and is its listing's only one; a call keeps the answer that it has told. -/
theorem sales_final {proc : SolarisProc} {w : World} {log : DeliveryLog} {conf : Config}
    {acts more : List Act} {s s' : Sys}
    (hrun : exec (step proc) (Sys.init w log conf) acts = some s)
    (hmore : exec (step proc) s more = some s') :
    (∀ p ∈ s.game.payments, p.isRefund = false →
      (∃ l ∈ s'.listings, l.listingId = p.listingId ∧ l.sellerAccountId = p.sellerAccountId ∧
        l.price = p.amount) ∧
      ∃ q ∈ s'.game.payments, SameCharge p q ∧ ∀ q' ∈ s'.game.payments, q'.isRefund = false →
        q'.listingId = p.listingId → q' = q) ∧
    (∀ e ∈ s.game.escrow, e.state ≠ .held → ∀ e' ∈ s'.game.escrow,
      e'.listingId = e.listingId → e' = e) ∧
    ∀ k ∈ s.calls, ∃ c ∈ s'.calls, c.id = k.id ∧ c.op = k.op ∧
      ∀ r, k.portal.reply? = some r → c.portal.reply? = some r := by
  have h : Inv s' := inv_of_run (exec_append.mpr ⟨s, hrun, hmore⟩)
  have hpast : Past s s' := past_of_run hmore
  refine ⟨fun p hp hcharge => ?_, fun e he hstate e' he' hid =>
    h.escrow_unique he' (hpast.closed e he hstate) hid, hpast.calls⟩
  obtain ⟨q, hq, hsame⟩ := hpast.payments p hp
  have hqc : q.isRefund = false := hsame.isRefund.trans hcharge
  obtain ⟨k, hk, a, ha, -, -, hlisting, -, hseller, hamount⟩ := h.charged q hq hqc
  obtain ⟨l, hl, hid, hterms⟩ := h.rows k hk
  obtain ⟨hlseller, hprice⟩ := hterms a ha
  rw [← Op.listingId_of_sale ha] at hid
  refine ⟨⟨l, hl, ?_, ?_, ?_⟩, q, hq, hsame, fun q' hq' hcharge' hlisting' => ?_⟩
  · rw [hid, ← hlisting, hsame.listingId]
  · rw [hlseller, ← hseller, hsame.sellerAccountId]
  · rw [hprice, ← hamount, hsame.amount]
  · exact h.charge_unique hq' hq hcharge' hqc (hlisting'.trans hsame.listingId.symm)

theorem sales_final_lostAnswer :
    ∃ s s', exec (step plainProc) sampleSys lostAnswerRun = some s ∧
      exec (step plainProc) s [.write 2] = some s' ∧ s.game.payments.rows ≠ [] ∧
      ∀ p ∈ s.game.payments, p.isRefund = false →
        ∃ l ∈ s'.listings, l.listingId = p.listingId ∧ l.sellerAccountId = p.sellerAccountId ∧
          l.price = p.amount := by
  have hrun := (Option.some_get
    (show (exec (step plainProc) sampleSys lostAnswerRun).isSome by decide)).symm
  have hmore := (Option.some_get (show (exec (step plainProc)
    ((exec (step plainProc) sampleSys lostAnswerRun).get (by decide)) [.write 2]).isSome
    by decide)).symm
  exact ⟨_, _, hrun, hmore, by decide, fun p hp hcharge =>
    ((sales_final hrun hmore).1 p hp hcharge).1⟩

end LastSietch.Karum
