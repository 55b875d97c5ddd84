import LastSietch.Karum.Lockstep

/-!
# One filler, one charge, one settlement

What the lockstep of a request with its settlement listing gives in every run:
`request_settles` is the law, and `forceReturn_unmatched` a run in which the operator's
return leaves the pair apart, as it is meant to.
-/

namespace LastSietch.Karum

open Runs

/-! ## Charges of a request -/

theorem WriterStep.fill_payment {proc : SolarisProc} {conf : Config} {op : Op} {db db' : GameDb}
    {stage stage' : WriterStage} (h : WriterStep proc conf op db stage stage' db')
    {p' : PaymentRow} (hp' : p' ∈ db'.payments) {id : Nat} (hdetail : p'.detail = .karumFill id) :
    (∃ p ∈ db.payments, SameCharge p p') ∨
      ∃ a, op = .fill a ∧ a.requestId = id ∧ p'.correlationId = a.corr.uuid ∧ stage'.charged := by
  cases h with
  | refused | raised => exact Or.inl ⟨p', hp', SameCharge.refl p'⟩
  | committed _ t res _ ht heff =>
    cases heff with
    | listReplay | payReplay | fillReplay | refundReplay | listed =>
      exact Or.inl ⟨p', hp', SameCharge.refl p'⟩
    | delivered a r _ hdlv => exact Or.inl ⟨p', hdlv.payments_eq ▸ hp', SameCharge.refl p'⟩
    | paid a p payments buyer seller hpaid hid hrows =>
      rcases (SerialTable.mem_of_rows hrows).mp hp' with rfl | hp'
      · rw [hpaid.detail] at hdetail
        cases hdetail
      · exact Or.inl ⟨p', hp', SameCharge.refl p'⟩
    | filled a e escrow p payments res world htake hheld heid herows hpaid hpid hprows =>
      rcases (SerialTable.mem_of_rows hprows).mp hp' with rfl | hp'
      · cases op with
        | list | buy | cancel | forceDeliver | forceReturn | refund => cases stage <;> cases ht
        | fill b =>
          cases stage <;> cases ht
          rw [hpaid.detail] at hdetail
          cases hdetail
          exact Or.inr ⟨_, rfl, rfl, hpaid.correlationId, trivial⟩
      · exact Or.inl ⟨p', hp', SameCharge.refl p'⟩
    | refunded a p payments buyer seller hpaid hid hrows =>
      obtain ⟨q, hq, rfl⟩ := mem_stampReversed.mp hp'
      rcases (SerialTable.mem_of_rows hrows).mp hq with rfl | hq
      · split at hdetail <;> simp [PaymentRow.reversed, hpaid.detail] at hdetail
      · refine Or.inl ⟨q, hq, ?_⟩
        split <;> exact ⟨rfl, rfl, rfl, rfl, rfl, rfl⟩

def FillCharged (s : Sys) : Prop :=
  ∀ p ∈ s.game.payments, ∀ id, p.detail = .karumFill id → ∃ k ∈ s.calls, ∃ a, k.op = .fill a ∧
    a.requestId = id ∧ p.correlationId = a.corr.uuid ∧ k.writer.charged

theorem FillCharged.step {proc : SolarisProc} {s s' : Sys} {act : Act} (hf : FillCharged s)
    (hstep : Step proc s act s') : FillCharged s' := by
  cases hstep with
  | env | post | cancelRequest => exact hf
  | sent _ op read listings requests calls hres hcalls =>
    intro p hp id hdetail
    obtain ⟨k, hk, hrest⟩ := hf p hp id hdetail
    exact ⟨k, (SerialTable.mem_of_rows hcalls).mpr (Or.inr hk), hrest⟩
  | wrote k stage game hk hwrite =>
    intro p' hp' id hdetail
    rcases hwrite.fill_payment hp' hdetail with ⟨p, hp, hsame⟩ | ⟨a, hop, hid, hcorr, hcharged⟩
    · obtain ⟨c₀, hc₀, a, hop₀, hid, hcorr, hcharged⟩ := hf p hp id (hsame.detail.symm.trans hdetail)
      obtain ⟨c, hc, -, hop, -, hcc⟩ := @setWriter_forth s k stage hk c₀ hc₀
      refine ⟨c, hc, a, hop.trans hop₀, hid, hsame.correlationId.trans hcorr, ?_⟩
      rcases hcc with rfl | ⟨rfl, hwriter⟩
      · exact hcharged
      · rw [hwriter]
        exact hwrite.charged (by rw [hop₀]; rfl) hcharged
    · exact ⟨{ k with writer := stage }, (mem_setWriter hk stage _).mpr (Or.inl rfl), a, hop, hid,
        hcorr, hcharged⟩
  | exited _ k r listings hk | aborted _ k r hk | settled k r hk =>
    intro p hp id hdetail
    obtain ⟨c₀, hc₀, a, hop₀, hid, hcorr, hcharged⟩ := hf p hp id hdetail
    obtain ⟨c, hc, -, hop, hwriter, -⟩ := @setPortal_forth s k _ hk c₀ hc₀
    exact ⟨c, hc, a, hop.trans hop₀, hid, hcorr, by rwa [hwriter]⟩

/-! ## The law -/

def Sys.wants (s : Sys) (request : Nat) : Prop :=
  ∃ r ∈ s.requests, r.requestId = request ∧ r.status = .active

def Sys.fillHolds (s : Sys) (call request : Nat) : Prop :=
  ∃ k ∈ s.calls, k.id = call ∧ k.fills request ∧ ¬ k.free

/-- The settlement listings of the request, but for the listing `live`, have failed. -/
def Sys.othersFailed (s : Sys) (r : Wanted) (live : Option Nat) : Prop :=
  ∀ k ∈ s.calls, k.fills r.requestId → live ≠ some k.op.listingId → ∀ l ∈ s.listings,
    l.listingId = k.op.listingId → l.status = .failed

/-- A request and the listing `l` of its filler: a matching pair, or between the two updates
of the fill's handler, or moved by an operator. -/
inductive Sys.Standing (s : Sys) (r : Wanted) (l : Listing) : Prop
  | pair (h : r.status.pairs l.status = true)
  | halfway (k : Call) (hk : k ∈ s.calls) (hfills : k.fills r.requestId) (x : Reply)
      (hhalf : k.portal = .half x) (hr : r.status = .filling)
      (hl : l.status = x.saleExit.fillListing)
  | moved (h : s.movedBy l.listingId) (hl : l.status.isClosed = true)
  | refunded (h : s.refundedBy l.listingId) (hr : r.status = .failed)

structure Sys.Matched (s : Sys) (r : Wanted) : Prop where
  filler : r.filler.isNone = r.status.isIdle
  others : s.othersFailed r r.settlement
  standing : ∀ f, r.filler = some f →
    ∃ l ∈ s.listings, l.listingId = f.settlementListingId ∧ s.Standing r l
  through : ∀ k ∈ s.calls, (∃ a, k.op = .forceDeliver a) →
    (∃ x, k.portal = .finished x ∧ x.good = true) → r.settlement = some k.op.listingId →
    r.status = .filled ∨ r.status = .failed

section Law

variable {s : Sys}

theorem Lockstep.exclusive (hl : Lockstep s) : Exclusive s.wants s.fillHolds := by
  refine ⟨?_, ?_⟩
  · rintro c id ⟨r, hr, rfl, hactive⟩ ⟨k, hk, -, hfills, hfree⟩
    exact hfree ((hl.idle r hr (by rw [hactive]; rfl)).2 k hk hfills)
  · rintro c c' id ⟨k, hk, rfl, hfills, hfree⟩ ⟨k', hk', rfl, hfills', hfree'⟩
    obtain ⟨r, hr, rfl⟩ := hl.known k hk id hfills
    cases hidle : r.status.isIdle with
    | true => exact absurd ((hl.idle r hr hidle).2 k hk hfills) hfree
    | false =>
      obtain ⟨k₁, -, -, -, hothers, -⟩ := hl.busy r hr hidle
      exact ((hothers k hk hfills).resolve_right hfree).trans
        ((hothers k' hk' hfills').resolve_right hfree').symm

theorem Lockstep.charge_unique (hl : Lockstep s) (h : Inv s) (hf : FillCharged s) {p q : PaymentRow}
    (hp : p ∈ s.game.payments) (hq : q ∈ s.game.payments) {id : Nat}
    (hpd : p.detail = .karumFill id) (hqd : q.detail = .karumFill id) : p = q := by
  obtain ⟨k, hk, a, hop, hid, hcorr, hcharged⟩ := hf p hp id hpd
  obtain ⟨k', hk', a', hop', hid', hcorr', hcharged'⟩ := hf q hq id hqd
  have hkk : k.id = k'.id := hl.exclusive.holder_eq
    ⟨k, hk, rfl, ⟨a, hop, hid⟩, h.not_free_of_charged hk (by rw [hop]; rfl) hcharged⟩
    ⟨k', hk', rfl, ⟨a', hop', hid'⟩, h.not_free_of_charged hk' (by rw [hop']; rfl) hcharged'⟩
  rw [SerialTable.eq_of_id_eq hk hk' hkk, hop'] at hop
  cases hop
  exact SerialTable.eq_of_key_eq hp hq (hcorr.trans hcorr'.symm)

theorem FillPair.pairs {portal : PortalStage} {rs : RequestStatus} {ls : ListingStatus}
    (h : FillPair portal rs ls) (hbusy : rs.isIdle = false) : rs.pairs ls = true ∨
      ∃ x, portal = .half x ∧ rs = .filling ∧ ls = x.saleExit.fillListing := by
  cases h with
  | waiting | died => exact Or.inl rfl
  | half x => exact Or.inr ⟨x, rfl, rfl, rfl⟩
  | finished x =>
    refine Or.inl ?_
    cases hx : x.saleExit <;> rw [hx] at hbusy <;> first | rfl | cases hbusy

theorem Lockstep.matched (hl : Lockstep s) (ho : Operated s) (h : Inv s) {r : Wanted}
    (hr : r ∈ s.requests) : s.Matched r := by
  have hthrough := fun k hk hop hfin hsettle => hl.through k hk hop hfin r hr hsettle
  cases hidle : r.status.isIdle with
  | true =>
    obtain ⟨hnone, hfree⟩ := hl.idle r hr hidle
    refine ⟨by rw [hnone, hidle]; rfl, fun k hk hfills _ l hl' hid => ?_, fun f hf => ?_, hthrough⟩
    · exact hl.letGo k hk (Call.fill_of_fills hfills) (hfree k hk hfills) l hl' hid
    · rw [hnone] at hf
      cases hf
  | false =>
    obtain ⟨k, hk, hfills, hsettle, hothers, rs, ls, hpair, hls, hrs⟩ := hl.busy r hr hidle
    obtain ⟨f, hf, hfk⟩ := Option.map_eq_some_iff.mp hsettle
    refine ⟨by rw [hf, hidle]; rfl, fun c hc hcf hlive l hl' hid => ?_, fun f' hf' => ?_, hthrough⟩
    · rcases hothers c hc hcf with hck | hfree
      · rw [hsettle, SerialTable.eq_of_id_eq hc hk hck] at hlive
        exact absurd rfl hlive
      · exact hl.letGo c hc (Call.fill_of_fills hcf) hfree l hl' hid
    · rw [hf] at hf'
      cases hf'
      obtain ⟨l, hl', hid, -⟩ := h.rows k hk
      refine ⟨l, hl', hid.trans hfk.symm, ?_⟩
      rw [← hid] at hls hrs
      rcases hrs with rfl | ⟨hfailed, hrefunded⟩ | ⟨-, hmoved⟩
      · rcases hls l hl' rfl with rfl | ⟨hclosed, hmoved⟩
        · rcases hpair.pairs hidle with hp | ⟨x, hhalf, hfilling, hx⟩
          · exact .pair hp
          · exact .halfway k hk hfills x hhalf hfilling hx
        · exact .moved hmoved hclosed
      · exact .refunded hrefunded hfailed
      · obtain ⟨c, hc, hmoves, hcl, hconf⟩ := hmoved
        exact .moved ⟨c, hc, hmoves, hcl, hconf⟩ (ho.moved c hc hmoves hconf l hl' hcl.symm)

end Law

/-- One filler, one charge and a settlement in step, in every run. -/
theorem request_settles {proc : SolarisProc} {w : World} {log : DeliveryLog} {conf : Config}
    {acts : List Act} {s : Sys} (hrun : exec (step proc) (Sys.init w log conf) acts = some s) :
    Exclusive s.wants s.fillHolds ∧
    (∀ p ∈ s.game.payments, ∀ q ∈ s.game.payments, ∀ id, p.detail = .karumFill id →
      q.detail = .karumFill id → p = q) ∧
    ∀ r ∈ s.requests, s.Matched r := by
  obtain ⟨h, ho, hl, hf⟩ : Inv s ∧ Operated s ∧ Lockstep s ∧ FillCharged s := by
    refine @exec_invariant' _ _ _ (fun m => Inv m ∧ Operated m ∧ Lockstep m ∧ FillCharged m)
      (fun m act m' hm hs => ?_) _ _ _ ⟨inv_init w log conf, operated_init w log conf,
        lockstep_init w log conf, fun p hp => absurd hp (SerialTable.not_mem_empty p)⟩ hrun
    obtain ⟨h, ho, hl, hf⟩ := hm
    have hstep := step_spec hs
    exact ⟨h.step hstep, ho.step h hstep, hl.step ho h hstep, hf.step hstep⟩
  refine ⟨hl.exclusive, ?_, fun r hr => hl.matched ho h hr⟩
  intro p hp q hq id hpd hqd
  exact hl.charge_unique h hf hp hq hpd hqd

def fillRun : List Act :=
  [.post (sampleSession 1) (sampleEdge 1 "") ⟨"spice", 5, 100, none, ⟨1, 0⟩⟩,
    .fill (sampleSession 2) (sampleEdge 2 "spice") ⟨1, 51, 100, "spice", ⟨2, 0⟩, ⟨3, 0⟩⟩, .write 1]

theorem request_settles_fill :
    ∃ s, exec (step plainProc) sampleSys (fillRun ++ [.write 1, .answer 1, .settle 1]) = some s ∧
      (∃ r ∈ s.requests, r.status = .filled) ∧ ∀ r ∈ s.requests, s.Matched r := by
  have hrun := (Option.some_get (show (exec (step plainProc) sampleSys
    (fillRun ++ [.write 1, .answer 1, .settle 1])).isSome by decide)).symm
  exact ⟨_, hrun, by decide, (request_settles hrun).2.2⟩

def PortalStage.isFinished : PortalStage → Bool
  | .finished _ => true
  | _ => false

def returnedFillRun : List Act :=
  fillRun ++ [.lose 1, .settle 1, .force .forceReturn 1 ⟨4, 0⟩, .write 2, .answer 2, .settle 2]

/-- The operator's return cancels the listing and leaves the request to be reconciled, with
no handler under way: not one of the matching pairs. -/
theorem forceReturn_unmatched :
    ¬ ∀ acts s, exec (step plainProc) sampleSys acts = some s →
      (∀ k ∈ s.calls, k.portal.isFinished = true) → ∀ r ∈ s.requests, ∀ l ∈ s.listings,
        r.settlement = some l.listingId → r.status.pairs l.status = true := by
  intro h
  have hrun := (Option.some_get
    (show (exec (step plainProc) sampleSys returnedFillRun).isSome by decide)).symm
  exact absurd (h _ _ hrun) (by decide)

end LastSietch.Karum
