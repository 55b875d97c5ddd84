import LastSietch.Karum.Solari
import LastSietch.Karum.Invariants

/-!
# What stands behind an active listing

A listing that is up for sale should have its item in escrow: an escrow row of the same
listing and the same item, still held. Two calls can break this, and `Sys.keepsBacking` is
the condition that they do not:

* a listing call that replays another listing's escrow row, because the writer's gate goes
  by the correlation id alone (`reusedCorrRun`);
* an operator's hand-over of the item while the listing is up for sale, or while a handler
  may still put it up again.

`active_escrowed` proves the backing in every run that meets the condition.
-/

namespace LastSietch.Karum

open Runs

def Escrow.backs (t : Escrow) (listing : Nat) (item : Option Nat) : Prop :=
  ∃ e ∈ t, e.listingId = listing ∧ item = some e.itemId ∧ e.state = .held

def Call.mayReopen (k : Call) : Bool :=
  k.portal == .waiting &&
    match k.op, k.writer with
    | .list _, .done r => r.good
    | .buy _, .sent | .cancel _, .sent => true
    | .buy _, .done r => r.saleExit.lets
    | .cancel _, .done r => r.status == .deferred
    | _, _ => false

def Sys.offMarket (s : Sys) (listing : Nat) : Prop :=
  (∀ l ∈ s.listings, l.listingId = listing → l.status ≠ .active) ∧
    ∀ c ∈ s.calls, c.op.listingId = listing → c.mayReopen = false

instance (s : Sys) (listing : Nat) : Decidable (s.offMarket listing) := by
  unfold Sys.offMarket
  infer_instance

/-- The condition on the next step of the writer of `k`. -/
def Sys.safeWrite (s : Sys) (k : Call) : Prop :=
  match k.op, k.writer with
  | .list a, .sent => k.portal = .waiting → ∀ e ∈ s.game.escrow, e.correlationId = a.corr →
      e.listingId = a.listingId ∧ e.itemId = a.itemId ∧ e.state = .held
  | .forceDeliver a, .sent | .forceReturn a, .sent =>
      (∃ e ∈ s.game.escrow, e.listingId = a.listingId ∧ e.state = .held) → s.offMarket a.listingId
  | _, _ => True

instance (s : Sys) (k : Call) : Decidable (s.safeWrite k) := by
  unfold Sys.safeWrite
  split <;> infer_instance

def Sys.keepsBacking (s : Sys) : Act → Prop
  | .write c => ∀ k ∈ s.calls, k.id = c → k.op.start s.conf = none → s.safeWrite k
  | _ => True

instance (s : Sys) (act : Act) : Decidable (s.keepsBacking act) := by
  unfold Sys.keepsBacking
  split <;> infer_instance

/-! ## What a writer does to held rows -/

theorem Op.listingId_of_deliver {op : Op} {stage : WriterStage} {a : DeliveryArgs}
    (h : op.txn stage = some (.deliver a)) : a.listingId = op.listingId := by
  cases op <;> cases stage <;> cases h <;> rfl

theorem Delivery.escrow_keep {a : DeliveryArgs} {db db' : GameDb} {r : Option DeliveryResult}
    (h : Delivery a db r db') {e : EscrowRow} (he : e ∈ db.escrow) :
    e ∈ db'.escrow ∨ e.listingId = a.listingId ∧ e.state = .held := by
  cases h with
  | settled | logged => exact Or.inl he
  | missing f hf hstack =>
    obtain ⟨hmem, hlisting, hheld⟩ := heldEscrow_some hf
    by_cases hid : e.id = f.id
    · rw [SerialTable.eq_of_id_eq he hmem hid]
      exact Or.inr ⟨hlisting, hheld⟩
    · exact Or.inl (mem_markMissing.mpr ⟨e, he, by rw [if_neg hid]⟩)
  | handed f who stack mask depth expiry orders log hf =>
    obtain ⟨hmem, hlisting, hheld⟩ := heldEscrow_some hf
    by_cases hid : e.id = f.id
    · rw [SerialTable.eq_of_id_eq he hmem hid]
      exact Or.inr ⟨hlisting, hheld⟩
    · exact Or.inl (mem_closeEscrow.mpr ⟨e, he, by rw [if_neg hid]⟩)

section Writer

variable {proc : SolarisProc} {conf : Config} {op : Op} {db db' : GameDb}
  {stage stage' : WriterStage}

theorem WriterStep.escrow_keep (h : WriterStep proc conf op db stage stage' db') {e : EscrowRow}
    (he : e ∈ db.escrow) :
    e ∈ db'.escrow ∨ (e.listingId = op.listingId ∧ e.state = .held) ∧
      ∃ a r, op.txn stage = some (.deliver a) ∧ stage' = op.onCommit stage (.delivery r) ∧
        (stage = .sent → op.start conf = none) := by
  cases h with
  | refused | raised => exact Or.inl he
  | committed _ t res _ ht heff hstart =>
    cases heff with
    | listReplay | payReplay | fillReplay | refundReplay | paid | refunded => exact Or.inl he
    | listed a f escrow res world htake hheld hid hrows =>
      exact Or.inl ((SerialTable.mem_of_rows hrows).mpr (Or.inr he))
    | filled a f escrow p payments res world htake hheld heid herows =>
      exact Or.inl ((SerialTable.mem_of_rows herows).mpr (Or.inr he))
    | delivered a r _ hdlv =>
      rcases hdlv.escrow_keep he with hkeep | ⟨hlisting, hheld⟩
      · exact Or.inl hkeep
      · exact Or.inr ⟨⟨hlisting.trans (Op.listingId_of_deliver ht), hheld⟩, a, r, ht, rfl, hstart⟩

theorem Op.start_spec {conf : Config} {r : Reply} (h : op.start conf = some r) :
    r = .unknown ∨ r = .deferred ∨ ∃ token, r = .failJson token := by
  unfold Op.start at h
  split at h
  · exact Or.inl (Option.some.inj h).symm
  · split at h
    · exact Or.inr (Or.inl (Option.some.inj h).symm)
    · split at h
      · exact Or.inr (Or.inr ⟨_, (Option.some.inj h).symm⟩)
      · cases h

theorem Op.start_not_good {conf : Config} {r : Reply} (h : op.start conf = some r) :
    r.good = false := by
  rcases Op.start_spec h with rfl | rfl | ⟨token, rfl⟩ <;> rfl

theorem WriterStep.listed {a : ListArgs} {r : Reply}
    (h : WriterStep proc conf (.list a) db stage (.done r) db') (hgood : r.good = true) :
    stage = .sent ∧ r.itemId = some a.itemId ∧ (db' = db ∧
      (∃ e ∈ db.escrow, e.correlationId = a.corr) ∧ (Op.list a).start conf = none ∨
        db'.escrow.backs a.listingId (some a.itemId)) := by
  generalize hdone : WriterStage.done r = stage' at h
  cases h with
  | refused r' hstart =>
    cases hdone
    rw [Op.start_not_good hstart] at hgood
    cases hgood
  | raised _ t token ht =>
    cases hdone
    cases hgood
  | committed _ t res _ ht heff hstart =>
    cases stage <;> cases ht
    cases heff with
    | listReplay _ e he hcorr =>
      cases hdone
      exact ⟨rfl, rfl, Or.inl ⟨rfl, ⟨e, he, hcorr⟩, hstart rfl⟩⟩
    | listed _ e escrow res world htake hheld hid hrows =>
      cases hdone
      exact ⟨rfl, rfl, Or.inr ⟨e, (SerialTable.mem_of_rows hrows).mpr (Or.inl rfl),
        hheld.listingId, by rw [hheld.itemId], hheld.state⟩⟩

end Writer

theorem cancelReply_status (r : Option DeliveryResult) : (cancelReply r).status ≠ .deferred := by
  cases r with
  | none => decide
  | some r =>
    obtain ⟨state, order, item, escrow, stack⟩ := r
    cases state <;> simp [cancelReply, DeliveryState.status, Reply.failJson]

/-! ## The invariant -/

structure Backed (s : Sys) : Prop where
  active : ∀ l ∈ s.listings, l.status = .active → s.game.escrow.backs l.listingId l.escrowItemId
  reserved : ∀ k ∈ s.calls, k.op.claims = true → k.mayReopen = true → ∀ l ∈ s.listings,
    l.listingId = k.op.listingId → s.game.escrow.backs l.listingId l.escrowItemId
  listed : ∀ k ∈ s.calls, ∀ a, k.op = .list a → k.mayReopen = true → ∀ r, k.writer = .done r →
    s.game.escrow.backs a.listingId r.itemId

theorem backed_init (w : World) (log : DeliveryLog) (conf : Config) :
    Backed (Sys.init w log conf) :=
  ⟨fun l hl => absurd hl (SerialTable.not_mem_empty l),
    fun k hk => absurd hk (SerialTable.not_mem_empty k),
    fun k hk => absurd hk (SerialTable.not_mem_empty k)⟩

theorem Call.waiting_of_mayReopen {k : Call} (h : k.mayReopen = true) : k.portal = .waiting := by
  simp only [Call.mayReopen, Bool.and_eq_true, beq_iff_eq] at h
  exact h.1

theorem Call.kind_of_mayReopen {k : Call} (h : k.mayReopen = true) :
    (∃ a, k.op = .list a) ∨ k.op.claims = true := by
  unfold Call.mayReopen at h
  cases hop : k.op <;> simp_all [Op.claims]

section Held

variable {s : Sys} {k : Call}

theorem Inv.offMarket_of_holds (h : Inv s) (hk : k ∈ s.calls) (hclaim : k.op.claims = true)
    (hfree : ¬ k.free) :
    (∀ l ∈ s.listings, l.listingId = k.op.listingId → l.status ≠ .active) ∧
      ∀ c ∈ s.calls, c.op.listingId = k.op.listingId → c.id ≠ k.id → c.mayReopen = false := by
  have hholds : s.holds k.id k.op.listingId := ⟨k, hk, rfl, rfl, hclaim, hfree⟩
  refine ⟨fun l hl hid hactive => ?_, fun c hc hlisting hne => ?_⟩
  · exact h.board.not_open hholds ⟨l, hl, hid, Or.inr hactive⟩
  · rw [Bool.eq_false_iff]
    intro hreopen
    have hwait := Call.waiting_of_mayReopen hreopen
    rcases Call.kind_of_mayReopen hreopen with ⟨a, hop⟩ | hc'
    · refine (h.listing c hc a hop hwait).1 k hk hclaim ?_
      rw [← hlisting, hop]
      rfl
    · exact hne (h.board.holder_eq ⟨c, hc, rfl, hlisting, hc', not_free_of_waiting hwait⟩ hholds)

theorem Inv.not_free_of_txn (h : Inv s) (hk : k ∈ s.calls) {t : Txn}
    (ht : k.op.txn k.writer = some t) : ¬ k.free := by
  intro hfree
  obtain ⟨r, hdone, -⟩ := h.done_of_free hk hfree
  rw [hdone] at ht
  cases hop : k.op <;> rw [hop] at ht <;> cases ht

variable {proc : SolarisProc} {stage : WriterStage} {game : GameDb}

theorem Inv.offMarket_delivered (h : Inv s) (hk : k ∈ s.calls)
    (hsafe : k.op.start s.conf = none → s.safeWrite k)
    (hstart : k.writer = .sent → k.op.start s.conf = none)
    {a : DeliveryArgs} {r : Option DeliveryResult} (ht : k.op.txn k.writer = some (.deliver a))
    {e : EscrowRow} (he : e ∈ s.game.escrow) (hlisting : e.listingId = k.op.listingId)
    (hheld : e.state = .held) :
    Sys.offMarket
      { s with game, calls := s.setWriter k.id (k.op.onCommit k.writer (.delivery r)) }
      k.op.listingId := by
  have hself : ({ k with writer := k.op.onCommit k.writer (.delivery r) } : Call).mayReopen =
      false := by
    cases hop : k.op <;> cases hwriter : k.writer <;> rw [hop, hwriter] at ht <;> cases ht <;>
      simp [Call.mayReopen, Op.onCommit, saleReply_charged, cancelReply_status]
  have hothers : (∀ l ∈ s.listings, l.listingId = k.op.listingId → l.status ≠ .active) ∧
      ∀ c ∈ s.calls, c.op.listingId = k.op.listingId → c.id ≠ k.id → c.mayReopen = false := by
    cases hclaim : k.op.claims with
    | true => exact h.offMarket_of_holds hk hclaim (h.not_free_of_txn hk ht)
    | false =>
      have hoff : s.offMarket k.op.listingId := by
        cases hop : k.op <;> cases hwriter : k.writer <;> rw [hop, hwriter] at ht <;> cases ht <;>
          simp only [hop, Op.claims, Bool.true_eq_false] at hclaim
        all_goals
          simp only [Sys.safeWrite, hop, hwriter, forall_const] at hsafe hstart
          rw [hop] at hlisting
          exact hsafe hstart ⟨e, he, hlisting, hheld⟩
      exact ⟨hoff.1, fun c hc hcl _ => hoff.2 c hc hcl⟩
  refine ⟨hothers.1, fun c hc hcl => ?_⟩
  rcases (mem_setWriter hk _ c).mp hc with rfl | ⟨hc, hne⟩
  · exact hself
  · exact hothers.2 c hc hcl hne

theorem Inv.held_wrote (h : Inv s) (hk : k ∈ s.calls)
    (hsafe : k.op.start s.conf = none → s.safeWrite k)
    (hwrite : WriterStep proc s.conf k.op s.game k.writer stage game) {listing : Nat} {item : Option Nat}
    (hb : s.game.escrow.backs listing item) :
    game.escrow.backs listing item ∨
      Sys.offMarket { s with game, calls := s.setWriter k.id stage } listing := by
  obtain ⟨e, he, hlisting, hitem, hheld⟩ := hb
  rcases hwrite.escrow_keep he with hkeep | ⟨⟨hel, -⟩, a, r, ht, rfl, hstart⟩
  · exact Or.inl ⟨e, hkeep, hlisting, hitem, hheld⟩
  · rw [← hlisting, hel]
    exact Or.inr (h.offMarket_delivered hk hsafe hstart ht he hel hheld)

theorem WriterStep.mayReopen_back (hwrite : WriterStep proc s.conf k.op s.game k.writer stage game)
    (hclaim : k.op.claims = true)
    (h : ({ k with writer := stage } : Call).mayReopen = true) : k.mayReopen = true := by
  have hwait : k.portal = .waiting := by
    have := Call.waiting_of_mayReopen h
    exact this
  cases hop : k.op with
  | list | forceDeliver | forceReturn | refund =>
    rw [hop] at hclaim
    cases hclaim
  | fill a => simp [Call.mayReopen, hop] at h
  | buy a =>
    cases hwriter : k.writer with
    | sent => simp [Call.mayReopen, hop, hwriter, hwait]
    | done r =>
      rw [hwriter] at hwrite
      exact hwrite.not_done.elim
    | paid new =>
      have hcharged : stage.charged :=
        hwrite.charged (by rw [hop]; rfl) (by rw [hwriter]; trivial)
      cases stage <;> simp_all [Call.mayReopen, WriterStage.charged]
  | cancel a =>
    cases hwriter : k.writer with
    | sent => simp [Call.mayReopen, hop, hwriter, hwait]
    | done r =>
      rw [hwriter] at hwrite
      exact hwrite.not_done.elim
    | paid new =>
      rw [hop, hwriter] at hwrite
      cases hwrite with
      | raised _ t token ht => cases ht
      | committed _ t res _ ht => cases ht

theorem Backed.wrote (hb : Backed s) (h : Inv s) (hk : k ∈ s.calls)
    (hsafe : k.op.start s.conf = none → s.safeWrite k)
    (hwrite : WriterStep proc s.conf k.op s.game k.writer stage game) :
    Backed { s with game, calls := s.setWriter k.id stage } := by
  refine ⟨fun l hl hactive => ?_, fun c hc hclaim hreopen l hl hid => ?_,
    fun c hc a hop hreopen r hdone => ?_⟩
  · rcases h.held_wrote hk hsafe hwrite (hb.active l hl hactive) with hback | hoff
    · exact hback
    · exact absurd hactive (hoff.1 l hl rfl)
  · have hold : s.game.escrow.backs l.listingId l.escrowItemId := by
      rcases (mem_setWriter hk stage c).mp hc with rfl | ⟨hc, -⟩
      · exact hb.reserved k hk hclaim (hwrite.mayReopen_back hclaim hreopen) l hl hid
      · exact hb.reserved c hc hclaim hreopen l hl hid
    rcases h.held_wrote hk hsafe hwrite hold with hback | hoff
    · exact hback
    · rw [hoff.2 c hc hid.symm] at hreopen
      cases hreopen
  · rcases (mem_setWriter hk stage c).mp hc with rfl | ⟨hc₀, -⟩
    · -- the call that has just listed
      have hwait := Call.waiting_of_mayReopen hreopen
      have hgood : r.good = true := by
        rw [show k.op = .list a from hop] at hreopen
        simp only [Call.mayReopen, show stage = .done r from hdone, Bool.and_eq_true] at hreopen
        exact hreopen.2
      rw [show k.op = .list a from hop, show stage = .done r from hdone] at hwrite
      obtain ⟨hsent, hitem, ⟨rfl, ⟨e, he, hcorr⟩, hstart⟩ | hback⟩ := hwrite.listed hgood
      · simp only [Sys.safeWrite, show k.op = .list a from hop, hsent] at hsafe
        obtain ⟨hlisting, heitem, hheld⟩ := hsafe hstart hwait e he hcorr
        exact ⟨e, he, hlisting, by rw [hitem, heitem], hheld⟩
      · rw [hitem]
        exact hback
    · rcases h.held_wrote hk hsafe hwrite (hb.listed c hc₀ a hop hreopen r hdone) with hback | hoff
      · exact hback
      · rw [hoff.2 c hc (by rw [hop]; rfl)] at hreopen
        cases hreopen

end Held

/-! ## The handlers -/

section Handlers

variable {s : Sys} {op : Op} {read : ListingStatus} {listings : Listings} {requests : Requests}

theorem Reserve.escrowItem (h : Reserve s op read listings requests) {m : Listing}
    (hm : m ∈ listings) : m.listingId = s.listings.next ∨
      ∃ l ∈ s.listings, l.listingId = m.listingId ∧ l.escrowItemId = m.escrowItemId := by
  cases h with
  | list u f ctrl owned src listings hrows =>
    rcases (SerialTable.mem_of_rows hrows).mp hm with rfl | hm
    · exact Or.inl rfl
    · exact Or.inr ⟨m, hm, rfl, rfl⟩
  | fill u f ctrl owned src row listings hrow hid hactive hrows =>
    rcases (SerialTable.mem_of_rows hrows).mp hm with rfl | hm
    · exact Or.inl rfl
    · exact Or.inr ⟨m, hm, rfl, rfl⟩
  | buy u f ctrl row listings hrow hid hactive hmem =>
    rcases (hmem m).mp hm with rfl | ⟨hm, -⟩
    · exact Or.inr ⟨row, hrow, rfl, rfl⟩
    · exact Or.inr ⟨m, hm, rfl, rfl⟩
  | cancel f row listings hrow hid hactive hmem =>
    rcases (hmem m).mp hm with rfl | ⟨hm, -⟩
    · exact Or.inr ⟨row, hrow, rfl, rfl⟩
    · exact Or.inr ⟨m, hm, rfl, rfl⟩
  | forceDeliver | forceReturn | refund => exact Or.inr ⟨m, hm, rfl, rfl⟩

theorem Backed.sent (hb : Backed s) (h : Inv s) {calls : Calls}
    (hres : Reserve s op read listings requests)
    (hcalls : calls.rows = ⟨s.calls.next, op, read, .waiting, .sent⟩ :: s.calls.rows) :
    Backed { s with listings, requests, calls } := by
  refine ⟨fun l hl hactive => ?_, fun c hc hclaim hreopen m hm hid => ?_,
    fun c hc a hop hreopen r hdone => ?_⟩
  · rcases hres.open_mem hl (Or.inr hactive) with ⟨hl, -⟩ | ⟨-, hpending, -⟩
    · exact hb.active l hl hactive
    · rw [hactive] at hpending
      cases hpending
  · rcases (SerialTable.mem_of_rows hcalls).mp hc with rfl | hc
    · -- the new call has found its row active
      cases hres with
      | list | forceDeliver | forceReturn | refund => cases hclaim
      | fill => cases hreopen
      | buy u f ctrl row listings hrow hrid hactive hmem =>
        rcases (hmem m).mp hm with rfl | ⟨-, hne⟩
        · exact hb.active row hrow hactive
        · exact absurd hid hne
      | cancel f row listings hrow hrid hactive hmem =>
        rcases (hmem m).mp hm with rfl | ⟨-, hne⟩
        · exact hb.active row hrow hactive
        · exact absurd hid hne
    · rcases hres.escrowItem hm with hfresh | ⟨l, hl, hlid, hitem⟩
      · have := h.listing_lt hc
        omega
      · rw [← hlid, ← hitem]
        exact hb.reserved c hc hclaim hreopen l hl (hlid.trans hid)
  · rcases (SerialTable.mem_of_rows hcalls).mp hc with rfl | hc
    · cases hdone
    · exact hb.listed c hc a hop hreopen r hdone

end Handlers

section Exits

variable {s : Sys} {k : Call} {r : Reply}

theorem Backed.of_sets (hb : Backed s) (hk : k ∈ s.calls) (hwait : k.portal = .waiting)
    (hdone : k.writer = .done r ∨ r = .unknown) {l m : Listing} (hl : l ∈ s.listings)
    (hid : l.listingId = k.op.listingId) (hsets : k.op.Sets r l m) (hactive : m.status = .active) :
    s.game.escrow.backs m.listingId m.escrowItemId := by
  cases hsets with
  | force target hforce hm =>
    rw [hm, Listing.status_set] at hactive
    subst hactive
    cases hop : k.op <;> simp only [hop, Op.forced] at hforce <;> try cases hforce
    all_goals split at hforce <;> cases hforce
  | cas expect target cols hexit hstatus hm =>
    rw [hm, Listing.status_set] at hactive
    subst hactive
    cases hop : k.op with
    | forceDeliver | forceReturn | refund =>
      rw [hop] at hexit
      cases hexit
    | list a =>
      simp only [hop, Op.exitCas] at hexit
      split at hexit
      · rename_i hgood
        cases hexit
        have hdone : k.writer = .done r := by
          rcases hdone with hdone | rfl
          · exact hdone
          · cases hgood
        have hreopen : k.mayReopen = true := by
          simpa [Call.mayReopen, hwait, hop, hdone] using hgood
        obtain ⟨e, he, hlisting, hitem, hheld⟩ := hb.listed k hk a hop hreopen r hdone
        refine ⟨e, he, ?_, ?_, hheld⟩
        · rw [hlisting, hm, Listing.listingId_set, hid, hop]
          rfl
        · rw [hm, hitem]
          rfl
      · cases hexit
    | buy a =>
      simp only [hop, Op.exitCas] at hexit
      cases hr : r.saleExit <;> simp only [hr, SaleExit.buyStatus] at hexit <;> cases hexit
      all_goals
        have hdone : k.writer = .done r := by
          rcases hdone with hdone | rfl
          · exact hdone
          · cases hr
        have hreopen : k.mayReopen = true := by
          simp [Call.mayReopen, hwait, hop, hdone, hr, SaleExit.lets]
        rw [hm]
        exact hb.reserved k hk (by rw [hop]; rfl) hreopen l hl hid
    | fill a =>
      simp only [hop, Op.exitCas] at hexit
      cases hr : r.saleExit <;> simp only [hr, SaleExit.fillStatus] at hexit <;> cases hexit
    | cancel a =>
      simp only [hop, Op.exitCas] at hexit
      split at hexit
      · rename_i hdeferred
        cases hexit
        have hdone : k.writer = .done r := by
          rcases hdone with hdone | rfl
          · exact hdone
          · cases hdeferred
        have hreopen : k.mayReopen = true := by
          simp [Call.mayReopen, hwait, hop, hdone, hdeferred]
        rw [hm]
        exact hb.reserved k hk (by rw [hop]; rfl) hreopen l hl hid
      · split at hexit <;> cases hexit

theorem Inv.escrowItem_of_sets (h : Inv s) (hk : k ∈ s.calls) (hwait : k.portal = .waiting)
    {c : Call} (hc : c ∈ s.calls) (hclaim : c.op.claims = true) (hcwait : c.portal = .waiting)
    (hne : c.id ≠ k.id) (hlisting : c.op.listingId = k.op.listingId) {l m : Listing}
    (hsets : k.op.Sets r l m) : m.escrowItemId = l.escrowItemId := by
  cases hsets with
  | force target hforce hm => rw [hm]; rfl
  | cas expect target cols hexit hstatus hm =>
    have hnoclaim : k.op.claims = false := by
      rw [Bool.eq_false_iff]
      intro hkclaim
      exact hne (h.board.holder_eq ⟨c, hc, rfl, hlisting, hclaim, not_free_of_waiting hcwait⟩
        ⟨k, hk, rfl, rfl, hkclaim, not_free_of_waiting hwait⟩)
    cases hop : k.op with
    | buy | fill | cancel =>
      rw [hop] at hnoclaim
      cases hnoclaim
    | forceDeliver | forceReturn | refund =>
      rw [hop] at hexit
      cases hexit
    | list a =>
      refine absurd ?_ ((h.listing k hk a hop hwait).1 c hc hclaim)
      rw [hlisting, hop]
      rfl

/-- An update of the handler of `k`: every changed row is the work of its exit. -/
theorem Backed.updated (hb : Backed s) (h : Inv s) (hk : k ∈ s.calls) {stage : PortalStage}
    (hstage : stage ≠ .waiting) (listings : Listings) (requests : Requests)
    (hback : ∀ m ∈ listings, m ∈ s.listings ∨ ∃ l ∈ s.listings,
      l.listingId = k.op.listingId ∧ k.op.Sets r l m ∧ k.portal = .waiting ∧
        (k.writer = .done r ∨ r = .unknown)) :
    Backed { s with listings, requests, calls := s.setPortal k.id stage } := by
  have hother : ∀ c ∈ s.setPortal k.id stage, c.mayReopen = true → c ∈ s.calls ∧ c.id ≠ k.id := by
    intro c hc hreopen
    rcases (mem_setPortal hk stage c).mp hc with rfl | hc
    · exact absurd (Call.waiting_of_mayReopen hreopen) hstage
    · exact hc
  refine ⟨fun m hm hactive => ?_, fun c hc hclaim hreopen m hm hid => ?_,
    fun c hc a hop hreopen r' hdone => ?_⟩
  · rcases hback m hm with hm | ⟨l, hl, hid, hsets, hwait, hdone⟩
    · exact hb.active m hm hactive
    · exact hb.of_sets hk hwait hdone hl hid hsets hactive
  · obtain ⟨hc, hne⟩ := hother c hc hreopen
    rcases hback m hm with hm | ⟨l, hl, hlid, hsets, hwait, -⟩
    · exact hb.reserved c hc hclaim hreopen m hm hid
    · have hsame := hsets.sameTerms.listingId
      have hlisting : c.op.listingId = k.op.listingId := by rw [← hid, hsame, hlid]
      rw [h.escrowItem_of_sets hk hwait hc hclaim (Call.waiting_of_mayReopen hreopen) hne hlisting
        hsets, hsame]
      exact hb.reserved c hc hclaim hreopen l hl (by rw [← hsame, hid])
  · obtain ⟨hc, -⟩ := hother c hc hreopen
    exact hb.listed c hc a hop hreopen r' hdone

end Exits

theorem Backed.step {proc : SolarisProc} {s s' : Sys} {act : Act} (hb : Backed s) (h : Inv s)
    (hsafe : s.keepsBacking act) (hstep : Step proc s act s') : Backed s' := by
  cases hstep with
  | env | post | cancelRequest => exact ⟨hb.active, hb.reserved, hb.listed⟩
  | sent _ op read listings requests calls hres hcalls => exact hb.sent h hres hcalls
  | wrote k stage game hk hwrite => exact hb.wrote h hk (hsafe k hk rfl) hwrite
  | exited _ k r listings hk hact hwait hexit =>
    have hdone : k.writer = .done r ∨ r = .unknown := hact.imp And.right And.right
    refine @Backed.updated s k r hb h hk _ (Op.exitStage_ne_waiting k.op r) listings s.requests
      (fun m hm => ?_)
    rcases hexit.mem hm with hm | ⟨l, hl, hid, hsets⟩
    · exact Or.inl hm
    · exact Or.inr ⟨l, hl, hid, hsets, hwait, hdone⟩
  | aborted _ k r hk hact hwait hexit =>
    exact @Backed.updated s k r hb h hk _ (fun hw => by cases hw) s.listings s.requests
      (fun m hm => Or.inl hm)
  | settled k r hk hhalf =>
    exact @Backed.updated s k r hb h hk _ (fun hw => by cases hw) s.listings _
      (fun m hm => Or.inl hm)

/-- Every active listing has its item in escrow, in every run that keeps the condition. -/
theorem active_escrowed {proc : SolarisProc} {w : World} {log : DeliveryLog} {conf : Config}
    {acts : List Act} {s : Sys}
    (hsafe : Along (step proc) Sys.keepsBacking (Sys.init w log conf) acts)
    (hrun : exec (step proc) (Sys.init w log conf) acts = some s) :
    ∀ l ∈ s.listings, l.status = .active →
      ∃ e ∈ s.game.escrow, e.listingId = l.listingId ∧ l.escrowItemId = some e.itemId ∧
        e.state = .held := by
  have hboth : Inv s ∧ Backed s := by
    refine @exec_invariant _ _ _ _ (fun m => Inv m ∧ Backed m) (fun m act m' hm hg hs => ?_) _ _ _
      ⟨inv_init w log conf, backed_init w log conf⟩ hsafe hrun
    exact ⟨hm.1.step (step_spec hs), hm.2.step hm.1 hg (step_spec hs)⟩
  exact hboth.2.active

def refusedBuyRun : List Act :=
  [listAct 51 "spice" 1, .write 1, .answer 1, buyAct 1 2,
    .env { sampleWorld with balances := Table.empty } SerialTable.empty ⟨true, true, true⟩,
    .write 2, .answer 2]

theorem active_escrowed_refusedBuy :
    ∃ s, exec (step plainProc) sampleSys refusedBuyRun = some s ∧
      (∃ l ∈ s.listings, l.status = .active ∧ l.escrowItemId = some 51) ∧
      ∀ l ∈ s.listings, l.status = .active →
        ∃ e ∈ s.game.escrow, e.listingId = l.listingId ∧ l.escrowItemId = some e.itemId ∧
          e.state = .held := by
  have hrun := (Option.some_get
    (show (exec (step plainProc) sampleSys refusedBuyRun).isSome by decide)).symm
  exact ⟨_, hrun, by decide, active_escrowed (by decide) hrun⟩

def reusedCorrRun : List Act :=
  [listAct 51 "spice" 7, .write 1, .answer 1, listAct 52 "water" 7, .write 2, .answer 2]

/-- Without the condition the second listing is for sale with nothing in escrow. -/
theorem reusedCorr_unbacked :
    ¬ ∀ acts s, exec (step plainProc) sampleSys acts = some s →
      ∀ l ∈ s.listings, l.status = .active →
        ∃ e ∈ s.game.escrow, e.listingId = l.listingId ∧ l.escrowItemId = some e.itemId ∧
          e.state = .held := by
  intro h
  have hrun := (Option.some_get
    (show (exec (step plainProc) sampleSys reusedCorrRun).isSome by decide)).symm
  exact absurd (h _ _ hrun) (by decide)

end LastSietch.Karum
