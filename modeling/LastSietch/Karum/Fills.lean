import LastSietch.Karum.Settlement

/-!
# A fill settles whole

Transaction A of `op_fill` opens two gates: the escrow row under the take's correlation id and
the payment row under the fill's own. `Applied` is what the transaction has done when both were
new, and `fill_cases` says that it does this, or finds both rows of this very fill and does
nothing, or raises.

The portal gives every fill a listing of its own, so the two rows of a fill can be told by its
ids and that listing: in every reachable state the ledgers have both of them or neither
(`fill_whole`).
-/

namespace LastSietch.Karum

open Runs

/-! ## One transaction -/

def FillArgs.Stored (a : FillArgs) (db : GameDb) : Prop :=
  ∃ e ∈ db.escrow, ∃ p ∈ db.payments, e.correlationId = a.takeCorr ∧
    p.correlationId = a.corr.uuid ∧ a.matches e p

/-- The fill has been applied: the one item stands in the exchange, the amount has moved from
the buyer to the seller, and each ledger has one more row. -/
structure Applied (a : FillArgs) (db db' : GameDb) : Prop where
  item : ∃ item dst position, db.world.items.get? a.itemId = some item ∧
    db.world.exchangeInventory = some dst ∧ item.inventoryId ≠ dst ∧
    item.templateId = a.templateId ∧ item.stackSize = some a.stackSize ∧
    db'.world.items = (db.world.moveItem a.itemId item.inventoryId dst position).items
  funds : (a.amount : Int) ≤ db.world.balances.of a.buyerCtrl
  parties : a.buyerCtrl ≠ a.sellerCtrl
  balances : Moves db.world.balances db'.world.balances a.buyerCtrl a.sellerCtrl a.amount
  rows : ∃ e p, db'.escrow.rows = e :: db.escrow.rows ∧ db'.payments.rows = p :: db.payments.rows ∧
    e.correlationId = a.takeCorr ∧ p.correlationId = a.corr.uuid ∧ a.matches e p ∧
    e.stackSize = a.stackSize ∧ e.state = .held ∧ p.status = .applied

def FillArgs.Fresh (a : FillArgs) (db : GameDb) : Prop :=
  (∀ e ∈ db.escrow, e.correlationId ≠ a.takeCorr) ∧
    ∀ p ∈ db.payments, p.correlationId ≠ a.corr.uuid

theorem exactController_self {w : World} {acct ctrl c : Nat}
    (h : w.exactController acct ctrl = some c) : c = ctrl := by
  unfold World.exactController at h
  split at h
  · exact (Option.some.inj h).symm
  · cases h

theorem karumTakeItem_exchange {a : TakeArgs} {w w' : World} {r : TakeResult}
    (hdst : a.dst = .exchange) (h : karumTakeItem a w = .ok (r, w')) :
    w.exchangeInventory = some r.dstInv := by
  simp only [karumTakeItem, bind_eq_ok, require_eq_ok, orRaise_eq_ok] at h
  obtain ⟨_, -, _, -, src, -, dst, hdstInv, _, -, item, -, _, -, _, -, _, -, hr⟩ := h
  cases hr
  rw [hdst] at hdstInv
  exact orRaise_eq_ok.mp hdstInv

section Cases

variable {proc : SolarisProc} {db db' : GameDb} {a : FillArgs}

theorem applied_of_fill (h : opFill proc a db = .ok (true, db')) : a.Fresh db ∧ Applied a db db' := by
  simp only [opFill, bind_eq_ok, orRaise_eq_ok, require_eq_ok] at h
  obtain ⟨seller, hseller, buyer, hbuyer, _, hparties, inv, -, h⟩ := h
  have hsellerEq : seller = a.sellerCtrl := exactController_self hseller
  have hbuyerEq : buyer = a.buyerCtrl := exactController_self hbuyer
  subst hsellerEq hbuyerEq
  split at h
  · simp only [bind_eq_ok, orRaise_eq_ok, require_eq_ok] at h
    obtain ⟨e, -, p, -, _, -, h⟩ := h
    cases h
  · rename_i escrow payments hescrow hpayments
    simp only [bind_eq_ok, orRaise_eq_ok, require_eq_ok] at h
    obtain ⟨_, -, _, -, _, -, ⟨res, world⟩, htake, stack, hstack, _, hquantity, quality, -, _,
      hfunds, h⟩ := h
    cases h
    obtain ⟨item, hitem, hinv, hne, hid, htpl, hsize, -, hexp, hworld⟩ := karumTakeItem_spec htake
    have hexchange : db.world.exchangeInventory = some res.dstInv :=
      karumTakeItem_exchange rfl htake
    have htemplate : item.templateId = a.templateId := by
      rcases hexp with hnone | hsome
      · cases hnone
      · exact (Option.some.inj hsome).symm
    have hbal : world.balances = db.world.balances := (karumTakeItem_frame htake).2.2
    rw [hbal] at hfunds
    have herows := @SerialTable.rows_update_insert? _ _ _ _ _ _ _ _ _
      (fun e => e.backfill res stack quality) (fun _ => rfl) (fun _ => rfl) hescrow
    have hprows := @SerialTable.rows_update_insert? _ _ _ _ _ _ _ _ _
      (fun p => p.before (world.balances.of a.buyerCtrl) (world.balances.of a.sellerCtrl))
      (fun _ => rfl) (fun _ => rfl) hpayments
    refine ⟨⟨fun e he => SerialTable.fresh_of_insert? hescrow he,
      fun p hp => SerialTable.fresh_of_insert? hpayments hp⟩,
      ⟨item, res.dstInv, res.positionIndex, hitem, hexchange, ?_, htemplate, ?_, ?_⟩,
      hfunds, Ne.symm hparties, ?_, _, _, herows, hprows, rfl, rfl, ?_, hquantity, rfl, rfl⟩
    · exact fun heq => hne (heq.symm.trans hinv)
    · rw [← hsize, hstack, hquantity]
    · rw [hworld, hinv]
      rfl
    · rw [← hbal]
      exact proc.moves_transfer world.balances a.buyerCtrl a.sellerCtrl a.amount
    · exact ⟨rfl, hid, rfl, htpl.trans htemplate, rfl, rfl, rfl, rfl⟩
  · cases h

theorem stored_of_fill (h : opFill proc a db = .ok (false, db')) : db' = db ∧ a.Stored db := by
  cases opFill_spec h with
  | fillReplay _ e p he hp hecorr hpcorr hmatch =>
    exact ⟨rfl, e, he, p, hp, hecorr, hpcorr, hmatch⟩

/-- The transaction settles the fill whole: it raises, or it is the first under its ids and is
applied, or it finds its rows. Only in the second case anything changes. -/
inductive FillCase (proc : SolarisProc) (a : FillArgs) (db : GameDb) : Prop
  | raised (e : Token) (hrun : (Txn.fill a).run proc db = .error e)
      (hsame : commit proc (.fill a) db = db)
  | applied (db' : GameDb) (hrun : (Txn.fill a).run proc db = .ok (.gate true, db'))
      (hcommit : commit proc (.fill a) db = db') (hfresh : a.Fresh db) (happlied : Applied a db db')
  | replayed (hrun : (Txn.fill a).run proc db = .ok (.gate false, db))
      (hsame : commit proc (.fill a) db = db) (hstored : a.Stored db)

theorem fill_cases (proc : SolarisProc) (a : FillArgs) (db : GameDb) : FillCase proc a db := by
  cases hrun : opFill proc a db with
  | error e =>
    have htxn : (Txn.fill a).run proc db = .error e := by simp [Txn.run, hrun, Except.map]
    exact .raised e htxn (by simp [commit, htxn])
  | ok r =>
    obtain ⟨new, db'⟩ := r
    have htxn : (Txn.fill a).run proc db = .ok (.gate new, db') := by
      simp [Txn.run, hrun, Except.map]
    have hcommit : commit proc (.fill a) db = db' := by simp [commit, htxn]
    cases new with
    | true =>
      obtain ⟨hfresh, happlied⟩ := applied_of_fill hrun
      exact .applied db' htxn hcommit hfresh happlied
    | false =>
      obtain ⟨rfl, hstored⟩ := stored_of_fill hrun
      exact .replayed htxn hcommit hstored

end Cases

/-! ## The rows of a fill in every run -/

def FillArgs.escrowRow (a : FillArgs) (db : GameDb) : Prop :=
  ∃ e ∈ db.escrow, e.correlationId = a.takeCorr ∧ e.listingId = a.listingId

def FillArgs.paymentRow (a : FillArgs) (db : GameDb) : Prop :=
  ∃ p ∈ db.payments, p.correlationId = a.corr.uuid ∧ p.listingId = a.listingId ∧
    p.detail = .karumFill a.requestId

def FillArgs.Recorded (a : FillArgs) (db : GameDb) : Prop :=
  ∃ e ∈ db.escrow, ∃ p ∈ db.payments, e.correlationId = a.takeCorr ∧
    p.correlationId = a.corr.uuid ∧ a.matches e p ∧ p.detail = .karumFill a.requestId

theorem FillArgs.Recorded.escrowRow {a : FillArgs} {db : GameDb} (h : a.Recorded db) :
    a.escrowRow db := by
  obtain ⟨e, he, p, -, hecorr, -, hmatch, -⟩ := h
  exact ⟨e, he, hecorr, hmatch.1⟩

theorem FillArgs.Recorded.paymentRow {a : FillArgs} {db : GameDb} (h : a.Recorded db) :
    a.paymentRow db := by
  obtain ⟨e, -, p, hp, -, hpcorr, hmatch, hdetail⟩ := h
  exact ⟨p, hp, hpcorr, hmatch.2.2.2.2.1, hdetail⟩

theorem FillArgs.Recorded.stored {a : FillArgs} {db : GameDb} (h : a.Recorded db) :
    a.Stored db := by
  obtain ⟨e, he, p, hp, hecorr, hpcorr, hmatch, -⟩ := h
  exact ⟨e, he, p, hp, hecorr, hpcorr, hmatch⟩

structure SameTake (e e' : EscrowRow) : Prop where
  correlationId : e'.correlationId = e.correlationId
  listingId : e'.listingId = e.listingId
  itemId : e'.itemId = e.itemId
  sellerAccountId : e'.sellerAccountId = e.sellerAccountId
  templateId : e'.templateId = e.templateId

theorem SameTake.refl (e : EscrowRow) : SameTake e e := ⟨rfl, rfl, rfl, rfl, rfl⟩

theorem FillArgs.matches_congr {a : FillArgs} {e e' : EscrowRow} {p p' : PaymentRow}
    (h : a.matches e p) (he : SameTake e e') (hp : SameCharge p p') : a.matches e' p' := by
  obtain ⟨hl, hi, hs, ht, hpl, hb, hps, hamount⟩ := h
  exact ⟨he.listingId.trans hl, he.itemId.trans hi, he.sellerAccountId.trans hs,
    he.templateId.trans ht, hp.listingId.trans hpl, hp.buyerAccountId.trans hb,
    hp.sellerAccountId.trans hps, hp.amount.trans hamount⟩

section Effects

variable {proc : SolarisProc} {db db' : GameDb} {t : Txn} {res : TxnResult}

theorem Effect.escrow_past (heff : Effect proc db t res db') {e : EscrowRow} (he : e ∈ db.escrow) :
    ∃ e' ∈ db'.escrow, SameTake e e' := by
  cases heff with
  | listReplay | payReplay | fillReplay | refundReplay | paid | refunded =>
    exact ⟨e, he, SameTake.refl e⟩
  | listed a f escrow res world htake hheld hid hrows =>
    exact ⟨e, (SerialTable.mem_of_rows hrows).mpr (Or.inr he), SameTake.refl e⟩
  | filled a f escrow p payments res world htake hheld heid herows =>
    exact ⟨e, (SerialTable.mem_of_rows herows).mpr (Or.inr he), SameTake.refl e⟩
  | delivered a res _ hdlv =>
    cases hdlv with
    | settled | logged => exact ⟨e, he, SameTake.refl e⟩
    | missing f hf hstack =>
      refine ⟨_, mem_markMissing.mpr ⟨e, he, rfl⟩, ?_⟩
      split <;> exact ⟨rfl, rfl, rfl, rfl, rfl⟩
    | handed f who stack mask depth expiry orders log hf =>
      refine ⟨_, mem_closeEscrow.mpr ⟨e, he, rfl⟩, ?_⟩
      split <;> exact ⟨rfl, rfl, rfl, rfl, rfl⟩

theorem FillArgs.Recorded.keep {a : FillArgs} (h : a.Recorded db)
    (heff : Effect proc db t res db') : a.Recorded db' := by
  obtain ⟨e, he, p, hp, hecorr, hpcorr, hmatch, hdetail⟩ := h
  obtain ⟨e', he', hsameTake⟩ := heff.escrow_past he
  obtain ⟨p', hp', hsameCharge⟩ := heff.payments_past hp
  exact ⟨e', he', p', hp', hsameTake.correlationId.trans hecorr,
    hsameCharge.correlationId.trans hpcorr, a.matches_congr hmatch hsameTake hsameCharge,
    hsameCharge.detail.trans hdetail⟩

def Txn.takes? : Txn → Option Nat
  | .list a => some a.listingId
  | .fill a => some a.listingId
  | _ => none

/-- A row of the fill after a transaction was there before, or the transaction has taken an
item for the fill's listing; a fill that has done so is recorded. -/
theorem Effect.rows_back (heff : Effect proc db t res db') {a : FillArgs}
    (h : a.escrowRow db' ∨ a.paymentRow db') : (a.escrowRow db ∨ a.paymentRow db) ∨
      t.takes? = some a.listingId ∧ ∀ b, t = .fill b → b.Recorded db' := by
  cases heff with
  | listReplay | payReplay | fillReplay | refundReplay => exact Or.inl h
  | delivered b res _ hdlv =>
    refine Or.inl (h.imp ?_ ?_)
    · rintro ⟨e', he', hcorr, hlisting⟩
      obtain ⟨e, he, hsame⟩ := hdlv.escrow_mem he'
      exact ⟨e, he, hsame.correlationId.symm.trans hcorr, hsame.listingId.symm.trans hlisting⟩
    · rintro ⟨p, hp, hrest⟩
      exact ⟨p, hdlv.payments_eq ▸ hp, hrest⟩
  | listed b e escrow res world htake hheld hid hrows =>
    rcases h with ⟨e', he', hcorr, hlisting⟩ | hpayment
    · rcases (SerialTable.mem_of_rows hrows).mp he' with rfl | he'
      · refine Or.inr ⟨?_, fun c hc => by cases hc⟩
        rw [Txn.takes?, ← hheld.listingId, hlisting]
      · exact Or.inl (Or.inl ⟨e', he', hcorr, hlisting⟩)
    · exact Or.inl (Or.inr hpayment)
  | paid b p payments buyer seller hpaid hid hrows =>
    refine Or.inl (h.imp_right ?_)
    rintro ⟨p', hp', hcorr, hlisting, hdetail⟩
    rcases (SerialTable.mem_of_rows hrows).mp hp' with rfl | hp'
    · rw [hpaid.detail] at hdetail
      cases hdetail
    · exact ⟨p', hp', hcorr, hlisting, hdetail⟩
  | filled b e escrow p payments res world htake hheld heid herows hpaid hpid hprows =>
    have hfilled : b.listingId = a.listingId ∨ a.escrowRow db ∨ a.paymentRow db := by
      rcases h with ⟨e', he', hcorr, hlisting⟩ | ⟨p', hp', hcorr, hlisting, hdetail⟩
      · rcases (SerialTable.mem_of_rows herows).mp he' with rfl | he'
        · exact Or.inl (hheld.listingId.symm.trans hlisting)
        · exact Or.inr (Or.inl ⟨e', he', hcorr, hlisting⟩)
      · rcases (SerialTable.mem_of_rows hprows).mp hp' with rfl | hp'
        · exact Or.inl (hpaid.listingId.symm.trans hlisting)
        · exact Or.inr (Or.inr ⟨p', hp', hcorr, hlisting, hdetail⟩)
    rcases hfilled with hlisting | hold
    · refine Or.inr ⟨congrArg some hlisting, fun c hc => ?_⟩
      cases hc
      exact ⟨e, (SerialTable.mem_of_rows herows).mpr (Or.inl rfl), p,
        (SerialTable.mem_of_rows hprows).mpr (Or.inl rfl), hheld.correlationId,
        hpaid.correlationId, ⟨hheld.listingId, hheld.itemId, hheld.sellerAccountId,
          hheld.templateId, hpaid.listingId, hpaid.buyerAccountId, hpaid.sellerAccountId,
          hpaid.amount⟩, hpaid.detail⟩
    · exact Or.inl hold
  | refunded b p payments buyer seller hpaid hid hrows =>
    refine Or.inl (h.imp_right ?_)
    rintro ⟨p', hp', hcorr, hlisting, hdetail⟩
    obtain ⟨q, hq, rfl⟩ := mem_stampReversed.mp hp'
    rcases (SerialTable.mem_of_rows hrows).mp hq with rfl | hq
    · split at hdetail <;> simp [PaymentRow.reversed, hpaid.detail] at hdetail
    · refine ⟨q, hq, ?_⟩
      split at hcorr <;> rename_i hq' <;> simp only [hq', if_true, if_false] at hlisting hdetail <;>
        exact ⟨hcorr, hlisting, hdetail⟩

end Effects

def Whole (s : Sys) : Prop :=
  ∀ k ∈ s.calls, ∀ a, k.op = .fill a →
    a.escrowRow s.game ∨ a.paymentRow s.game → a.Recorded s.game

theorem Op.takes_of_txn {op : Op} {stage : WriterStage} {t : Txn} (ht : op.txn stage = some t)
    {listing : Nat} (htakes : t.takes? = some listing) :
    op.take?.isSome ∧ op.listingId = listing ∧ ∀ a, op = .fill a → t = .fill a := by
  cases op <;> cases stage <;> cases ht <;> cases htakes <;> refine ⟨rfl, rfl, ?_⟩ <;>
    rintro a ⟨⟩
  rfl

section Step

variable {proc : SolarisProc} {s s' : Sys} {act : Act}

theorem Whole.wrote (hw : Whole s) (h : Inv s) {k : Call} {stage : WriterStage} {game : GameDb}
    (hk : k ∈ s.calls) (hwrite : WriterStep proc s.conf k.op s.game k.writer stage game) :
    Whole { s with game, calls := s.setWriter k.id stage } := by
  intro c hc a hop hrows
  obtain ⟨c₀, hc₀, -, hop₀, -⟩ := setWriter_back hk hc
  rw [hop] at hop₀
  generalize k.writer = before at hwrite
  cases hwrite with
  | refused | raised => exact hw c₀ hc₀ a hop₀ hrows
  | committed _ t res _ ht heff =>
    rcases heff.rows_back hrows with hold | ⟨htakes, hnew⟩
    · exact (hw c₀ hc₀ a hop₀ hold).keep heff
    · -- the taker of the fill's listing is the fill itself
      obtain ⟨htake, hlisting, hfill⟩ := Op.takes_of_txn ht htakes
      have hself : k = c₀ := h.taker k hk c₀ hc₀ htake (by rw [hop₀]; rfl) (by
        rw [hlisting, hop₀]
        rfl)
      exact hnew a (hfill a (hself ▸ hop₀))

theorem Whole.sent (hw : Whole s) (h : Inv s) {op : Op} {read : ListingStatus}
    {listings : Listings} {requests : Requests} {calls : Calls}
    (hres : Reserve s op read listings requests)
    (hcalls : calls.rows = ⟨s.calls.next, op, read, .waiting, .sent⟩ :: s.calls.rows) :
    Whole { s with listings, requests, calls } := by
  intro c hc a hop hrows
  rcases (SerialTable.mem_of_rows hcalls).mp hc with rfl | hc
  · obtain rfl : op = .fill a := hop
    have hfresh : a.listingId = s.listings.next := hres.fresh rfl
    exfalso
    rcases hrows with ⟨e, he, -, hlisting⟩ | ⟨p, hp, -, hlisting, hdetail⟩
    · obtain ⟨k, hk, b, hb, -, -, hkl, -⟩ := h.escrowed e he
      have hlt := h.listing_lt hk
      rw [← Op.listingId_of_take hb, ← hkl, hlisting, hfresh] at hlt
      exact absurd hlt (Nat.lt_irrefl _)
    · obtain ⟨k, hk, b, hb, -, -, hkl, -⟩ := h.charged p hp (by simp [PaymentRow.isRefund, hdetail])
      have hlt := h.listing_lt hk
      rw [← Op.listingId_of_sale hb, ← hkl, hlisting, hfresh] at hlt
      exact absurd hlt (Nat.lt_irrefl _)
  · exact hw c hc a hop hrows

theorem Whole.step (hw : Whole s) (h : Inv s) (hstep : Step proc s act s') : Whole s' := by
  cases hstep with
  | env | post | cancelRequest => exact hw
  | sent _ op read listings requests calls hres hcalls => exact hw.sent h hres hcalls
  | wrote k stage game hk hwrite => exact hw.wrote h hk hwrite
  | exited _ k r listings hk | aborted _ k r hk | settled k r hk =>
    intro c hc a hop hrows
    obtain ⟨c₀, hc₀, -, hop₀, -⟩ := setPortal_back hk hc
    exact hw c₀ hc₀ a (hop₀.trans hop) hrows

end Step

/-- A fill is settled whole or not at all. The transaction raises and changes nothing, or it is
applied with both rows, or it finds both rows with its own facts and changes nothing; and in
every reachable state the ledgers have both rows of a fill or neither. -/
theorem fill_whole (proc : SolarisProc) :
    (∀ (a : FillArgs) (db : GameDb), FillCase proc a db) ∧
    ∀ (w : World) (log : DeliveryLog) (conf : Config) (acts : List Act) (s : Sys),
      exec (step proc) (Sys.init w log conf) acts = some s →
      ∀ k ∈ s.calls, ∀ a, k.op = .fill a →
        (a.escrowRow s.game ↔ a.paymentRow s.game) ∧ (a.escrowRow s.game → a.Stored s.game) := by
  refine ⟨fun a db => fill_cases proc a db, fun w log conf acts s hrun k hk a hop => ?_⟩
  have hboth : Inv s ∧ Whole s := by
    refine @exec_invariant' _ _ _ (fun m => Inv m ∧ Whole m) (fun m act m' hm hs => ?_) _ _ _
      ⟨inv_init w log conf, fun k hk => absurd hk (SerialTable.not_mem_empty k)⟩ hrun
    exact ⟨hm.1.step (step_spec hs), hm.2.step hm.1 (step_spec hs)⟩
  have hwhole := hboth.2 k hk a hop
  exact ⟨⟨fun he => (hwhole (Or.inl he)).paymentRow, fun hp => (hwhole (Or.inr hp)).escrowRow⟩,
    fun he => (hwhole (Or.inl he)).stored⟩

theorem fill_whole_applied :
    ∃ s, exec (step plainProc) sampleSys fillRun = some s ∧
      (∃ k ∈ s.calls, ∃ a ∈ k.op.fill?, ∃ e ∈ s.game.escrow, e.listingId = a.listingId) ∧
      ∀ k ∈ s.calls, ∀ a, k.op = .fill a → (a.escrowRow s.game ↔ a.paymentRow s.game) := by
  have hrun := (Option.some_get
    (show (exec (step plainProc) sampleSys fillRun).isSome by decide)).symm
  exact ⟨_, hrun, by decide, fun k hk a hop =>
    ((fill_whole plainProc).2 _ _ _ _ _ hrun k hk a hop).1⟩

def reusedFillRun : List Act :=
  [listAct 52 "water" 5, .write 1, .answer 1, buyAct 1 2, .write 2,
    .post (sampleSession 1) (sampleEdge 1 "") ⟨"spice", 5, 100, none, ⟨1, 0⟩⟩,
    .fill (sampleSession 2) (sampleEdge 2 "spice") ⟨1, 51, 100, "spice", ⟨2, 0⟩, ⟨3, 0⟩⟩, .write 3]

/-- The escrow row of a fill stands under the take's id and the payment row under the fill's, so
neither id is in both ledgers. Nor do the two ids alone tell: a fill that is refused because
its uuid was a purchase's leaves that uuid in the payments and nothing in escrow. -/
theorem fill_ids_split :
    (¬ ∀ acts s, exec (step plainProc) sampleSys acts = some s →
      ∀ k ∈ s.calls, ∀ a ∈ k.op.fill?, (∃ e ∈ s.game.escrow, e.correlationId.uuid = a.corr.uuid) ↔
        ∃ p ∈ s.game.payments, p.correlationId = a.corr.uuid) ∧
    ¬ ∀ acts s, exec (step plainProc) sampleSys acts = some s →
      ∀ k ∈ s.calls, ∀ a ∈ k.op.fill?, (∃ e ∈ s.game.escrow, e.correlationId = a.takeCorr) ↔
        ∃ p ∈ s.game.payments, p.correlationId = a.corr.uuid := by
  constructor
  · intro h
    have hrun := (Option.some_get
      (show (exec (step plainProc) sampleSys fillRun).isSome by decide)).symm
    exact absurd (h _ _ hrun) (by decide)
  · intro h
    have hrun := (Option.some_get
      (show (exec (step plainProc) sampleSys reusedFillRun).isSome by decide)).symm
    exact absurd (h _ _ hrun) (by decide)

end LastSietch.Karum
