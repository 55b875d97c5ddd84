import LastSietch.Karum.Payment

/-!
# No held item behind a closed listing

An item that is held in escrow should belong to a listing that somebody can still act on.
The players' calls can break this in two ways:

* the handler of a listing call takes a lost answer for a refusal and closes the listing as
  failed, while the writer has taken the item or still takes it (`lostListRun`);
* a delivery whose correlation id is in the delivery log already answers that it is done,
  and leaves the item where it is.

`Sys.keepsTrack` is the condition that neither happens, and `held_not_closed` proves that in
every run of the players that meets it no held item is behind a listing that has failed, is
sold or is cancelled.
-/

namespace LastSietch.Karum

open Runs

/-- `_TERMINAL`. -/
def ListingStatus.isTerminal : ListingStatus → Bool
  | .sold | .cancelled | .failed => true
  | _ => false

def Op.list? : Op → Option ListArgs
  | .list a => some a
  | _ => none

def Op.delivery? (op : Op) (stage : WriterStage) : Option DeliveryArgs :=
  match op.txn stage with
  | some (.deliver a) => some a
  | _ => none

def DeliveryArgs.unlogged (a : DeliveryArgs) (db : GameDb) : Prop :=
  ∀ e ∈ heldEscrow db.escrow a.listingId, (db.world.stackInEscrow e).isSome →
    db.deliveryLog.get? a.corr = none

instance (a : DeliveryArgs) (db : GameDb) : Decidable (a.unlogged db) := by
  unfold DeliveryArgs.unlogged
  infer_instance

/-- The next transaction of the call `k` takes an item only for a handler that waits for it,
and delivers only what is not in the delivery log. -/
def Sys.trackedWrite (s : Sys) (k : Call) : Prop :=
  (∀ a ∈ k.op.list?, k.writer = .sent → (∀ e ∈ s.game.escrow, e.correlationId ≠ a.corr) →
    k.portal = .waiting) ∧
  ∀ a ∈ k.op.delivery? k.writer, a.unlogged s.game

instance (s : Sys) (k : Call) : Decidable (s.trackedWrite k) := by
  unfold Sys.trackedWrite
  infer_instance

def Sys.holdsNothing (s : Sys) (listing : Nat) : Prop :=
  ∀ e ∈ s.game.escrow, e.listingId = listing → e.state ≠ .held

instance (s : Sys) (listing : Nat) : Decidable (s.holdsNothing listing) := by
  unfold Sys.holdsNothing
  infer_instance

def Sys.keepsTrack (s : Sys) : Act → Prop
  | .write c => ∀ k ∈ s.calls, k.id = c → (k.writer = .sent → k.op.start s.conf = none) →
      s.trackedWrite k
  | .lose c => ∀ k ∈ s.calls, k.id = c → k.op.list?.isSome → s.holdsNothing k.op.listingId
  | _ => True

instance (s : Sys) (act : Act) : Decidable (s.keepsTrack act) :=
  match act with
  | .write c => inferInstanceAs (Decidable (∀ k ∈ s.calls, k.id = c →
      (k.writer = .sent → k.op.start s.conf = none) → s.trackedWrite k))
  | .lose c => inferInstanceAs (Decidable (∀ k ∈ s.calls, k.id = c → k.op.list?.isSome →
      s.holdsNothing k.op.listingId))
  | .env .. | .post .. | .cancelRequest .. | .list .. | .buy .. | .cancel .. | .fill .. | .force ..
  | .answer _ | .settle _ => .isTrue trivial

/-! ## What a writer does to held rows -/

section Writer

variable {proc : SolarisProc} {conf : Config} {op : Op} {db db' : GameDb}
  {stage stage' : WriterStage}

theorem Delivery.held_mem {a : DeliveryArgs} {r : Option DeliveryResult}
    (h : Delivery a db r db') {e' : EscrowRow} (he' : e' ∈ db'.escrow) (hheld : e'.state = .held) :
    e' ∈ db.escrow := by
  cases h with
  | settled | logged => exact he'
  | missing f hf hstack =>
    obtain ⟨e, he, rfl⟩ := mem_markMissing.mp he'
    split at hheld
    · cases hheld
    · rename_i hne
      rwa [if_neg hne]
  | handed f who stack mask depth expiry orders log hf =>
    obtain ⟨e, he, rfl⟩ := mem_closeEscrow.mp he'
    split at hheld
    · exact absurd hheld (EndState.state_ne_held _)
    · rename_i hne
      rwa [if_neg hne]

theorem WriterStep.held_mem (h : WriterStep proc conf op db stage stage' db') {e' : EscrowRow}
    (he' : e' ∈ db'.escrow) (hheld : e'.state = .held) :
    e' ∈ db.escrow ∨ (stage = .sent ∧ op.start conf = none) ∧ ∃ a, op.take? = some a ∧
      e'.listingId = a.listingId ∧ ∀ e ∈ db.escrow, e.correlationId ≠ a.corr := by
  cases h with
  | refused | raised => exact Or.inl he'
  | committed _ t res _ ht heff hstart =>
    cases heff with
    | listReplay | payReplay | fillReplay | refundReplay | paid | refunded => exact Or.inl he'
    | delivered a r _ hdlv => exact Or.inl (hdlv.held_mem he' hheld)
    | listed a e escrow res world htake hnew hid hrows =>
      rcases (SerialTable.mem_of_rows hrows).mp he' with rfl | he'
      · cases op with
        | buy | fill | cancel | forceDeliver | forceReturn | refund => cases stage <;> cases ht
        | list b =>
          cases stage <;> cases ht
          refine Or.inr ⟨⟨rfl, hstart rfl⟩, _, rfl, hnew.listingId, fun e he => ?_⟩
          rw [← hnew.correlationId]
          exact SerialTable.fresh_of_rows hrows he
      · exact Or.inl he'
    | filled a e escrow p payments res world htake hnew heid herows =>
      rcases (SerialTable.mem_of_rows herows).mp he' with rfl | he'
      · cases op with
        | buy | list | cancel | forceDeliver | forceReturn | refund => cases stage <;> cases ht
        | fill b =>
          cases stage <;> cases ht
          refine Or.inr ⟨⟨rfl, hstart rfl⟩, _, rfl, hnew.listingId, fun e he => ?_⟩
          rw [← hnew.correlationId]
          exact SerialTable.fresh_of_rows herows he
      · exact Or.inl he'

theorem WriterStep.ne_sent (h : WriterStep proc conf op db stage stage' db') : stage' ≠ .sent := by
  cases h with
  | refused => simp
  | raised _ t e ht => cases op <;> cases stage <;> simp [Op.onRaise]
  | committed _ t res _ ht => cases op <;> cases stage <;> cases res <;> simp [Op.onCommit]

/-- The answer `r` closes the listing with its item handed over. -/
def Op.settles (op : Op) (r : Reply) : Bool :=
  match op with
  | .buy _ | .fill _ => r.saleExit == .delivered
  | .cancel _ => r.good
  | _ => false

theorem saleReply_delivered {new : Bool} {r : Option DeliveryResult}
    (h : (saleReply new r).saleExit = .delivered) :
    ∃ res, r = some res ∧ res.state ≠ .escrowMissing := by
  cases r with
  | none => cases h
  | some res =>
    refine ⟨res, rfl, fun hmissing => ?_⟩
    simp [saleReply, hmissing, Reply.saleExit, Reply.undelivered] at h

theorem cancelReply_good {r : Option DeliveryResult} (h : (cancelReply r).good = true) :
    ∃ res, r = some res ∧ res.state ≠ .escrowMissing := by
  cases r with
  | none => cases h
  | some res =>
    refine ⟨res, rfl, fun hmissing => ?_⟩
    simp [cancelReply, hmissing, Reply.good, Reply.failJson] at h

theorem WriterStep.settles {r : Reply} (h : WriterStep proc conf op db stage (.done r) db')
    (hs : op.settles r = true) : ∃ a res, op.txn stage = some (.deliver a) ∧
      Delivery a db (some res) db' ∧ res.state ≠ .escrowMissing ∧
      (stage = .sent → op.start conf = none) := by
  generalize hdone : WriterStage.done r = stage' at h
  cases h with
  | refused r' hstart =>
    cases hdone
    rcases Op.start_spec hstart with rfl | rfl | ⟨token, rfl⟩ <;> cases op <;> cases hs
  | raised _ t token ht =>
    cases op <;> cases stage <;> { cases hdone; cases hs }
  | committed _ t res _ ht heff hstart =>
    cases op with
    | list | forceDeliver | forceReturn | refund => cases hs
    | buy b =>
      cases stage <;> cases ht <;> cases heff <;> cases hdone
      rename_i r hdlv
      obtain ⟨res, rfl, hres⟩ := saleReply_delivered (by simpa [Op.settles] using hs)
      exact ⟨_, res, rfl, hdlv, hres, hstart⟩
    | fill b =>
      cases stage <;> cases ht <;> cases heff <;> cases hdone
      rename_i r hdlv
      obtain ⟨res, rfl, hres⟩ := saleReply_delivered (by simpa [Op.settles] using hs)
      exact ⟨_, res, rfl, hdlv, hres, hstart⟩
    | cancel b =>
      cases stage <;> cases ht
      cases heff
      cases hdone
      rename_i r hdlv
      obtain ⟨res, rfl, hres⟩ := cancelReply_good hs
      exact ⟨_, res, rfl, hdlv, hres, hstart⟩

theorem Delivery.settles {a : DeliveryArgs} {res : DeliveryResult}
    (h : Delivery a db (some res) db') (hres : res.state ≠ .escrowMissing)
    (hunlogged : a.unlogged db)
    (huniq : ∀ e ∈ db.escrow, ∀ f ∈ db.escrow, e.listingId = f.listingId → e = f)
    {e' : EscrowRow} (he' : e' ∈ db'.escrow) (hlisting : e'.listingId = a.listingId) :
    e'.state ≠ .held := by
  intro hheld
  have hold := h.held_mem he' hheld
  generalize hsome : some res = r at h
  cases h with
  | settled hnone => exact heldEscrow_none.mp hnone e' hold hlisting hheld
  | missing f hf hstack =>
    cases hsome
    exact hres rfl
  | logged f hf hlog stack hstack =>
    obtain ⟨d, hd, hcorr⟩ := hlog
    have hnone := hunlogged f hf (Option.isSome_of_eq_some hstack)
    exact SerialTable.get?_eq_none.mp hnone d hd hcorr
  | handed f who stack mask depth expiry orders log hf =>
    obtain ⟨hmem, hfl, -⟩ := heldEscrow_some hf
    obtain ⟨e, he, rfl⟩ := mem_closeEscrow.mp he'
    split at hheld
    · exact EndState.state_ne_held _ hheld
    · rename_i hne
      rw [if_neg hne] at hlisting
      exact hne (congrArg _ (huniq e he f hmem (hlisting.trans hfl.symm)))

end Writer

/-! ## The invariant -/

def Call.mayTake (k : Call) : Prop :=
  k.op.take?.isSome ∧ k.writer = .sent ∧ (k.op.list?.isSome → k.portal = .waiting)

def Call.settled (k : Call) : Prop := ∃ r, k.writer = .done r ∧ k.op.settles r = true

structure Kept (s : Sys) : Prop where
  players : ∀ k ∈ s.calls, k.op.byOperator = false
  closed : ∀ l ∈ s.listings, l.status.isTerminal = true → s.holdsNothing l.listingId
  taking : ∀ k ∈ s.calls, k.mayTake → ∀ l ∈ s.listings, l.listingId = k.op.listingId →
    l.status.isTerminal = false
  settled : ∀ k ∈ s.calls, k.settled → s.holdsNothing k.op.listingId

theorem kept_init (w : World) (log : DeliveryLog) (conf : Config) : Kept (Sys.init w log conf) :=
  ⟨fun k hk => absurd hk (SerialTable.not_mem_empty k),
    fun l hl => absurd hl (SerialTable.not_mem_empty l),
    fun k hk => absurd hk (SerialTable.not_mem_empty k),
    fun k hk => absurd hk (SerialTable.not_mem_empty k)⟩

theorem Op.claims_of_settles {op : Op} {r : Reply} (h : op.settles r = true) : op.claims = true := by
  cases op <;> first | rfl | cases h

theorem Op.not_frees_of_settles {op : Op} {r : Reply} (h : op.settles r = true) :
    op.frees r = false := by
  cases op with
  | list | forceDeliver | forceReturn | refund => rfl
  | buy a =>
    have hr : r.saleExit = .delivered := by simpa [Op.settles] using h
    simp [Op.frees, hr, SaleExit.lets]
  | fill a =>
    have hr : r.saleExit = .delivered := by simpa [Op.settles] using h
    simp [Op.frees, hr, SaleExit.lets]
  | cancel a =>
    obtain ⟨status, error, paid, delivered, item, order⟩ := r
    cases status <;> first | rfl | cases h

theorem Op.take_claims {op : Op} (h : op.take?.isSome) (hlist : ¬ op.list?.isSome) :
    op.claims = true := by
  cases op <;> first | rfl | exact absurd rfl hlist | cases h

section Calls

variable {s : Sys} {k c : Call}

theorem Inv.not_free_of_settled (h : Inv s) (hk : k ∈ s.calls) (hs : k.settled) : ¬ k.free := by
  intro hfree
  obtain ⟨r, hdone, hsettles⟩ := hs
  obtain ⟨r', hdone', hfrees⟩ := h.done_of_free hk hfree
  rw [hdone] at hdone'
  cases hdone'
  rw [Op.not_frees_of_settles hsettles] at hfrees
  cases hfrees

theorem Inv.not_mayTake_of_settled (h : Inv s) (hk : k ∈ s.calls) (hs : k.settled)
    (hc : c ∈ s.calls) (htake : c.mayTake) : c.op.listingId ≠ k.op.listingId := by
  intro hlisting
  obtain ⟨htaker, hsent, hwait⟩ := htake
  have hclaim : k.op.claims = true := by
    obtain ⟨r, -, hsettles⟩ := hs
    exact Op.claims_of_settles hsettles
  by_cases hlist : c.op.list?.isSome
  · cases hop : c.op with
    | list a =>
      refine (h.listing c hc a hop (hwait hlist)).1 k hk hclaim ?_
      rw [← hlisting, hop]
      rfl
    | buy | cancel | fill | forceDeliver | forceReturn | refund =>
      rw [hop] at hlist
      cases hlist
  · have hfree : ¬ c.free := by
      intro hfree
      obtain ⟨r, hdone, -⟩ := h.done_of_free hc hfree
      rw [hsent] at hdone
      cases hdone
    have hid := h.board.holder_eq
      (⟨c, hc, rfl, hlisting, Op.take_claims htaker hlist, hfree⟩ : s.holds c.id k.op.listingId)
      ⟨k, hk, rfl, rfl, hclaim, h.not_free_of_settled hk hs⟩
    obtain ⟨r, hdone, -⟩ := hs
    rw [← SerialTable.eq_of_id_eq hc hk hid, hsent] at hdone
    cases hdone

variable {proc : SolarisProc} {stage : WriterStage} {game : GameDb}

theorem WriterStep.held_after
    (htrack : (k.writer = .sent → k.op.start s.conf = none) → s.trackedWrite k)
    (hwrite : WriterStep proc s.conf k.op s.game k.writer stage game) {e : EscrowRow}
    (he : e ∈ game.escrow) (hheld : e.state = .held) :
    e ∈ s.game.escrow ∨ e.listingId = k.op.listingId ∧ k.mayTake := by
  rcases hwrite.held_mem he hheld with hold | ⟨⟨hsent, hstart⟩, a, ha, hlisting, hfresh⟩
  · exact Or.inl hold
  · refine Or.inr ⟨hlisting.trans (Op.listingId_of_take ha), by rw [ha]; rfl, hsent,
      fun hlist => ?_⟩
    cases hop : k.op with
    | list b =>
      rw [hop] at ha
      cases ha
      exact (htrack (fun _ => hstart)).1 _ (by rw [hop]; rfl) hsent hfresh
    | buy | cancel | fill | forceDeliver | forceReturn | refund =>
      rw [hop] at hlist
      cases hlist

theorem Kept.wrote (hp : Kept s) (h : Inv s) (hk : k ∈ s.calls)
    (htrack : (k.writer = .sent → k.op.start s.conf = none) → s.trackedWrite k)
    (hwrite : WriterStep proc s.conf k.op s.game k.writer stage game) :
    Kept { s with game, calls := s.setWriter k.id stage } := by
  refine ⟨fun c hc => ?_, fun l hl hterm e he hlisting hheld => ?_,
    fun c hc htake l hl hid => ?_, fun c hc hs e he hlisting hheld => ?_⟩
  · obtain ⟨c₀, hc₀, -, hop, -⟩ := setWriter_back hk hc
    rw [← hop]
    exact hp.players c₀ hc₀
  · rcases WriterStep.held_after htrack hwrite he hheld with hold | ⟨hel, htake⟩
    · exact hp.closed l hl hterm e hold hlisting hheld
    · rw [hp.taking k hk htake l hl (hlisting.symm.trans hel)] at hterm
      cases hterm
  · rcases (mem_setWriter hk stage c).mp hc with rfl | ⟨hc, -⟩
    · exact absurd htake.2.1 hwrite.ne_sent
    · exact hp.taking c hc htake l hl hid
  · rcases (mem_setWriter hk stage c).mp hc with rfl | ⟨hc, -⟩
    · obtain ⟨r, hdone, hsettles⟩ := hs
      rw [show stage = .done r from hdone] at hwrite
      obtain ⟨a, res, ht, hdlv, hres, hstart⟩ := hwrite.settles hsettles
      refine hdlv.settles hres ((htrack hstart).2 a (by rw [Op.delivery?, ht]; rfl))
        (fun e he f hf hef => h.escrow_unique he hf hef) he ?_ hheld
      exact hlisting.trans (Op.listingId_of_deliver ht).symm
    · rcases WriterStep.held_after htrack hwrite he hheld with hold | ⟨hel, htake⟩
      · exact hp.settled c hc hs e hold hlisting hheld
      · exact h.not_mayTake_of_settled hc hs hk htake (hel.symm.trans hlisting)

theorem Kept.sent (hp : Kept s) {op : Op} {read : ListingStatus} {listings : Listings}
    {requests : Requests} {calls : Calls} (hplayer : op.byOperator = false)
    (hres : Reserve s op read listings requests)
    (hcalls : calls.rows = ⟨s.calls.next, op, read, .waiting, .sent⟩ :: s.calls.rows) :
    Kept { s with listings, requests, calls } := by
  have hold : ∀ m ∈ listings, m.status.isTerminal = true → m ∈ s.listings := by
    intro m hm hterm
    rcases hres.mem hm with hm | hstatus | hstatus | hstatus
    · exact hm
    all_goals
      rw [hstatus] at hterm
      cases hterm
  refine ⟨fun c hc => ?_, fun m hm hterm => hp.closed m (hold m hm hterm) hterm,
    fun c hc htake m hm hid => ?_, fun c hc hs => ?_⟩
  · rcases (SerialTable.mem_of_rows hcalls).mp hc with rfl | hc
    · exact hplayer
    · exact hp.players c hc
  · rw [Bool.eq_false_iff]
    intro hterm
    have hm := hold m hm hterm
    rcases (SerialTable.mem_of_rows hcalls).mp hc with rfl | hc
    · have hfresh := hres.fresh htake.1
      have := SerialTable.id_lt_next hm
      rw [hid] at this
      exact Nat.ne_of_lt this hfresh
    · rw [hp.taking c hc htake m hm hid] at hterm
      cases hterm
  · rcases (SerialTable.mem_of_rows hcalls).mp hc with rfl | hc
    · obtain ⟨r, hdone, -⟩ := hs
      cases hdone
    · exact hp.settled c hc hs

/-- How a player's call closes its listing: a listing call that was not answered well, a
fill that lets go, or a call whose item has been handed over. -/
theorem Op.Sets.terminal {op : Op} {r : Reply} {l m : Listing} (h : op.Sets r l m)
    (hplayer : op.byOperator = false) (hterm : m.status.isTerminal = true) :
    op.list?.isSome ∧ r.good = false ∨
      (∃ a, op = .fill a) ∧ r.saleExit.lets = true ∨ op.settles r = true := by
  cases h with
  | force target hforce hm => cases op <;> first | cases hforce | cases hplayer
  | cas expect target cols hexit hstatus hm =>
    rw [hm, Listing.status_set] at hterm
    cases op with
    | forceDeliver | forceReturn | refund => cases hexit
    | list a =>
      simp only [Op.exitCas] at hexit
      split at hexit <;> cases hexit
      · cases hterm
      · rename_i hgood
        exact Or.inl ⟨rfl, Bool.eq_false_iff.mpr hgood⟩
    | buy a =>
      simp only [Op.exitCas] at hexit
      cases hr : r.saleExit <;> simp only [hr, SaleExit.buyStatus] at hexit <;> cases hexit <;>
        simp_all [Op.settles, ListingStatus.isTerminal]
    | fill a =>
      simp only [Op.exitCas] at hexit
      cases hr : r.saleExit <;> simp only [hr, SaleExit.fillStatus] at hexit <;> cases hexit <;>
        simp_all [Op.settles, SaleExit.lets, ListingStatus.isTerminal]
    | cancel a =>
      simp only [Op.exitCas] at hexit
      split at hexit
      · cases hexit
        cases hterm
      · split at hexit <;> cases hexit
        rename_i hgood
        exact Or.inr (Or.inr hgood)

theorem Inv.holdsNothing_of_not_took (h : Inv s) (hk : k ∈ s.calls) (htake : k.op.take?.isSome)
    (htook : ¬ k.took) : s.holdsNothing k.op.listingId := by
  intro e he hlisting hheld
  obtain ⟨c, hc, a, ha, hctook, -, hel, -⟩ := h.escrowed e he
  have heq := h.taker c hc k hk (by rw [ha]; rfl) htake
    (by rw [← Op.listingId_of_take ha, ← hel, hlisting])
  subst heq
  exact htook hctook

variable {r : Reply}

theorem Kept.closes (hp : Kept s) (h : Inv s) (hk : k ∈ s.calls)
    (hdone : k.writer = .done r ∨ r = .unknown)
    (hlost : r = .unknown → k.op.list?.isSome → s.holdsNothing k.op.listingId) {l m : Listing}
    (hsets : k.op.Sets r l m) (hterm : m.status.isTerminal = true) :
    s.holdsNothing k.op.listingId ∧ ∀ c ∈ s.calls, c.mayTake →
      c.op.listingId = k.op.listingId → c = k ∧ k.op.list?.isSome := by
  have hanswered : r.status ≠ .unknown → k.writer = .done r := by
    intro hknown
    rcases hdone with hdone | rfl
    · exact hdone
    · exact absurd rfl hknown
  rcases hsets.terminal (hp.players k hk) hterm with ⟨hlist, hgood⟩ | ⟨⟨a, hop⟩, hlets⟩ | hsettles
  · have htaker : k.op.take?.isSome := by
      cases hop : k.op <;> rw [hop] at hlist <;> first | rfl | cases hlist
    refine ⟨?_, fun c hc htake hlisting => ⟨h.taker c hc k hk htake.1 htaker hlisting, hlist⟩⟩
    rcases hdone with hdone | hunknown
    · refine h.holdsNothing_of_not_took hk htaker (fun htook => ?_)
      cases hop : k.op with
      | list a =>
        simp only [Call.took, hop] at htook
        obtain ⟨r', hr', hgood'⟩ := htook
        rw [hdone] at hr'
        cases hr'
        rw [hgood] at hgood'
        cases hgood'
      | buy | cancel | fill | forceDeliver | forceReturn | refund =>
        rw [hop] at hlist
        cases hlist
    · exact hlost hunknown hlist
  · have htaker : k.op.take?.isSome := by rw [hop]; rfl
    have hdone := hanswered (fun hunknown => by
      simp [Reply.saleExit, hunknown, SaleExit.lets] at hlets)
    refine ⟨h.holdsNothing_of_not_took hk htaker (fun htook => ?_),
      fun c hc htake hlisting => ?_⟩
    · rw [Call.took, hop, hdone] at htook
      rw [show r.saleExit.lets = false from htook] at hlets
      cases hlets
    · have heq := h.taker c hc k hk htake.1 htaker hlisting
      subst heq
      rw [htake.2.1] at hdone
      cases hdone
  · have hs : k.settled := by
      refine ⟨r, hanswered (fun hunknown => ?_), hsettles⟩
      cases hop : k.op <;> rw [hop] at hsettles <;>
        simp [Op.settles, Reply.saleExit, Reply.good, hunknown] at hsettles
    exact ⟨hp.settled k hk hs,
      fun c hc htake hlisting => absurd hlisting (h.not_mayTake_of_settled hk hs hc htake)⟩

/-- An update of the handler of `k`: every changed row is the work of its exit. -/
theorem Kept.updated (hp : Kept s) (h : Inv s) (hk : k ∈ s.calls) {portal : PortalStage}
    (hportal : portal ≠ .waiting) (listings : Listings) (requests : Requests)
    (hback : ∀ m ∈ listings, m ∈ s.listings ∨ ∃ l ∈ s.listings,
      l.listingId = k.op.listingId ∧ k.op.Sets r l m ∧ (k.writer = .done r ∨ r = .unknown) ∧
        (r = .unknown → k.op.list?.isSome → s.holdsNothing k.op.listingId)) :
    Kept { s with listings, requests, calls := s.setPortal k.id portal } := by
  have htaking : ∀ c ∈ s.setPortal k.id portal, c.mayTake → ∃ c₀ ∈ s.calls, c₀.mayTake ∧
      c₀.op.listingId = c.op.listingId ∧ (c₀ = k → ¬ k.op.list?.isSome) := by
    intro c hc htake
    rcases (mem_setPortal hk portal c).mp hc with rfl | ⟨hc, hne⟩
    · have hlist : ¬ k.op.list?.isSome := fun hlist => hportal (htake.2.2 hlist)
      exact ⟨k, hk, ⟨htake.1, htake.2.1, fun hl => absurd hl hlist⟩, rfl, fun _ => hlist⟩
    · exact ⟨c, hc, htake, rfl, fun heq => absurd (congrArg Call.id heq) hne⟩
  refine ⟨fun c hc => ?_, fun m hm hterm => ?_, fun c hc htake m hm hid => ?_,
    fun c hc hs => ?_⟩
  · obtain ⟨c₀, hc₀, -, hop, -⟩ := setPortal_back hk hc
    rw [← hop]
    exact hp.players c₀ hc₀
  · rcases hback m hm with hm | ⟨l, hl, hlid, hsets, hdone, hlost⟩
    · exact hp.closed m hm hterm
    · rw [hsets.sameTerms.listingId, hlid]
      exact (hp.closes h hk hdone hlost hsets hterm).1
  · obtain ⟨c₀, hc₀, htake₀, hlisting, hnotlist⟩ := htaking c hc htake
    rcases hback m hm with hm | ⟨l, hl, hlid, hsets, hdone, hlost⟩
    · exact hp.taking c₀ hc₀ htake₀ m hm (hid.trans hlisting.symm)
    · rw [Bool.eq_false_iff]
      intro hterm
      have hck : c₀.op.listingId = k.op.listingId := by
        rw [hlisting, ← hid, hsets.sameTerms.listingId, hlid]
      obtain ⟨heq, hlist⟩ := (hp.closes h hk hdone hlost hsets hterm).2 c₀ hc₀ htake₀ hck
      exact hnotlist heq hlist
  · obtain ⟨c₀, hc₀, -, hop, hwriter, -⟩ := setPortal_back hk hc
    obtain ⟨r', hdone, hsettles⟩ := hs
    rw [← hop]
    exact hp.settled c₀ hc₀ ⟨r', hwriter.trans hdone, by rwa [hop]⟩

end Calls

theorem Kept.step {proc : SolarisProc} {s s' : Sys} {act : Act} (hp : Kept s) (h : Inv s)
    (hplayer : act.byOperator = false) (htrack : s.keepsTrack act) (hstep : Step proc s act s') :
    Kept s' := by
  cases hstep with
  | env | post | cancelRequest => exact ⟨hp.players, hp.closed, hp.taking, hp.settled⟩
  | sent _ op read listings requests calls hres hcalls hact =>
    exact hp.sent (hact.trans hplayer) hres hcalls
  | wrote k stage game hk hwrite => exact hp.wrote h hk (htrack k hk rfl) hwrite
  | exited _ k r listings hk hact hwait hexit =>
    refine @Kept.updated s k r hp h hk _ (Op.exitStage_ne_waiting k.op r) listings s.requests
      (fun m hm => ?_)
    rcases hexit.mem hm with hm | ⟨l, hl, hid, hsets⟩
    · exact Or.inl hm
    · refine Or.inr ⟨l, hl, hid, hsets, hact.imp And.right And.right, ?_⟩
      rintro rfl hlist
      rcases hact with ⟨-, hdone⟩ | ⟨rfl, -⟩
      · -- the writer has answered `unknown`, which a listing call does not take with
        refine h.holdsNothing_of_not_took hk ?_ (fun htook => ?_)
        · cases hop : k.op <;> rw [hop] at hlist <;> first | rfl | cases hlist
        · cases hop : k.op <;> rw [hop] at hlist <;> try cases hlist
          simp only [Call.took, hop] at htook
          obtain ⟨r', hr', hgood⟩ := htook
          rw [hdone] at hr'
          cases hr'
          cases hgood
      · exact htrack k hk rfl hlist
  | aborted _ k r hk hact hwait hexit =>
    exact @Kept.updated s k r hp h hk _ (fun hw => by cases hw) s.listings s.requests
      (fun m hm => Or.inl hm)
  | settled k r hk hhalf =>
    exact @Kept.updated s k r hp h hk _ (fun hw => by cases hw) s.listings _
      (fun m hm => Or.inl hm)

/-- No held item is behind a closed listing, in every run of the players that keeps track of
its items. -/
theorem held_not_closed {proc : SolarisProc} {w : World} {log : DeliveryLog} {conf : Config}
    {acts : List Act} {s : Sys} (hplayers : ∀ act ∈ acts, act.byOperator = false)
    (htrack : Along (step proc) Sys.keepsTrack (Sys.init w log conf) acts)
    (hrun : exec (step proc) (Sys.init w log conf) acts = some s) :
    ∀ e ∈ s.game.escrow, e.state = .held → ∃ l ∈ s.listings, l.listingId = e.listingId ∧
      l.status ≠ .failed ∧ l.status ≠ .sold ∧ l.status ≠ .cancelled := by
  obtain ⟨h, hp⟩ : Inv s ∧ Kept s := by
    refine @exec_invariant _ _ _ _ (fun m => Inv m ∧ Kept m) (fun m act m' hm hg hs => ?_) _ _ _
      ⟨inv_init w log conf, kept_init w log conf⟩ (along_and hplayers htrack) hrun
    exact ⟨hm.1.step (step_spec hs), hm.2.step hm.1 hg.1 hg.2 (step_spec hs)⟩
  intro e he hheld
  obtain ⟨k, hk, a, ha, -, -, hlisting, -⟩ := h.escrowed e he
  obtain ⟨l, hl, hid, -⟩ := h.rows k hk
  have hle : l.listingId = e.listingId := by
    rw [hid, hlisting, Op.listingId_of_take ha]
  have hopen : l.status.isTerminal ≠ true :=
    fun hterm => hp.closed l hl hterm e he hle.symm hheld
  refine ⟨l, hl, hle, ?_, ?_, ?_⟩ <;>
  · intro hstatus
    rw [hstatus] at hopen
    exact hopen rfl

def lostAnswersRun : List Act :=
  [listAct 51 "spice" 1, .write 1, .answer 1, listAct 52 "water" 2, .write 2, .answer 2,
    buyAct 1 3, .write 3, .lose 3,
    .cancel (sampleSession 2) (sampleEdge 2 "") ⟨2, ⟨4, 0⟩⟩, .lose 4]

theorem held_not_closed_lostAnswers :
    ∃ s, exec (step plainProc) sampleSys lostAnswersRun = some s ∧
      (∃ e ∈ s.game.escrow, e.listingId = 1 ∧ e.state = .held) ∧
      ∀ e ∈ s.game.escrow, e.state = .held → ∃ l ∈ s.listings, l.listingId = e.listingId ∧
        l.status ≠ .failed ∧ l.status ≠ .sold ∧ l.status ≠ .cancelled := by
  have hrun := (Option.some_get
    (show (exec (step plainProc) sampleSys lostAnswersRun).isSome by decide)).symm
  exact ⟨_, hrun, by decide, held_not_closed (by decide) (by decide) hrun⟩

def lostListRun : List Act := [listAct 51 "spice" 1, .write 1, .lose 1]

/-- Without the condition the item is held behind a failed listing. -/
theorem lostList_strands :
    ¬ ∀ acts s, (∀ act ∈ acts, act.byOperator = false) →
      exec (step plainProc) sampleSys acts = some s →
      ∀ e ∈ s.game.escrow, e.state = .held → ∃ l ∈ s.listings, l.listingId = e.listingId ∧
        l.status ≠ .failed ∧ l.status ≠ .sold ∧ l.status ≠ .cancelled := by
  intro h
  have hrun := (Option.some_get
    (show (exec (step plainProc) sampleSys lostListRun).isSome by decide)).symm
  exact absurd (h _ _ (by decide) hrun) (by decide)

end LastSietch.Karum
