import LastSietch.Karum.Payment

/-!
# Settlement listings and operator actions

A fill settles through a listing of its own, which is never up for sale, so that only the
fill and the operators move it (`Operated.alone`, `Operated.unlisted`). An operator's
hand-over that the writer has confirmed closes its listing as sold or cancelled, and stays
that way (`Operated.moved`); the writer confirms one only where something has been taken
into escrow (`Operated.forced`).
-/

namespace LastSietch.Karum

open Runs

def ListingStatus.isClosed : ListingStatus → Bool
  | .sold | .cancelled => true
  | _ => false

def Op.moves : Op → Bool
  | .forceDeliver _ | .forceReturn _ => true
  | _ => false

def Op.fill? : Op → Option FillArgs
  | .fill a => some a
  | _ => none

def Call.confirmed (k : Call) : Prop := ∃ r, k.portal.reply? = some r ∧ r.good = true

structure Operated (s : Sys) : Prop where
  forced : ∀ k ∈ s.calls, k.op.moves = true → ∀ r, k.writer = .done r → r.good = true →
    ∃ e ∈ s.game.escrow, e.listingId = k.op.listingId
  read : ∀ k ∈ s.calls, k.rowStatus.isClosed = true → ∀ l ∈ s.listings,
    l.listingId = k.op.listingId → l.status.isClosed = true
  moved : ∀ k ∈ s.calls, k.op.moves = true → k.confirmed → ∀ l ∈ s.listings,
    l.listingId = k.op.listingId → l.status.isClosed = true
  unlisted : ∀ k ∈ s.calls, k.op.fill?.isSome → ∀ l ∈ s.listings,
    l.listingId = k.op.listingId → l.status ≠ .pending ∧ l.status ≠ .active
  half : ∀ k ∈ s.calls, k.op.byOperator = true → ∀ r, k.portal = .half r → r.good = true
  alone : ∀ k ∈ s.calls, k.op.fill?.isSome → ∀ c ∈ s.calls, c.op.claims = true →
    c.op.listingId = k.op.listingId → c = k

theorem operated_init (w : World) (log : DeliveryLog) (conf : Config) :
    Operated (Sys.init w log conf) :=
  ⟨fun k hk => absurd hk (SerialTable.not_mem_empty k),
    fun k hk => absurd hk (SerialTable.not_mem_empty k),
    fun k hk => absurd hk (SerialTable.not_mem_empty k),
    fun k hk => absurd hk (SerialTable.not_mem_empty k),
    fun k hk => absurd hk (SerialTable.not_mem_empty k),
    fun k hk => absurd hk (SerialTable.not_mem_empty k)⟩

theorem Op.claims_of_fill {op : Op} (h : op.fill?.isSome) : op.claims = true := by
  cases op <;> first | rfl | cases h

theorem Op.take_of_fill {op : Op} (h : op.fill?.isSome) : op.take?.isSome := by
  cases op <;> first | rfl | cases h

/-! ## A new call -/

section Sent

variable {s : Sys} {op : Op} {read : ListingStatus} {listings : Listings} {requests : Requests}

theorem Reserve.mem_old (h : Reserve s op read listings requests) {m : Listing}
    (hm : m ∈ listings) : m ∈ s.listings ∨ m.listingId = s.listings.next ∨
      ∃ l ∈ s.listings, l.listingId = m.listingId ∧ l.status = .active := by
  cases h with
  | list u f ctrl owned src listings hrows =>
    rcases (SerialTable.mem_of_rows hrows).mp hm with rfl | hm
    · exact Or.inr (Or.inl rfl)
    · exact Or.inl hm
  | fill u f ctrl owned src row listings hrow hid hactive hrows =>
    rcases (SerialTable.mem_of_rows hrows).mp hm with rfl | hm
    · exact Or.inr (Or.inl rfl)
    · exact Or.inl hm
  | buy u f ctrl row listings hrow hid hactive hmem =>
    rcases (hmem m).mp hm with rfl | ⟨hm, -⟩
    · exact Or.inr (Or.inr ⟨row, hrow, rfl, hactive⟩)
    · exact Or.inl hm
  | cancel f row listings hrow hid hactive hmem =>
    rcases (hmem m).mp hm with rfl | ⟨hm, -⟩
    · exact Or.inr (Or.inr ⟨row, hrow, rfl, hactive⟩)
    · exact Or.inl hm
  | forceDeliver | forceReturn | refund => exact Or.inl hm

theorem Inv.untouched (h : Inv s) (hres : Reserve s op read listings requests) {k : Call}
    (hk : k ∈ s.calls) (hactive : ∀ l ∈ s.listings, l.listingId = k.op.listingId →
      l.status ≠ .active) {m : Listing} (hm : m ∈ listings) (hid : m.listingId = k.op.listingId) :
    m ∈ s.listings := by
  rcases hres.mem_old hm with hm | hfresh | ⟨l, hl, hlid, hstatus⟩
  · exact hm
  · have := h.listing_lt hk
    omega
  · exact absurd hstatus (hactive l hl (hlid.trans hid))

theorem Reserve.read_closed (h : Reserve s op read listings requests)
    (hread : read.isClosed = true) : listings = s.listings ∧
      ∃ l ∈ s.listings, l.listingId = op.listingId ∧ l.status = read := by
  cases h with
  | list | fill | buy | cancel => cases hread
  | forceDeliver corr row b hrow => exact ⟨rfl, row, hrow, rfl, rfl⟩
  | forceReturn corr row hrow => exact ⟨rfl, row, hrow, rfl, rfl⟩
  | refund corr row b hrow => exact ⟨rfl, row, hrow, rfl, rfl⟩

theorem Operated.sent (ho : Operated s) (h : Inv s) {calls : Calls}
    (hres : Reserve s op read listings requests)
    (hcalls : calls.rows = ⟨s.calls.next, op, read, .waiting, .sent⟩ :: s.calls.rows) :
    Operated { s with listings, requests, calls } := by
  have hclosed : ∀ {k : Call}, k ∈ s.calls → (∀ l ∈ s.listings, l.listingId = k.op.listingId →
      l.status.isClosed = true) → ∀ m ∈ listings, m.listingId = k.op.listingId →
      m.status.isClosed = true := by
    intro k hk hold m hm hid
    refine hold m (h.untouched hres hk (fun l hl hlid hactive => ?_) hm hid) hid
    have := hold l hl hlid
    rw [hactive] at this
    cases this
  refine ⟨fun k hk hmoves r hdone hgood => ?_, fun k hk hread m hm hid => ?_,
    fun k hk hmoves hconf m hm hid => ?_, fun k hk hfill m hm hid => ?_,
    fun k hk hop r hhalf => ?_, fun k hk hfill c hc hclaim hlisting => ?_⟩
  · rcases (SerialTable.mem_of_rows hcalls).mp hk with rfl | hk
    · cases hdone
    · exact ho.forced k hk hmoves r hdone hgood
  · rcases (SerialTable.mem_of_rows hcalls).mp hk with rfl | hk
    · obtain ⟨rfl, l, hl, hlid, rfl⟩ := hres.read_closed hread
      rw [SerialTable.eq_of_id_eq hm hl (hid.trans hlid.symm)]
      exact hread
    · exact hclosed hk (ho.read k hk hread) m hm hid
  · rcases (SerialTable.mem_of_rows hcalls).mp hk with rfl | hk
    · obtain ⟨r, hr, -⟩ := hconf
      cases hr
    · exact hclosed hk (ho.moved k hk hmoves hconf) m hm hid
  · rcases (SerialTable.mem_of_rows hcalls).mp hk with rfl | hk
    · -- the new row of the fill
      have hfresh := hres.fresh (Op.take_of_fill hfill)
      constructor <;> intro hstatus <;>
      · rcases hres.open_mem hm (by simp [hstatus]) with ⟨hm, -⟩ | ⟨-, -, hno⟩
        · have := SerialTable.id_lt_next hm
          have : m.listingId = s.listings.next := hid.trans hfresh
          omega
        · rw [Op.claims_of_fill hfill] at hno
          cases hno
    · have hold := ho.unlisted k hk hfill
      exact hold m (h.untouched hres hk (fun l hl hlid => (hold l hl hlid).2) hm hid) hid
  · rcases (SerialTable.mem_of_rows hcalls).mp hk with rfl | hk
    · cases hhalf
    · exact ho.half k hk hop r hhalf
  · rcases (SerialTable.mem_of_rows hcalls).mp hk with rfl | hk <;>
      rcases (SerialTable.mem_of_rows hcalls).mp hc with rfl | hc
    · rfl
    · have hfresh := hres.fresh (Op.take_of_fill hfill)
      exact absurd (hlisting.trans hfresh) (Nat.ne_of_lt (h.listing_lt hc))
    · have hlt := h.listing_lt hk
      rcases hres.claim hclaim with hfresh | ⟨l, hl, hlid, hactive⟩
      · exact absurd (hlisting.symm.trans hfresh) (Nat.ne_of_lt hlt)
      · exact absurd hactive (ho.unlisted k hk hfill l hl (hlid.trans hlisting)).2
    · exact ho.alone k hk hfill c hc hclaim hlisting

end Sent

/-! ## A step of a writer -/

section Wrote

variable {proc : SolarisProc} {conf : Config} {op : Op} {db db' : GameDb}
  {stage stage' : WriterStage}

theorem Delivery.escrow_forth {a : DeliveryArgs} {r : Option DeliveryResult}
    (h : Delivery a db r db') {e : EscrowRow} (he : e ∈ db.escrow) :
    ∃ e' ∈ db'.escrow, e'.listingId = e.listingId := by
  cases h with
  | settled | logged => exact ⟨e, he, rfl⟩
  | missing f hf hstack =>
    refine ⟨_, mem_markMissing.mpr ⟨e, he, rfl⟩, ?_⟩
    split <;> rfl
  | handed f who stack mask depth expiry orders log hf =>
    refine ⟨_, mem_closeEscrow.mpr ⟨e, he, rfl⟩, ?_⟩
    split <;> rfl

theorem WriterStep.escrow_forth (h : WriterStep proc conf op db stage stage' db') {e : EscrowRow}
    (he : e ∈ db.escrow) : ∃ e' ∈ db'.escrow, e'.listingId = e.listingId := by
  cases h with
  | refused | raised => exact ⟨e, he, rfl⟩
  | committed _ t res _ ht heff =>
    cases heff with
    | listReplay | payReplay | fillReplay | refundReplay | paid | refunded => exact ⟨e, he, rfl⟩
    | listed a f escrow res world htake hheld hid hrows =>
      exact ⟨e, (SerialTable.mem_of_rows hrows).mpr (Or.inr he), rfl⟩
    | filled a f escrow p payments res world htake hheld heid herows =>
      exact ⟨e, (SerialTable.mem_of_rows herows).mpr (Or.inr he), rfl⟩
    | delivered a r _ hdlv => exact hdlv.escrow_forth he

theorem forceReply_good {r : Option DeliveryResult} (h : (forceReply r).good = true) :
    ∃ res, r = some res := by
  cases r with
  | none => cases h
  | some res => exact ⟨res, rfl⟩

theorem Delivery.row {a : DeliveryArgs} {res : DeliveryResult} (h : Delivery a db (some res) db') :
    ∃ e ∈ db.escrow, e.listingId = a.listingId := by
  generalize hsome : some res = r at h
  cases h with
  | settled hnone hlog r hr =>
    obtain ⟨e, he, -⟩ := Option.map_eq_some_iff.mp (hr.symm.trans hsome.symm)
    exact ⟨e, lastEscrow_some he⟩
  | missing e he => exact ⟨e, (heldEscrow_some he).1, (heldEscrow_some he).2.1⟩
  | logged e he => exact ⟨e, (heldEscrow_some he).1, (heldEscrow_some he).2.1⟩
  | handed e who stack mask depth expiry orders log he =>
    exact ⟨e, (heldEscrow_some he).1, (heldEscrow_some he).2.1⟩

theorem WriterStep.forced {r : Reply} (h : WriterStep proc conf op db stage (.done r) db')
    (hmoves : op.moves = true) (hgood : r.good = true) :
    ∃ e ∈ db.escrow, e.listingId = op.listingId := by
  generalize hdone : WriterStage.done r = stage' at h
  cases h with
  | refused r' hstart =>
    cases hdone
    rw [Op.start_not_good hstart] at hgood
    cases hgood
  | raised _ t token ht =>
    cases op <;> cases hmoves <;> cases hdone <;> cases hgood
  | committed _ t res _ ht heff =>
    cases op with
    | list | buy | fill | cancel | refund => cases hmoves
    | forceDeliver b =>
      cases stage <;> cases ht
      cases heff with
      | delivered _ r _ hdlv =>
        cases hdone
        obtain ⟨res, rfl⟩ := forceReply_good hgood
        exact hdlv.row
    | forceReturn b =>
      cases stage <;> cases ht
      cases heff with
      | delivered _ r _ hdlv =>
        cases hdone
        obtain ⟨res, rfl⟩ := forceReply_good hgood
        exact hdlv.row

variable {s : Sys} {k : Call} {game : GameDb}

theorem Operated.wrote (ho : Operated s) (hk : k ∈ s.calls)
    (hwrite : WriterStep proc s.conf k.op s.game k.writer stage game) :
    Operated { s with game, calls := s.setWriter k.id stage } := by
  refine ⟨fun c hc hmoves r hdone hgood => ?_, fun c hc hread l hl hid => ?_,
    fun c hc hmoves hconf l hl hid => ?_, fun c hc hfill l hl hid => ?_,
    fun c hc hop r hhalf => ?_, fun c hc hfill d hd hclaim hlisting => ?_⟩
  · have hrow : ∃ e ∈ s.game.escrow, e.listingId = c.op.listingId := by
      rcases (mem_setWriter hk stage c).mp hc with rfl | ⟨hc, -⟩
      · rw [show stage = .done r from hdone] at hwrite
        exact hwrite.forced hmoves hgood
      · exact ho.forced c hc hmoves r hdone hgood
    obtain ⟨e, he, hlisting⟩ := hrow
    obtain ⟨e', he', hsame⟩ := hwrite.escrow_forth he
    exact ⟨e', he', hsame.trans hlisting⟩
  · obtain ⟨c₀, hc₀, -, hop, -, hstatus, -⟩ := setWriter_back hk hc
    exact ho.read c₀ hc₀ (by rwa [hstatus]) l hl (by rwa [hop])
  · obtain ⟨c₀, hc₀, -, hop, hportal, -⟩ := setWriter_back hk hc
    rw [← hop] at hmoves hid
    refine ho.moved c₀ hc₀ hmoves ?_ l hl hid
    unfold Call.confirmed at hconf ⊢
    rwa [hportal]
  · obtain ⟨c₀, hc₀, -, hop, -⟩ := setWriter_back hk hc
    exact ho.unlisted c₀ hc₀ (by rwa [hop]) l hl (by rwa [hop])
  · obtain ⟨c₀, hc₀, -, hop₀, hportal, -⟩ := setWriter_back hk hc
    exact ho.half c₀ hc₀ (by rwa [hop₀]) r (hportal.trans hhalf)
  · obtain ⟨c₀, hc₀, hcid, hop, -⟩ := setWriter_back hk hc
    obtain ⟨d₀, hd₀, hdid, hdop, -⟩ := setWriter_back hk hd
    have hdc := ho.alone c₀ hc₀ (by rwa [hop]) d₀ hd₀ (by rwa [hdop]) (by rwa [hop, hdop])
    exact SerialTable.eq_of_id_eq hd hc (by rw [← hdid, ← hcid, hdc])

end Wrote

/-! ## An update of a handler -/

section Updated

variable {s : Sys} {k : Call} {r : Reply} {stage : PortalStage}

theorem Op.forced_moves {op : Op} {target : ListingStatus} (h : op.forced r = some target) :
    op.moves = true ∧ r.good = true ∧ target.isClosed = true := by
  cases op <;> simp only [Op.forced] at h <;> try cases h
  all_goals
    split at h <;> cases h
    rename_i hgood
    exact ⟨rfl, hgood, rfl⟩

theorem Op.expect_open {op : Op} {expect target : ListingStatus} {cols : Columns}
    (h : op.exitCas r = some (expect, target, cols)) : expect.isClosed = false := by
  cases op with
  | forceDeliver | forceReturn | refund => cases h
  | list a =>
    simp only [Op.exitCas] at h
    split at h <;> cases h <;> rfl
  | buy a | fill a =>
    simp only [Op.exitCas, Option.some.injEq, Prod.mk.injEq] at h
    rw [← h.1]
    rfl
  | cancel a =>
    simp only [Op.exitCas] at h
    split at h
    · cases h
      rfl
    · split at h <;> cases h
      rfl

theorem Op.Sets.closed {op : Op} {l m : Listing} (h : op.Sets r l m)
    (hclosed : l.status.isClosed = true) : m.status.isClosed = true := by
  cases h with
  | force target hforce hm =>
    rw [hm, Listing.status_set]
    exact (Op.forced_moves hforce).2.2
  | cas expect target cols hexit hstatus hm =>
    rw [hstatus, Op.expect_open hexit] at hclosed
    cases hclosed

theorem Exit.closes {op : Op} {read : ListingStatus} {t t' : Listings} (h : Exit op read r t t')
    (hmoves : op.moves = true) (hgood : r.good = true)
    (hread : read.isClosed = true → ∀ l ∈ t, l.listingId = op.listingId → l.status.isClosed = true)
    {m : Listing} (hm : m ∈ t') (hid : m.listingId = op.listingId) : m.status.isClosed = true := by
  cases h with
  | cas expect target cols won _ hexit hcas =>
    cases op with
    | list | buy | fill | cancel | refund => cases hmoves
    | forceDeliver | forceReturn => cases hexit
  | stay hexit hforce =>
    cases op with
    | list | buy | fill | cancel | refund => cases hmoves
    | forceDeliver | forceReturn => simp [Op.forced, hgood] at hforce
  | force target hexit hforce =>
    have hclosed := (Op.forced_moves hforce).2.2
    rw [mem_forceListing] at hm
    split at hm
    · rename_i heq
      exact hread (heq ▸ hclosed) m hm hid
    · obtain ⟨l, hl, rfl⟩ := hm
      split
      · rw [Listing.status_set]
        exact hclosed
      · rename_i hne
        rw [if_neg hne] at hid
        exact absurd hid hne

theorem Op.exit_of_moves {op : Op} (hmoves : op.moves = true) (read : ListingStatus) (r : Reply)
    (t : Listings) : op.exit read r t ≠ none := by
  cases op with
  | list | buy | fill | cancel | refund => cases hmoves
  | forceDeliver | forceReturn =>
    unfold Op.exit
    simp only [Op.exitCas]
    split <;> simp

theorem Op.good_of_half {op : Op} (hop : op.byOperator = true) {r' : Reply}
    (h : op.exitStage r = .half r') : r'.good = true := by
  cases op with
  | list | buy | fill | cancel => cases hop
  | forceDeliver | forceReturn | refund =>
    simp only [Op.exitStage] at h
    split at h <;> cases h
    assumption

theorem Operated.updated (ho : Operated s) (h : Inv s) (hk : k ∈ s.calls) (listings : Listings)
    (requests : Requests)
    (hback : ∀ m ∈ listings, m ∈ s.listings ∨ ∃ l ∈ s.listings,
      l.listingId = k.op.listingId ∧ k.op.Sets r l m ∧ stage = k.op.exitStage r)
    (hmoved : k.op.moves = true → ∀ r', stage.reply? = some r' → r'.good = true →
      ∀ m ∈ listings, m.listingId = k.op.listingId → m.status.isClosed = true)
    (hhalf : k.op.byOperator = true → ∀ r', stage = .half r' → r'.good = true) :
    Operated { s with listings, requests, calls := s.setPortal k.id stage } := by
  have hclosed : ∀ {j : Nat}, (∀ l ∈ s.listings, l.listingId = j → l.status.isClosed = true) →
      ∀ m ∈ listings, m.listingId = j → m.status.isClosed = true := by
    intro j hold m hm hid
    rcases hback m hm with hm | ⟨l, hl, hlid, hsets, -⟩
    · exact hold m hm hid
    · exact hsets.closed (hold l hl (by rw [← hid, hsets.sameTerms.listingId]))
  refine ⟨fun c hc hmoves r' hdone hgood => ?_, fun c hc hread m hm hid => ?_,
    fun c hc hmoves hconf m hm hid => ?_, fun c hc hfill m hm hid => ?_,
    fun c hc hop r' hr' => ?_, fun c hc hfill d hd hclaim hlisting => ?_⟩
  · obtain ⟨c₀, hc₀, -, hop, hwriter, -⟩ := setPortal_back hk hc
    rw [← hop] at hmoves ⊢
    exact ho.forced c₀ hc₀ hmoves r' (hwriter.trans hdone) hgood
  · obtain ⟨c₀, hc₀, -, hop, -, hstatus, -⟩ := setPortal_back hk hc
    rw [← hstatus] at hread
    rw [← hop] at hid
    exact hclosed (ho.read c₀ hc₀ hread) m hm hid
  · rcases (mem_setPortal hk stage c).mp hc with rfl | ⟨hc, -⟩
    · obtain ⟨r', hr', hgood⟩ := hconf
      exact hmoved hmoves r' hr' hgood m hm hid
    · exact hclosed (ho.moved c hc hmoves hconf) m hm hid
  · obtain ⟨c₀, hc₀, -, hop, -⟩ := setPortal_back hk hc
    rw [← hop] at hfill hid
    rcases hback m hm with hm | ⟨l, hl, hlid, hsets, hexit⟩
    · exact ho.unlisted c₀ hc₀ hfill m hm hid
    · have hlisting : k.op.listingId = c₀.op.listingId := by
        rw [← hid, hsets.sameTerms.listingId, hlid]
      have hnever : ¬ (m.status = .pending ∨ m.status = .active) := by
        intro hopen
        rcases hsets.opens hopen with ⟨⟨a, hop⟩, -⟩ | ⟨hclaim, -, hfinish⟩
        · -- the row is not the work of a listing call
          have heq := h.taker k hk c₀ hc₀ (by rw [hop]; rfl) (Op.take_of_fill hfill) hlisting
          rw [← heq, hop] at hfill
          cases hfill
        · -- nor of a purchase, and a fill never reopens it
          have heq := ho.alone c₀ hc₀ hfill k hk hclaim hlisting
          rw [← heq] at hfill
          cases hop : k.op with
          | fill a =>
            rw [hop] at hfinish
            cases hfinish
          | list | buy | cancel | forceDeliver | forceReturn | refund =>
            rw [hop] at hfill
            cases hfill
      exact ⟨fun hp => hnever (Or.inl hp), fun ha => hnever (Or.inr ha)⟩
  · rcases (mem_setPortal hk stage c).mp hc with rfl | ⟨hc, -⟩
    · exact hhalf hop r' hr'
    · exact ho.half c hc hop r' hr'
  · obtain ⟨c₀, hc₀, hcid, hop, -⟩ := setPortal_back hk hc
    obtain ⟨d₀, hd₀, hdid, hdop, -⟩ := setPortal_back hk hd
    have hdc := ho.alone c₀ hc₀ (by rwa [hop]) d₀ hd₀ (by rwa [hdop]) (by rwa [hop, hdop])
    exact SerialTable.eq_of_id_eq hd hc (by rw [← hdid, ← hcid, hdc])

end Updated

theorem Operated.step {proc : SolarisProc} {s s' : Sys} {act : Act} (ho : Operated s) (h : Inv s)
    (hstep : Step proc s act s') : Operated s' := by
  cases hstep with
  | env | post | cancelRequest => exact ⟨ho.forced, ho.read, ho.moved, ho.unlisted, ho.half, ho.alone⟩
  | sent _ op read listings requests calls hres hcalls => exact ho.sent h hres hcalls
  | wrote k stage game hk hwrite => exact ho.wrote hk hwrite
  | exited _ k r listings hk hact hwait hexit =>
    refine @Operated.updated s k r _ ho h hk listings s.requests (fun m hm => ?_) ?_
      (fun hop r' hr' => Op.good_of_half hop hr')
    · rcases hexit.mem hm with hm | ⟨l, hl, hid, hsets⟩
      · exact Or.inl hm
      · exact Or.inr ⟨l, hl, hid, hsets, rfl⟩
    · intro hmoves r' hr' hgood m hm hid
      rw [Op.exitStage_reply] at hr'
      cases hr'
      exact hexit.closes hmoves hgood (ho.read k hk) hm hid
  | aborted _ k r hk hact hwait hexit =>
    exact @Operated.updated s k r _ ho h hk s.listings s.requests (fun m hm => Or.inl hm)
      (fun hmoves => absurd hexit (Op.exit_of_moves hmoves _ _ _)) (fun _ _ hr' => by cases hr')
  | settled k r hk hhalf =>
    refine @Operated.updated s k r _ ho h hk s.listings _ (fun m hm => Or.inl hm) ?_
      (fun _ _ hr' => by cases hr')
    intro hmoves r' hr' hgood
    exact ho.moved k hk hmoves ⟨r', by rw [hhalf]; exact hr', hgood⟩

/-! ## What follows for a fill -/

section Fill

variable {s : Sys} {k : Call}

def Sys.movedBy (s : Sys) (listing : Nat) : Prop :=
  ∃ f ∈ s.calls, f.op.moves = true ∧ f.op.listingId = listing ∧ f.confirmed

/-- Where the writer has confirmed a hand-over of the settlement listing, the fill has been
charged. -/
theorem Operated.charged_of_forced (ho : Operated s) (h : Inv s) (hk : k ∈ s.calls)
    (hfill : k.op.fill?.isSome) {f : Call} (hf : f ∈ s.calls) (hmoves : f.op.moves = true)
    (hlisting : f.op.listingId = k.op.listingId) {r : Reply} (hdone : f.writer = .done r)
    (hgood : r.good = true) : k.writer.charged := by
  obtain ⟨e, he, hel⟩ := ho.forced f hf hmoves r hdone hgood
  obtain ⟨c, hc, a, ha, htook, -, hal, -⟩ := h.escrowed e he
  have heq := h.taker c hc k hk (by rw [ha]; rfl) (Op.take_of_fill hfill)
    (by rw [← Op.listingId_of_take ha, ← hal, hel, hlisting])
  subst heq
  cases hop : c.op with
  | fill b =>
    rw [Call.took, hop] at htook
    exact htook
  | list | buy | cancel | forceDeliver | forceReturn | refund =>
    rw [hop] at hfill
    cases hfill

theorem Reply.known_of_good {r : Reply} (h : r.good = true) : r.status ≠ .unknown := by
  intro hunknown
  simp [Reply.good, hunknown] at h

theorem Operated.charged_of_movedBy (ho : Operated s) (h : Inv s) (hk : k ∈ s.calls)
    (hfill : k.op.fill?.isSome) (hmoved : s.movedBy k.op.listingId) : k.writer.charged := by
  obtain ⟨f, hf, hmoves, hlisting, r, hr, hgood⟩ := hmoved
  exact ho.charged_of_forced h hk hfill hf hmoves hlisting
    (h.answered f hf r hr (Reply.known_of_good hgood)) hgood

theorem Inv.not_free_of_fill_charged (h : Inv s) (hk : k ∈ s.calls) (hfill : k.op.fill?.isSome)
    (hcharged : k.writer.charged) : ¬ k.free := by
  cases hop : k.op with
  | fill b => exact h.not_free_of_charged hk (by rw [hop]; rfl) hcharged
  | list | buy | cancel | forceDeliver | forceReturn | refund =>
    rw [hop] at hfill
    cases hfill

theorem Operated.sets_other (ho : Operated s) (h : Inv s) (hk : k ∈ s.calls)
    (hfill : k.op.fill?.isSome) {c : Call} (hc : c ∈ s.calls) (hne : c.id ≠ k.id)
    (hlisting : c.op.listingId = k.op.listingId) {r : Reply} {l m : Listing}
    (hsets : c.op.Sets r l m) : c.op.moves = true ∧ r.good = true ∧ m.status.isClosed = true := by
  cases hsets with
  | force target hforce hm =>
    obtain ⟨hmoves, hgood, hclosed⟩ := Op.forced_moves hforce
    exact ⟨hmoves, hgood, by rwa [hm, Listing.status_set]⟩
  | cas expect target cols hexit hstatus hm =>
    exfalso
    cases hop : c.op with
    | list a =>
      have heq := h.taker c hc k hk (by rw [hop]; rfl) (Op.take_of_fill hfill) hlisting
      exact hne (congrArg Call.id heq)
    | buy | fill | cancel =>
      have heq := ho.alone k hk hfill c hc (by rw [hop]; rfl) hlisting
      exact hne (congrArg Call.id heq)
    | forceDeliver | forceReturn | refund =>
      rw [hop] at hexit
      cases hexit

end Fill

end LastSietch.Karum
