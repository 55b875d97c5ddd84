import LastSietch.Lib.Reservation
import LastSietch.Karum.System

/-!
# Invariants of every run

`Inv` holds in every state that the system reaches, whatever the players, the operators,
the game server and the network do (`inv_of_run`):

* the calls that have won a listing's row and have not let go of it hold the listing
  exclusively, and a listing that is up for sale is held by none (`Inv.board`);
* a listing has one call that takes its item, every escrow row is the work of the taking
  call of its listing, and every charge is the work of a sale call on its listing, which
  can no longer let go of it (`Inv.taker`, `Inv.escrowed`, `Inv.charged`).

Each field is kept by every kind of step; `Inv.step` puts them together.
-/

namespace LastSietch.Karum

open Runs

def Op.sale? : Op → Option BuyArgs
  | .buy a => some a
  | .fill a => some ⟨a.corr, a.listingId, a.buyerAccountId, a.sellerAccountId, a.amount⟩
  | _ => none

def Op.take? : Op → Option ListArgs
  | .list a => some a
  | .fill a => some ⟨a.takeCorr, a.listingId, a.sellerAccountId, a.itemId, a.templateId, a.src⟩
  | _ => none

def Op.claims : Op → Bool
  | .buy _ | .fill _ | .cancel _ => true
  | _ => false

/-- The answer `r` lets go of the row: it makes the listing active again. -/
def Op.frees (op : Op) (r : Reply) : Bool :=
  match op with
  | .buy _ | .fill _ => r.saleExit.lets
  | .cancel _ => r.status == .deferred
  | _ => false

def Call.free (k : Call) : Prop := ∃ r, k.portal = .finished r ∧ k.op.frees r = true

def PortalStage.reply? : PortalStage → Option Reply
  | .waiting => none
  | .half r | .finished r => some r

def WriterStage.charged : WriterStage → Prop
  | .sent => False
  | .paid _ => True
  | .done r => r.saleExit.lets = false

def Call.took (k : Call) : Prop :=
  match k.op with
  | .list _ => ∃ r, k.writer = .done r ∧ r.good = true
  | _ => k.writer.charged

theorem Op.listingId_of_sale {op : Op} {a : BuyArgs} (h : op.sale? = some a) :
    a.listingId = op.listingId := by
  cases op <;> cases h <;> rfl

theorem Op.listingId_of_take {op : Op} {a : ListArgs} (h : op.take? = some a) :
    a.listingId = op.listingId := by
  cases op <;> cases h <;> rfl

theorem Op.claims_of_sale {op : Op} {a : BuyArgs} (h : op.sale? = some a) : op.claims = true := by
  cases op <;> first | rfl | cases h

theorem Op.frees_of_sale {op : Op} {a : BuyArgs} (h : op.sale? = some a) (r : Reply) :
    op.frees r = r.saleExit.lets := by
  cases op <;> first | rfl | cases h

theorem mem_setPortal {s : Sys} {k : Call} (hk : k ∈ s.calls) (stage : PortalStage) (c : Call) :
    c ∈ s.setPortal k.id stage ↔ c = { k with portal := stage } ∨ c ∈ s.calls ∧ c.id ≠ k.id :=
  SerialTable.mem_update_id hk

theorem mem_setWriter {s : Sys} {k : Call} (hk : k ∈ s.calls) (stage : WriterStage) (c : Call) :
    c ∈ s.setWriter k.id stage ↔ c = { k with writer := stage } ∨ c ∈ s.calls ∧ c.id ≠ k.id :=
  SerialTable.mem_update_id hk

/-! ## The listings after a step -/

/-- A row after an update: the columns that identify a listing and its terms are the same. -/
structure SameTerms (l m : Listing) : Prop where
  listingId : m.listingId = l.listingId
  sellerAccountId : m.sellerAccountId = l.sellerAccountId
  price : m.price = l.price

theorem SameTerms.refl (l : Listing) : SameTerms l l := ⟨rfl, rfl, rfl⟩

theorem SameTerms.set (l : Listing) (target : ListingStatus) (cols : Columns) :
    SameTerms l (l.set target cols) := by
  cases cols <;> exact ⟨rfl, rfl, rfl⟩

@[simp] theorem Listing.status_set (l : Listing) (target : ListingStatus) (cols : Columns) :
    (l.set target cols).status = target := by
  cases cols <;> rfl

/-- How an exit changes the row `l` of its call into `m`. -/
inductive Op.Sets (op : Op) (r : Reply) (l m : Listing) : Prop
  | cas (expect target : ListingStatus) (cols : Columns)
      (hexit : op.exitCas r = some (expect, target, cols)) (hstatus : l.status = expect)
      (hm : m = l.set target cols)
  | force (target : ListingStatus) (hforce : op.forced r = some target)
      (hm : m = l.set target .keep)

variable {l m : Listing}

theorem Op.Sets.sameTerms {op : Op} {r : Reply} (h : op.Sets r l m) :
    SameTerms l m := by
  cases h with
  | cas expect target cols hexit hstatus hm => exact hm ▸ SameTerms.set _ _ _
  | force target hforce hm => exact hm ▸ SameTerms.set _ _ _

variable {t t' : Listings}

theorem mem_forceListing {id : Nat} {read target : ListingStatus} :
    m ∈ forceListing t id read target ↔
      if target = read then m ∈ t
      else ∃ l ∈ t, m = if l.listingId = id then l.set target .keep else l := by
  unfold forceListing
  split
  · exact Iff.rfl
  · refine Iff.trans SerialTable.mem_update ?_
    simp only [decide_eq_true_eq]

theorem Exit.mem {op : Op} {read : ListingStatus} {r : Reply}
    (h : Exit op read r t t') (hm : m ∈ t') :
    m ∈ t ∨ ∃ l ∈ t, l.listingId = op.listingId ∧ op.Sets r l m := by
  cases h with
  | cas expect target cols won _ hexit hcas =>
    cases hcas with
    | lost hnone => exact Or.inl hm
    | won _ l hl hid hstatus hmem hnext =>
      rcases (hmem m).mp hm with rfl | ⟨hm, -⟩
      · exact Or.inr ⟨l, hl, hid, .cas expect target cols hexit hstatus rfl⟩
      · exact Or.inl hm
  | force target hexit hforce =>
    rw [mem_forceListing] at hm
    split at hm
    · exact Or.inl hm
    · obtain ⟨l, hl, rfl⟩ := hm
      split
      · rename_i hid
        exact Or.inr ⟨l, hl, hid, .force target hforce rfl⟩
      · exact Or.inl hl
  | stay => exact Or.inl hm

theorem Exit.persists {op : Op} {read : ListingStatus} {r : Reply} (h : Exit op read r t t') (hl : l ∈ t) : ∃ m ∈ t', SameTerms l m := by
  cases h with
  | cas expect target cols won _ hexit hcas =>
    cases hcas with
    | lost hnone => exact ⟨l, hl, SameTerms.refl l⟩
    | won _ l' hl' hid hstatus hmem hnext =>
      by_cases hll : l.listingId = op.listingId
      · have heq : l = l' := SerialTable.eq_of_id_eq hl hl' (hll.trans hid.symm)
        exact ⟨l'.set target cols, (hmem _).mpr (Or.inl rfl), heq ▸ SameTerms.set _ _ _⟩
      · exact ⟨l, (hmem l).mpr (Or.inr ⟨hl, hll⟩), SameTerms.refl l⟩
  | force target hexit hforce =>
    by_cases hread : target = read
    · exact ⟨l, mem_forceListing.mpr (by rwa [if_pos hread]), SameTerms.refl l⟩
    · refine ⟨if l.listingId = op.listingId then l.set target .keep else l,
        mem_forceListing.mpr ?_, ?_⟩
      · rw [if_neg hread]
        exact ⟨l, hl, rfl⟩
      · split
        · exact SameTerms.set _ _ _
        · exact SameTerms.refl l
  | stay => exact ⟨l, hl, SameTerms.refl l⟩

theorem Reserve.persists {s : Sys} {op : Op} {read : ListingStatus}
    {requests : Requests} (h : Reserve s op read t' requests)
    (hl : l ∈ s.listings) : ∃ m ∈ t', SameTerms l m := by
  have hmoved : ∀ {row : Listing} {id : Nat} {target : ListingStatus} {cols : Columns},
      row ∈ s.listings → row.listingId = id →
      (∀ m, m ∈ t' ↔ m = row.set target cols ∨ m ∈ s.listings ∧ m.listingId ≠ id) →
      ∃ m ∈ t', SameTerms l m := by
    intro row id target cols hrow hid hmem
    by_cases hll : l.listingId = id
    · have heq : l = row := SerialTable.eq_of_id_eq hl hrow (hll.trans hid.symm)
      exact ⟨row.set target cols, (hmem _).mpr (Or.inl rfl), heq ▸ SameTerms.set _ _ _⟩
    · exact ⟨l, (hmem l).mpr (Or.inr ⟨hl, hll⟩), SameTerms.refl l⟩
  cases h with
  | list u f ctrl owned src listings hrows =>
    exact ⟨l, (SerialTable.mem_of_rows hrows).mpr (Or.inr hl), SameTerms.refl l⟩
  | fill u f ctrl owned src row listings hrow hid hactive hrows =>
    exact ⟨l, (SerialTable.mem_of_rows hrows).mpr (Or.inr hl), SameTerms.refl l⟩
  | buy u f ctrl row listings hrow hid hactive hmem => exact hmoved hrow hid hmem
  | cancel f row listings hrow hid hactive hmem => exact hmoved hrow hid hmem
  | forceDeliver | forceReturn | refund => exact ⟨l, hl, SameTerms.refl l⟩

def Sys.isOpen (s : Sys) (listing : Nat) : Prop :=
  ∃ l ∈ s.listings, l.listingId = listing ∧ (l.status = .pending ∨ l.status = .active)

def Sys.holds (s : Sys) (call listing : Nat) : Prop :=
  ∃ k ∈ s.calls, k.id = call ∧ k.op.listingId = listing ∧ k.op.claims = true ∧ ¬ k.free

structure Inv (s : Sys) : Prop where
  rows : ∀ k ∈ s.calls, ∃ l ∈ s.listings, l.listingId = k.op.listingId ∧
    ∀ a, k.op.sale? = some a → l.sellerAccountId = a.sellerAccountId ∧ l.price = a.amount
  /-- an answer is the writer's, unless it is `unknown` -/
  answered : ∀ k ∈ s.calls, ∀ r, k.portal.reply? = some r → r.status ≠ .unknown →
    k.writer = .done r
  board : Exclusive s.isOpen s.holds
  listing : ∀ k ∈ s.calls, ∀ a, k.op = .list a → k.portal = .waiting →
    (∀ c ∈ s.calls, c.op.claims = true → c.op.listingId ≠ a.listingId) ∧
      ∀ l ∈ s.listings, l.listingId = a.listingId → l.status ≠ .active
  taker : ∀ k ∈ s.calls, ∀ c ∈ s.calls, k.op.take?.isSome → c.op.take?.isSome →
    k.op.listingId = c.op.listingId → k = c
  escrowed : ∀ e ∈ s.game.escrow, ∃ k ∈ s.calls, ∃ a, k.op.take? = some a ∧ k.took ∧
    e.correlationId = a.corr ∧ e.listingId = a.listingId ∧ e.itemId = a.itemId
  charged : ∀ p ∈ s.game.payments, p.isRefund = false → ∃ k ∈ s.calls, ∃ a,
    k.op.sale? = some a ∧ k.writer.charged ∧ p.correlationId = a.corr.uuid ∧
      p.listingId = a.listingId ∧ p.buyerAccountId = a.buyerAccountId ∧
      p.sellerAccountId = a.sellerAccountId ∧ p.amount = a.amount

theorem Inv.listing_lt {s : Sys} (h : Inv s) {k : Call} (hk : k ∈ s.calls) :
    k.op.listingId < s.listings.next := by
  obtain ⟨l, hl, hid, -⟩ := h.rows k hk
  rw [← hid]
  exact SerialTable.id_lt_next hl

theorem Op.known_of_frees {op : Op} {r : Reply} (h : op.frees r = true) : r.status ≠ .unknown := by
  intro hunknown
  cases op <;> simp [Op.frees, Reply.saleExit, hunknown, SaleExit.lets] at h

theorem Inv.done_of_free {s : Sys} (h : Inv s) {k : Call} (hk : k ∈ s.calls) (hfree : k.free) :
    ∃ r, k.writer = .done r ∧ k.op.frees r = true := by
  obtain ⟨r, hr, hfrees⟩ := hfree
  exact ⟨r, h.answered k hk r (by rw [hr]; rfl) (Op.known_of_frees hfrees), hfrees⟩

theorem inv_init (w : World) (log : DeliveryLog) (conf : Config) : Inv (Sys.init w log conf) := by
  have hcalls : ∀ k, k ∉ (Sys.init w log conf).calls := SerialTable.not_mem_empty
  refine ⟨?_, ?_, ⟨?_, ?_⟩, ?_, ?_, ?_, ?_⟩
  · exact fun k hk => absurd hk (hcalls k)
  · exact fun k hk => absurd hk (hcalls k)
  · rintro i k - ⟨c, hc, -⟩
    exact hcalls c hc
  · rintro i j k ⟨c, hc, -⟩
    exact absurd hc (hcalls c)
  · exact fun k hk => absurd hk (hcalls k)
  · exact fun k hk => absurd hk (hcalls k)
  · exact fun e he => absurd he (SerialTable.not_mem_empty e)
  · exact fun p hp => absurd hp (SerialTable.not_mem_empty p)

/-! ## A new call -/

section Sent

variable {s : Sys} {op : Op} {read : ListingStatus} {listings : Listings} {requests : Requests}

theorem Reserve.row (h : Reserve s op read listings requests) :
    ∃ l ∈ listings, l.listingId = op.listingId ∧
      ∀ a, op.sale? = some a → l.sellerAccountId = a.sellerAccountId ∧ l.price = a.amount := by
  cases h with
  | list u f ctrl owned src listings hrows =>
    exact ⟨_, (SerialTable.mem_of_rows hrows).mpr (Or.inl rfl), rfl, fun a ha => by cases ha⟩
  | fill u f ctrl owned src row listings hrow hid hactive hrows =>
    refine ⟨_, (SerialTable.mem_of_rows hrows).mpr (Or.inl rfl), rfl, fun a ha => ?_⟩
    cases ha
    exact ⟨rfl, rfl⟩
  | buy u f ctrl row listings hrow hid hactive hmem =>
    refine ⟨_, (hmem _).mpr (Or.inl rfl), hid, fun a ha => ?_⟩
    cases ha
    exact ⟨rfl, rfl⟩
  | cancel f row listings hrow hid hactive hmem =>
    exact ⟨_, (hmem _).mpr (Or.inl rfl), hid, fun a ha => by cases ha⟩
  | forceDeliver corr row b hrow => exact ⟨row, hrow, rfl, fun a ha => by cases ha⟩
  | forceReturn corr row hrow => exact ⟨row, hrow, rfl, fun a ha => by cases ha⟩
  | refund corr row b hrow => exact ⟨row, hrow, rfl, fun a ha => by cases ha⟩

theorem Reserve.fresh (h : Reserve s op read listings requests) (htake : op.take?.isSome) :
    op.listingId = s.listings.next := by
  cases h with
  | list | fill => rfl
  | buy | cancel | forceDeliver | forceReturn | refund => cases htake

theorem Reserve.claim (h : Reserve s op read listings requests) (hclaim : op.claims = true) :
    op.listingId = s.listings.next ∨
      ∃ l ∈ s.listings, l.listingId = op.listingId ∧ l.status = .active := by
  cases h with
  | fill => exact Or.inl rfl
  | buy u f ctrl row listings hrow hid hactive => exact Or.inr ⟨row, hrow, hid, hactive⟩
  | cancel f row listings hrow hid hactive => exact Or.inr ⟨row, hrow, hid, hactive⟩
  | list | forceDeliver | forceReturn | refund => cases hclaim

/-- Rows after a reservation that are up for sale: old ones, not the claimed one, or the
new row of a listing call, which is pending. -/
theorem Reserve.open_mem (h : Reserve s op read listings requests) {m : Listing}
    (hm : m ∈ listings) (hopen : m.status = .pending ∨ m.status = .active) :
    (m ∈ s.listings ∧ (op.claims = true → m.listingId ≠ op.listingId)) ∨
      (m.listingId = s.listings.next ∧ m.status = .pending ∧ op.claims = false) := by
  cases h with
  | list u f ctrl owned src listings hrows =>
    rcases (SerialTable.mem_of_rows hrows).mp hm with rfl | hm
    · exact Or.inr ⟨rfl, rfl, rfl⟩
    · exact Or.inl ⟨hm, fun hclaim => by cases hclaim⟩
  | fill u f ctrl owned src row listings hrow hid hactive hrows =>
    rcases (SerialTable.mem_of_rows hrows).mp hm with rfl | hm
    · simp [settlementListing] at hopen
    · exact Or.inl ⟨hm, fun _ => Nat.ne_of_lt (SerialTable.id_lt_next hm)⟩
  | buy u f ctrl row listings hrow hid hactive hmem =>
    rcases (hmem m).mp hm with rfl | ⟨hm, hne⟩
    · simp at hopen
    · exact Or.inl ⟨hm, fun _ => hne⟩
  | cancel f row listings hrow hid hactive hmem =>
    rcases (hmem m).mp hm with rfl | ⟨hm, hne⟩
    · simp at hopen
    · exact Or.inl ⟨hm, fun _ => hne⟩
  | forceDeliver | forceReturn | refund => exact Or.inl ⟨hm, fun hclaim => by cases hclaim⟩

theorem Inv.not_holds_fresh (h : Inv s) (c : Nat) : ¬ s.holds c s.listings.next := by
  rintro ⟨k, hk, -, hlisting, -⟩
  have := h.listing_lt hk
  omega

theorem Inv.sent (h : Inv s) {calls : Calls} (hres : Reserve s op read listings requests)
    (hcalls : calls.rows = ⟨s.calls.next, op, read, .waiting, .sent⟩ :: s.calls.rows) :
    Inv { s with listings, requests, calls } := by
  have hmem : ∀ c, c ∈ calls ↔ c = ⟨s.calls.next, op, read, .waiting, .sent⟩ ∨ c ∈ s.calls :=
    fun c => SerialTable.mem_of_rows hcalls
  have hold : ∀ c ∈ s.calls, c ∈ calls := fun c hc => (hmem c).mpr (Or.inr hc)
  refine ⟨?_, ?_, ?_, ?_, ?_, ?_, ?_⟩
  · intro k hk
    rcases (hmem k).mp hk with rfl | hk
    · exact hres.row
    · obtain ⟨l, hl, hid, hterms⟩ := h.rows k hk
      obtain ⟨m, hm, hsame⟩ := hres.persists hl
      refine ⟨m, hm, hsame.listingId.trans hid, fun a ha => ?_⟩
      rw [hsame.sellerAccountId, hsame.price]
      exact hterms a ha
  · intro k hk r hr
    rcases (hmem k).mp hk with rfl | hk
    · cases hr
    · exact h.answered k hk r hr
  · -- the board
    have hholds : ∀ i j, Sys.holds { s with listings, requests, calls } i j →
        s.holds i j ∨ (i = s.calls.next ∧ j = op.listingId) ∧ op.claims = true := by
      rintro i j ⟨k, hk, rfl, rfl, hclaim, hfree⟩
      rcases (hmem k).mp hk with rfl | hk
      · exact Or.inr ⟨⟨rfl, rfl⟩, hclaim⟩
      · exact Or.inl ⟨k, hk, rfl, rfl, hclaim, hfree⟩
    cases hclaim : op.claims with
    | true =>
      refine @Exclusive.acquire _ _ _ _ _ _ h.board s.calls.next op.listingId ?_ ?_ ?_
      · intro i
        rcases hres.claim hclaim with hfresh | ⟨l, hl, hid, hactive⟩
        · rw [hfresh]
          exact h.not_holds_fresh i
        · exact h.board.free i _ ⟨l, hl, hid, Or.inr hactive⟩
      · rintro j ⟨m, hm, rfl, hopen⟩
        rcases hres.open_mem hm hopen with ⟨hm, hne⟩ | ⟨-, -, hno⟩
        · exact ⟨⟨m, hm, rfl, hopen⟩, hne hclaim⟩
        · rw [hclaim] at hno
          cases hno
      · intro i j hij
        rcases hholds i j hij with hij | ⟨hij, -⟩
        · exact Or.inl hij
        · exact Or.inr hij
    | false =>
      refine h.board.publish ?_ ?_
      · rintro j ⟨m, hm, rfl, hopen⟩
        rcases hres.open_mem hm hopen with ⟨hm, -⟩ | ⟨hid, -⟩
        · exact Or.inl ⟨m, hm, rfl, hopen⟩
        · rw [hid]
          exact Or.inr h.not_holds_fresh
      · intro i j hij
        rcases hholds i j hij with hij | ⟨-, hyes⟩
        · exact hij
        · rw [hclaim] at hyes
          cases hyes
  · -- a listing call that waits
    intro k hk a hop hwait
    rcases (hmem k).mp hk with rfl | hk
    · have hfresh : a.listingId = s.listings.next := by
        have := hres.fresh (by simp [show op = .list a from hop, Op.take?])
        rwa [show op = .list a from hop] at this
      refine ⟨fun c hc hclaim => ?_, fun l hl hid hactive => ?_⟩
      · rcases (hmem c).mp hc with rfl | hc
        · rw [show op = .list a from hop] at hclaim
          cases hclaim
        · have := h.listing_lt hc
          omega
      · rcases hres.open_mem hl (Or.inr hactive) with ⟨hl, -⟩ | ⟨-, hpending, -⟩
        · have := SerialTable.id_lt_next hl
          omega
        · rw [hactive] at hpending
          cases hpending
    · obtain ⟨hclaims, hstatus⟩ := h.listing k hk a hop hwait
      refine ⟨fun c hc hclaim => ?_, fun l hl hid hactive => ?_⟩
      · rcases (hmem c).mp hc with rfl | hc
        · rcases hres.claim hclaim with hfresh | ⟨l, hl, hid, hactive⟩
          · have hlt := h.listing_lt hk
            rw [hop] at hlt
            exact fun heq => Nat.ne_of_lt hlt (heq.symm.trans hfresh)
          · exact fun heq => hstatus l hl (hid.trans heq) hactive
        · exact hclaims c hc hclaim
      · rcases hres.open_mem hl (Or.inr hactive) with ⟨hl, -⟩ | ⟨-, hpending, -⟩
        · exact hstatus l hl hid hactive
        · rw [hactive] at hpending
          cases hpending
  · intro k hk c hc hkt hct heq
    rcases (hmem k).mp hk with rfl | hk <;> rcases (hmem c).mp hc with rfl | hc
    · rfl
    · have hfresh := hres.fresh hkt
      have hlt := h.listing_lt hc
      exact absurd (heq.symm.trans hfresh) (Nat.ne_of_lt hlt)
    · have hfresh := hres.fresh hct
      have hlt := h.listing_lt hk
      exact absurd (heq.trans hfresh) (Nat.ne_of_lt hlt)
    · exact h.taker k hk c hc hkt hct heq
  · intro e he
    obtain ⟨k, hk, hrest⟩ := h.escrowed e he
    exact ⟨k, hold k hk, hrest⟩
  · intro p hp hcharge
    obtain ⟨k, hk, hrest⟩ := h.charged p hp hcharge
    exact ⟨k, hold k hk, hrest⟩

end Sent

/-! ## A step of a writer -/

section Wrote

variable {proc : SolarisProc} {conf : Config} {op : Op} {db db' : GameDb}
  {stage stage' : WriterStage}

structure SameLot (e e' : EscrowRow) : Prop where
  id : e'.id = e.id
  correlationId : e'.correlationId = e.correlationId
  listingId : e'.listingId = e.listingId
  itemId : e'.itemId = e.itemId

structure SameCharge (p p' : PaymentRow) : Prop where
  correlationId : p'.correlationId = p.correlationId
  listingId : p'.listingId = p.listingId
  buyerAccountId : p'.buyerAccountId = p.buyerAccountId
  sellerAccountId : p'.sellerAccountId = p.sellerAccountId
  amount : p'.amount = p.amount
  detail : p'.detail = p.detail

theorem WriterStep.not_done {r : Reply} (h : WriterStep proc conf op db (.done r) stage' db') :
    False := by
  cases h with
  | raised _ t e ht => cases op <;> cases ht
  | committed _ t res _ ht => cases op <;> cases ht

theorem saleReply_charged (new : Bool) (r : Option DeliveryResult) :
    (saleReply new r).saleExit.lets = false := by
  cases r with
  | none => rfl
  | some r =>
    obtain ⟨state, order, item, escrow, stack⟩ := r
    cases state <;> cases new <;> rfl

theorem WriterStep.charged {a : BuyArgs} (h : WriterStep proc conf op db stage stage' db')
    (hsale : op.sale? = some a) (hcharged : stage.charged) : stage'.charged := by
  cases h with
  | refused => cases hcharged
  | raised _ t e ht =>
    cases stage with
    | sent => cases hcharged
    | done r => cases op <;> cases ht
    | paid new => cases op <;> cases hsale <;> rfl
  | committed _ t res _ ht heff =>
    cases stage with
    | sent => cases hcharged
    | done r => cases op <;> cases ht
    | paid new =>
      cases op with
      | buy a =>
        cases ht
        cases heff
        exact saleReply_charged _ _
      | fill a =>
        cases ht
        cases heff
        exact saleReply_charged _ _
      | list | cancel | forceDeliver | forceReturn | refund => cases hsale

theorem Delivery.escrow_mem {a : DeliveryArgs} {r : Option DeliveryResult}
    (h : Delivery a db r db') {e' : EscrowRow} (he' : e' ∈ db'.escrow) :
    ∃ e ∈ db.escrow, SameLot e e' := by
  cases h with
  | settled | logged => exact ⟨e', he', rfl, rfl, rfl, rfl⟩
  | missing e he hstack =>
    obtain ⟨f, hf, rfl⟩ := mem_markMissing.mp he'
    refine ⟨f, hf, ?_⟩
    split <;> exact ⟨rfl, rfl, rfl, rfl⟩
  | handed e who stack mask depth expiry orders log he =>
    obtain ⟨f, hf, rfl⟩ := mem_closeEscrow.mp he'
    refine ⟨f, hf, ?_⟩
    split <;> exact ⟨rfl, rfl, rfl, rfl⟩

theorem Delivery.payments_eq {a : DeliveryArgs} {r : Option DeliveryResult}
    (h : Delivery a db r db') : db'.payments = db.payments := by
  cases h <;> rfl

theorem WriterStep.escrow_mem (h : WriterStep proc conf op db stage stage' db') {e' : EscrowRow}
    (he' : e' ∈ db'.escrow) :
    (∃ e ∈ db.escrow, SameLot e e') ∨
      stage = .sent ∧ e'.state = .held ∧ ∃ a, op.take? = some a ∧ e'.correlationId = a.corr ∧
        e'.listingId = a.listingId ∧ e'.itemId = a.itemId ∧
        (op = .list a ∧ stage' = .done ⟨.applied, none, none, none, some a.itemId, none⟩ ∨
          (∃ b, op = .fill b) ∧ stage' = .paid true) := by
  cases h with
  | refused => exact Or.inl ⟨e', he', rfl, rfl, rfl, rfl⟩
  | raised => exact Or.inl ⟨e', he', rfl, rfl, rfl, rfl⟩
  | committed _ t res _ ht heff =>
    cases heff with
    | listReplay | payReplay | fillReplay | refundReplay | paid | refunded =>
      exact Or.inl ⟨e', he', rfl, rfl, rfl, rfl⟩
    | delivered a r _ hdlv => exact Or.inl (hdlv.escrow_mem he')
    | listed a e escrow res world htake hheld hid hrows =>
      rcases (SerialTable.mem_of_rows hrows).mp he' with rfl | he'
      · cases op with
        | list b =>
          cases stage <;> cases ht
          exact Or.inr ⟨rfl, hheld.state, _, rfl, hheld.correlationId, hheld.listingId,
            hheld.itemId, Or.inl ⟨rfl, rfl⟩⟩
        | buy | fill | cancel | forceDeliver | forceReturn | refund => cases stage <;> cases ht
      · exact Or.inl ⟨e', he', rfl, rfl, rfl, rfl⟩
    | filled a e escrow p payments res world htake hheld heid herows =>
      rcases (SerialTable.mem_of_rows herows).mp he' with rfl | he'
      · cases op with
        | fill b =>
          cases stage <;> cases ht
          exact Or.inr ⟨rfl, hheld.state, _, rfl, hheld.correlationId, hheld.listingId,
            hheld.itemId, Or.inr ⟨⟨_, rfl⟩, rfl⟩⟩
        | buy | list | cancel | forceDeliver | forceReturn | refund => cases stage <;> cases ht
      · exact Or.inl ⟨e', he', rfl, rfl, rfl, rfl⟩

/-- The payment rows after a step of a writer: the old ones, a refund, or the charge of a
sale call, whose transaction A has just committed. -/
theorem WriterStep.payment_mem (h : WriterStep proc conf op db stage stage' db') {p' : PaymentRow}
    (hp' : p' ∈ db'.payments) :
    (∃ p ∈ db.payments, SameCharge p p') ∨ p'.isRefund = true ∨
      stage = .sent ∧ stage' = .paid true ∧ ∃ a, op.sale? = some a ∧
        Paid p' a.corr a.listingId a.buyerAccountId a.sellerAccountId a.amount p'.detail := by
  cases h with
  | refused => exact Or.inl ⟨p', hp', rfl, rfl, rfl, rfl, rfl, rfl⟩
  | raised => exact Or.inl ⟨p', hp', rfl, rfl, rfl, rfl, rfl, rfl⟩
  | committed _ t res _ ht heff =>
    cases heff with
    | listReplay | payReplay | fillReplay | refundReplay | listed =>
      exact Or.inl ⟨p', hp', rfl, rfl, rfl, rfl, rfl, rfl⟩
    | delivered a r _ hdlv =>
      rw [hdlv.payments_eq] at hp'
      exact Or.inl ⟨p', hp', rfl, rfl, rfl, rfl, rfl, rfl⟩
    | paid a p payments buyer seller hpaid hid hrows =>
      rcases (SerialTable.mem_of_rows hrows).mp hp' with rfl | hp'
      · cases op with
        | buy b =>
          cases stage <;> cases ht
          exact Or.inr (Or.inr ⟨rfl, rfl, a, rfl, hpaid.detail ▸ hpaid⟩)
        | list | fill | cancel | forceDeliver | forceReturn | refund => cases stage <;> cases ht
      · exact Or.inl ⟨p', hp', rfl, rfl, rfl, rfl, rfl, rfl⟩
    | filled a e escrow p payments res world htake hheld heid herows hpaid hpid hprows =>
      rcases (SerialTable.mem_of_rows hprows).mp hp' with rfl | hp'
      · cases op with
        | fill b =>
          cases stage <;> cases ht
          exact Or.inr (Or.inr ⟨rfl, rfl, _, rfl, hpaid.detail ▸ hpaid⟩)
        | buy | list | cancel | forceDeliver | forceReturn | refund => cases stage <;> cases ht
      · exact Or.inl ⟨p', hp', rfl, rfl, rfl, rfl, rfl, rfl⟩
    | refunded a p payments buyer seller hpaid hid hrows =>
      obtain ⟨q, hq, rfl⟩ := mem_stampReversed.mp hp'
      rcases (SerialTable.mem_of_rows hrows).mp hq with rfl | hq
      · refine Or.inr (Or.inl ?_)
        split <;> simp [PaymentRow.isRefund, PaymentRow.reversed, hpaid.detail]
      · refine Or.inl ⟨q, hq, ?_⟩
        split <;> exact ⟨rfl, rfl, rfl, rfl, rfl, rfl⟩

end Wrote

section WroteInv

variable {proc : SolarisProc} {s : Sys} {k : Call} {stage : WriterStage} {game : GameDb}

theorem setWriter_back (hk : k ∈ s.calls) {c : Call} (hc : c ∈ s.setWriter k.id stage) :
    ∃ c₀ ∈ s.calls, c₀.id = c.id ∧ c₀.op = c.op ∧ c₀.portal = c.portal ∧
      c₀.rowStatus = c.rowStatus ∧ (c₀ = c ∨ c₀ = k ∧ c.writer = stage) := by
  rcases (mem_setWriter hk stage c).mp hc with rfl | ⟨hc, -⟩
  · exact ⟨k, hk, rfl, rfl, rfl, rfl, Or.inr ⟨rfl, rfl⟩⟩
  · exact ⟨c, hc, rfl, rfl, rfl, rfl, Or.inl rfl⟩

theorem setWriter_forth (hk : k ∈ s.calls) {c₀ : Call} (hc : c₀ ∈ s.calls) :
    ∃ c ∈ s.setWriter k.id stage, c.id = c₀.id ∧ c.op = c₀.op ∧ c.portal = c₀.portal ∧
      (c = c₀ ∨ c₀ = k ∧ c.writer = stage) := by
  by_cases h : c₀.id = k.id
  · have heq : c₀ = k := SerialTable.eq_of_id_eq hc hk h
    subst heq
    exact ⟨_, (mem_setWriter hc stage _).mpr (Or.inl rfl), rfl, rfl, rfl, Or.inr ⟨rfl, rfl⟩⟩
  · exact ⟨c₀, (mem_setWriter hk stage _).mpr (Or.inr ⟨hc, h⟩), rfl, rfl, rfl, Or.inl rfl⟩

theorem Call.free_congr {c c₀ : Call} (hop : c₀.op = c.op) (hportal : c₀.portal = c.portal) :
    c.free ↔ c₀.free := by
  unfold Call.free
  rw [hop, hportal]

theorem WriterStep.took {c : Call} (h : WriterStep proc s.conf k.op s.game k.writer stage game)
    (hop : c.op = k.op) (hwriter : c.writer = stage) (htake : k.op.take?.isSome)
    (htook : k.took) : c.took := by
  cases hkop : k.op with
  | list a =>
    simp only [Call.took, hkop] at htook
    obtain ⟨r, hr, -⟩ := htook
    rw [hr] at h
    exact h.not_done.elim
  | fill a =>
    simp only [Call.took, hkop] at htook
    rw [Call.took, hop, hkop, hwriter]
    exact h.charged (by rw [hkop]; rfl) htook
  | buy | cancel | forceDeliver | forceReturn | refund =>
    rw [hkop] at htake
    cases htake

theorem Inv.wrote (h : Inv s) (hk : k ∈ s.calls)
    (hwrite : WriterStep proc s.conf k.op s.game k.writer stage game) :
    Inv { s with game, calls := s.setWriter k.id stage } := by
  refine ⟨?_, ?_, ?_, ?_, ?_, ?_, ?_⟩
  · intro c hc
    obtain ⟨c₀, hc₀, -, hop, -⟩ := setWriter_back hk hc
    rw [← hop]
    exact h.rows c₀ hc₀
  · intro c hc r hr hne
    obtain ⟨c₀, hc₀, -, -, hportal, -, rfl | ⟨rfl, -⟩⟩ := setWriter_back hk hc
    · exact h.answered c₀ hc₀ r hr hne
    · have hdone := h.answered c₀ hk r (hportal ▸ hr) hne
      rw [hdone] at hwrite
      exact hwrite.not_done.elim
  · refine h.board.mono (fun j hj => hj) ?_
    rintro i j ⟨c, hc, rfl, rfl, hclaim, hfree⟩
    obtain ⟨c₀, hc₀, hid, hop, hportal, -⟩ := setWriter_back hk hc
    exact ⟨c₀, hc₀, hid, by rw [hop], by rwa [hop], by rwa [← Call.free_congr hop hportal]⟩
  · intro c hc a hop hwait
    obtain ⟨c₀, hc₀, -, hop₀, hportal, -⟩ := setWriter_back hk hc
    obtain ⟨hclaims, hstatus⟩ := h.listing c₀ hc₀ a (hop₀.trans hop) (hportal.trans hwait)
    refine ⟨fun d hd hclaim => ?_, hstatus⟩
    obtain ⟨d₀, hd₀, -, hdop, -⟩ := setWriter_back hk hd
    rw [← hdop] at hclaim ⊢
    exact hclaims d₀ hd₀ hclaim
  · intro c hc d hd hct hdt heq
    obtain ⟨c₀, hc₀, hcid, hcop, -⟩ := setWriter_back hk hc
    obtain ⟨d₀, hd₀, hdid, hdop, -⟩ := setWriter_back hk hd
    rw [← hcop] at hct heq
    rw [← hdop] at hdt heq
    have hcd := h.taker c₀ hc₀ d₀ hd₀ hct hdt heq
    exact SerialTable.eq_of_id_eq hc hd (by rw [← hcid, ← hdid, hcd])
  · intro e' he'
    rcases hwrite.escrow_mem he' with ⟨e, he, hsame⟩ | ⟨-, -, a, ha, hcorr, hlisting, hitem,
      hstage⟩
    · obtain ⟨c₀, hc₀, a, ha, htook, hcorr, hlisting, hitem⟩ := h.escrowed e he
      obtain ⟨c, hc, -, hop, -, hcc⟩ := @setWriter_forth s k stage hk c₀ hc₀
      refine ⟨c, hc, a, by rw [hop, ha], ?_, hsame.correlationId.trans hcorr,
        hsame.listingId.trans hlisting, hsame.itemId.trans hitem⟩
      rcases hcc with rfl | ⟨rfl, hwriter⟩
      · exact htook
      · exact hwrite.took hop hwriter (by rw [ha]; rfl) htook
    · refine ⟨{ k with writer := stage }, (mem_setWriter hk stage _).mpr (Or.inl rfl), a, ha, ?_,
        hcorr, hlisting, hitem⟩
      rcases hstage with ⟨hop, hstage⟩ | ⟨⟨b, hop⟩, hstage⟩
      · simp only [Call.took, hop]
        exact ⟨_, hstage, rfl⟩
      · simp only [Call.took, hop, hstage]
        trivial
  · intro p' hp' hcharge
    rcases hwrite.payment_mem hp' with ⟨p, hp, hsame⟩ | hrefund | ⟨-, hstage, a, ha, hpaid⟩
    · have hcharge₀ : p.isRefund = false := by
        rw [← hcharge, PaymentRow.isRefund, PaymentRow.isRefund, hsame.detail]
      obtain ⟨c₀, hc₀, a, ha, hcharged, hcorr, hlisting, hbuyer, hseller, hamount⟩ :=
        h.charged p hp hcharge₀
      obtain ⟨c, hc, -, hop, -, hcc⟩ := @setWriter_forth s k stage hk c₀ hc₀
      refine ⟨c, hc, a, by rw [hop, ha], ?_, hsame.correlationId.trans hcorr,
        hsame.listingId.trans hlisting, hsame.buyerAccountId.trans hbuyer,
        hsame.sellerAccountId.trans hseller, hsame.amount.trans hamount⟩
      rcases hcc with rfl | ⟨rfl, hwriter⟩
      · exact hcharged
      · rw [hwriter]
        exact hwrite.charged ha hcharged
    · rw [hrefund] at hcharge
      cases hcharge
    · refine ⟨{ k with writer := stage }, (mem_setWriter hk stage _).mpr (Or.inl rfl), a, ha, ?_,
        hpaid.correlationId, hpaid.listingId, hpaid.buyerAccountId, hpaid.sellerAccountId,
        hpaid.amount⟩
      show stage.charged
      rw [hstage]
      trivial

end WroteInv

/-! ## An update of a handler -/

section Exited

variable {s : Sys} {k : Call} {stage : PortalStage} {r : Reply}

theorem setPortal_back (hk : k ∈ s.calls) {c : Call} (hc : c ∈ s.setPortal k.id stage) :
    ∃ c₀ ∈ s.calls, c₀.id = c.id ∧ c₀.op = c.op ∧ c₀.writer = c.writer ∧
      c₀.rowStatus = c.rowStatus ∧ (c₀ = c ∨ c₀ = k ∧ c.portal = stage) := by
  rcases (mem_setPortal hk stage c).mp hc with rfl | ⟨hc, -⟩
  · exact ⟨k, hk, rfl, rfl, rfl, rfl, Or.inr ⟨rfl, rfl⟩⟩
  · exact ⟨c, hc, rfl, rfl, rfl, rfl, Or.inl rfl⟩

theorem setPortal_forth (hk : k ∈ s.calls) {c₀ : Call} (hc : c₀ ∈ s.calls) :
    ∃ c ∈ s.setPortal k.id stage, c.id = c₀.id ∧ c.op = c₀.op ∧ c.writer = c₀.writer ∧
      (c = c₀ ∨ c₀ = k ∧ c.portal = stage) := by
  by_cases h : c₀.id = k.id
  · have heq : c₀ = k := SerialTable.eq_of_id_eq hc hk h
    subst heq
    exact ⟨_, (mem_setPortal hc stage _).mpr (Or.inl rfl), rfl, rfl, rfl, Or.inr ⟨rfl, rfl⟩⟩
  · exact ⟨c₀, (mem_setPortal hk stage _).mpr (Or.inr ⟨hc, h⟩), rfl, rfl, rfl, Or.inl rfl⟩

theorem Op.Sets.opens {op : Op} {l m : Listing} (h : op.Sets r l m)
    (hopen : m.status = .pending ∨ m.status = .active) :
    (∃ a, op = .list a) ∧ l.status = .pending ∨
      op.claims = true ∧ op.frees r = true ∧ op.exitStage r = .finished r := by
  cases h with
  | force target hforce hm =>
    subst hm
    rw [Listing.status_set] at hopen
    cases op <;> simp only [Op.forced] at hforce <;> try cases hforce
    all_goals
      split at hforce <;> cases hforce
      simp at hopen
  | cas expect target cols hexit hstatus hm =>
    subst hm
    rw [Listing.status_set] at hopen
    cases op with
    | list a =>
      simp only [Op.exitCas] at hexit
      split at hexit <;> cases hexit <;> exact Or.inl ⟨⟨a, rfl⟩, hstatus⟩
    | buy a =>
      simp only [Op.exitCas] at hexit
      refine Or.inr ⟨rfl, ?_, rfl⟩
      cases hr : r.saleExit <;> simp only [hr, SaleExit.buyStatus] at hexit <;> cases hexit <;>
        simp_all [Op.frees, SaleExit.lets]
    | fill a =>
      simp only [Op.exitCas] at hexit
      cases hr : r.saleExit <;> simp only [hr, SaleExit.fillStatus] at hexit <;> cases hexit <;>
        simp at hopen
    | cancel a =>
      simp only [Op.exitCas] at hexit
      split at hexit
      · rename_i hdeferred
        exact Or.inr ⟨rfl, by simp [Op.frees, hdeferred], rfl⟩
      · split at hexit <;> cases hexit
        simp at hopen
    | forceDeliver | forceReturn | refund => cases hexit

/-- An update of the handler of `k`, with what it does to the listings. -/
theorem Inv.updated (h : Inv s) (hk : k ∈ s.calls) (hfree : ¬ k.free) (hstage : stage ≠ .waiting)
    (hreply : ∀ r, stage.reply? = some r → r.status ≠ .unknown → k.writer = .done r)
    (listings : Listings) (requests : Requests)
    (hback : ∀ m ∈ listings, m ∈ s.listings ∨ ∃ l ∈ s.listings,
      l.listingId = k.op.listingId ∧ k.op.Sets r l m ∧ stage = k.op.exitStage r)
    (hforth : ∀ l ∈ s.listings, ∃ m ∈ listings, SameTerms l m) :
    Inv { s with listings, requests, calls := s.setPortal k.id stage } := by
  refine ⟨?_, ?_, ?_, ?_, ?_, ?_, ?_⟩
  · intro c hc
    obtain ⟨c₀, hc₀, -, hop, -⟩ := setPortal_back hk hc
    obtain ⟨l, hl, hid, hterms⟩ := h.rows c₀ hc₀
    obtain ⟨m, hm, hsame⟩ := hforth l hl
    refine ⟨m, hm, by rw [hsame.listingId, hid, hop], fun a ha => ?_⟩
    rw [hsame.sellerAccountId, hsame.price]
    exact hterms a (by rw [hop, ha])
  · intro c hc r' hr hne
    obtain ⟨c₀, hc₀, -, -, hwriter, -, rfl | ⟨rfl, hportal⟩⟩ := setPortal_back hk hc
    · exact h.answered c₀ hc₀ r' hr hne
    · rw [← hwriter]
      exact hreply r' (hportal ▸ hr) hne
  · refine h.board.settle ?_ ?_
    · rintro j ⟨m, hm, rfl, hopen⟩
      rcases hback m hm with hm | ⟨l, hl, hid, hsets, hexit⟩
      · exact Or.inl ⟨m, hm, rfl, hopen⟩
      · rw [hsets.sameTerms.listingId]
        rcases hsets.opens hopen with ⟨-, hpending⟩ | ⟨hclaim, hfrees, hfinish⟩
        · exact Or.inl ⟨l, hl, rfl, Or.inl hpending⟩
        · refine Or.inr ⟨k.id, ⟨k, hk, rfl, hid.symm, hclaim, hfree⟩, ?_⟩
          rintro ⟨c, hc, hcid, -, -, hcfree⟩
          rcases (mem_setPortal hk stage c).mp hc with rfl | ⟨-, hne⟩
          · exact hcfree ⟨r, hexit.trans hfinish, hfrees⟩
          · exact hne hcid
    · rintro i j ⟨c, hc, rfl, rfl, hclaim, hcfree⟩
      obtain ⟨c₀, hc₀, hid, hop, -, -, hcc⟩ := setPortal_back hk hc
      refine ⟨c₀, hc₀, hid, by rw [hop], by rwa [hop], ?_⟩
      rcases hcc with rfl | ⟨rfl, -⟩
      · exact hcfree
      · exact hfree
  · intro c hc a hop hwait
    obtain ⟨c₀, hc₀, hcid, hop₀, -, -, rfl | ⟨rfl, hportal⟩⟩ := setPortal_back hk hc
    · obtain ⟨hclaims, hstatus⟩ := h.listing c₀ hc₀ a hop hwait
      refine ⟨fun d hd hclaim => ?_, fun m hm hid hactive => ?_⟩
      · obtain ⟨d₀, hd₀, -, hdop, -⟩ := setPortal_back hk hd
        rw [← hdop] at hclaim ⊢
        exact hclaims d₀ hd₀ hclaim
      · rcases hback m hm with hm | ⟨l, hl, hlid, hsets, hexit⟩
        · exact hstatus m hm hid hactive
        · have hla : k.op.listingId = a.listingId := by
            rw [← hlid, ← hid, hsets.sameTerms.listingId]
          rcases hsets.opens (Or.inr hactive) with ⟨⟨b, hb⟩, -⟩ | ⟨hclaim, -⟩
          · -- the row's only listing call is `c`, which still waits
            have heq := h.taker k hk c₀ hc₀ (by rw [hb]; rfl) (by rw [hop]; rfl)
              (by rw [hla, hop]; rfl)
            subst heq
            rcases (mem_setPortal hk stage k).mp hc with hck | ⟨-, hne⟩
            · rw [hck] at hwait
              exact hstage hwait
            · exact hne rfl
          · exact hclaims k hk hclaim hla
    · exact absurd (hportal.symm.trans hwait) hstage
  · intro c hc d hd hct hdt heq
    obtain ⟨c₀, hc₀, hcid, hcop, -⟩ := setPortal_back hk hc
    obtain ⟨d₀, hd₀, hdid, hdop, -⟩ := setPortal_back hk hd
    rw [← hcop] at hct heq
    rw [← hdop] at hdt heq
    have hcd := h.taker c₀ hc₀ d₀ hd₀ hct hdt heq
    exact SerialTable.eq_of_id_eq hc hd (by rw [← hcid, ← hdid, hcd])
  · intro e he
    obtain ⟨c₀, hc₀, a, ha, htook, hfacts⟩ := h.escrowed e he
    obtain ⟨c, hc, -, hop, hwriter, -⟩ := @setPortal_forth s k stage hk c₀ hc₀
    refine ⟨c, hc, a, by rw [hop, ha], ?_, hfacts⟩
    unfold Call.took at htook ⊢
    rwa [hop, hwriter]
  · intro p hp hcharge
    obtain ⟨c₀, hc₀, a, ha, hcharged, hfacts⟩ := h.charged p hp hcharge
    obtain ⟨c, hc, -, hop, hwriter, -⟩ := @setPortal_forth s k stage hk c₀ hc₀
    exact ⟨c, hc, a, by rw [hop, ha], by rwa [hwriter], hfacts⟩

theorem Op.exitStage_reply (op : Op) (r : Reply) : (op.exitStage r).reply? = some r := by
  cases op <;> simp only [Op.exitStage] <;> first | rfl | (split <;> rfl)

theorem Op.exitStage_ne_waiting (op : Op) (r : Reply) : op.exitStage r ≠ .waiting := by
  intro hw
  have hreply := Op.exitStage_reply op r
  rw [hw] at hreply
  cases hreply

theorem not_free_of_waiting (h : k.portal = .waiting) : ¬ k.free := by
  rintro ⟨r, hr, -⟩
  rw [h] at hr
  cases hr

theorem not_free_of_half (h : k.portal = .half r) : ¬ k.free := by
  rintro ⟨r', hr, -⟩
  rw [h] at hr
  cases hr

end Exited

theorem Inv.step {proc : SolarisProc} {s s' : Sys} {act : Act} (h : Inv s)
    (hstep : Step proc s act s') : Inv s' := by
  cases hstep with
  | env | post | cancelRequest =>
    exact ⟨h.rows, h.answered, h.board, h.listing, h.taker, h.escrowed, h.charged⟩
  | sent _ op read listings requests calls hres hcalls => exact h.sent hres hcalls
  | wrote k stage game hk hwrite => exact h.wrote hk hwrite
  | exited _ k r listings hk hact hwait hexit =>
    refine @Inv.updated s k (k.op.exitStage r) r h hk (not_free_of_waiting hwait)
      (Op.exitStage_ne_waiting k.op r) ?_ listings s.requests
      (fun m hm => ?_) (fun l hl => hexit.persists hl)
    · intro r' hr hne
      rw [Op.exitStage_reply] at hr
      cases hr
      rcases hact with ⟨-, hdone⟩ | ⟨-, rfl⟩
      · exact hdone
      · exact absurd rfl hne
    · rcases hexit.mem hm with hm | ⟨l, hl, hid, hsets⟩
      · exact Or.inl hm
      · exact Or.inr ⟨l, hl, hid, hsets, rfl⟩
  | aborted _ k r hk hact hwait hexit =>
    refine @Inv.updated s k (.finished r) r h hk (not_free_of_waiting hwait)
      (fun hw => by cases hw) ?_ s.listings s.requests (fun m hm => Or.inl hm)
      (fun l hl => ⟨l, hl, SameTerms.refl l⟩)
    intro r' hr hne
    cases hr
    rcases hact with ⟨-, hdone⟩ | ⟨-, rfl⟩
    · exact hdone
    · exact absurd rfl hne
  | settled k r hk hhalf =>
    refine @Inv.updated s k (.finished r) r h hk (not_free_of_half hhalf)
      (fun hw => by cases hw) ?_ s.listings _ (fun m hm => Or.inl hm)
      (fun l hl => ⟨l, hl, SameTerms.refl l⟩)
    intro r' hr hne
    cases hr
    exact h.answered k hk r (by rw [hhalf]; rfl) hne

theorem inv_of_run {proc : SolarisProc} {w : World} {log : DeliveryLog} {conf : Config}
    {acts : List Act} {s : Sys} (hrun : exec (step proc) (Sys.init w log conf) acts = some s) :
    Inv s :=
  exec_invariant' (fun _ _ _ h hs => h.step (step_spec hs)) (inv_init w log conf) hrun

end LastSietch.Karum
