import LastSietch.Karum.Operator

/-!
# A wanted request and its settlement

A fill claims a request and makes its settlement listing in one transaction, and settles
the two with separate updates, the listing first. Operators move the listing, and by a
second update the request. `lockstep_of_run` says what holds in every reachable state:

* at most one fill holds a request, and none while it is open;
* a request is charged at most once;
* the request and its settlement listing are a matching pair, or the fill's handler is
  between its two updates, or an operator has moved one of them (`Sys.Matched`).

The last two cases are there by design, so a plain statement of the matching pairs fails
(`forceReturn_unmatched`).
-/

namespace LastSietch.Karum

open Runs

/-! ## The pairs -/

def RequestStatus.isIdle : RequestStatus → Bool
  | .active | .cancelled => true
  | _ => false

def RequestStatus.pairs : RequestStatus → ListingStatus → Bool
  | .filling, .selling | .reconciling, .reconciling | .paidUndelivered, .paidUndelivered
  | .filled, .sold => true
  | _, _ => false

def Call.fills (k : Call) (request : Nat) : Prop := ∃ a, k.op = .fill a ∧ a.requestId = request

theorem Call.fill_of_fills {k : Call} {request : Nat} (h : k.fills request) :
    k.op.fill?.isSome := by
  obtain ⟨a, hop, -⟩ := h
  rw [hop]
  rfl

theorem Call.fills_congr {k c : Call} (h : k.op = c.op) (request : Nat) :
    k.fills request ↔ c.fills request := by
  unfold Call.fills
  rw [h]

def Wanted.settlement (r : Wanted) : Option Nat := r.filler.map (·.settlementListingId)

def SaleExit.fillListing (x : SaleExit) : ListingStatus := (x.fillStatus 0).1

theorem SaleExit.fillStatus_fst (x : SaleExit) (item : Nat) :
    (x.fillStatus item).1 = x.fillListing := by
  cases x <;> rfl

def Sys.refundedBy (s : Sys) (listing : Nat) : Prop :=
  ∃ f ∈ s.calls, (∃ a, f.op = .refund a) ∧ f.op.listingId = listing ∧ f.confirmed

/-- The statuses that the handler of a fill has left, by where it stands. It dies where its
update of the listing raises. -/
inductive FillPair : PortalStage → RequestStatus → ListingStatus → Prop
  | waiting : FillPair .waiting .filling .selling
  | half (r : Reply) : FillPair (.half r) .filling r.saleExit.fillListing
  | finished (r : Reply) :
      FillPair (.finished r) r.saleExit.requestStatus.1 r.saleExit.fillListing
  | died (r : Reply) : FillPair (.finished r) .filling .selling

/-- The request `r` and the listing of its fill `k` stand as the handler has left them, or
as an operator has. -/
def Sys.Paired (s : Sys) (k : Call) (r : Wanted) : Prop :=
  ∃ rs ls, FillPair k.portal rs ls ∧
    (∀ l ∈ s.listings, l.listingId = k.op.listingId →
      l.status = ls ∨ l.status.isClosed = true ∧ s.movedBy k.op.listingId) ∧
    (r.status = rs ∨ r.status = .failed ∧ s.refundedBy k.op.listingId ∨
      r.status = .filled ∧ s.movedBy k.op.listingId)

structure Lockstep (s : Sys) : Prop where
  known : ∀ k ∈ s.calls, ∀ id, k.fills id → ∃ r ∈ s.requests, r.requestId = id
  letGo : ∀ k ∈ s.calls, k.op.fill?.isSome → k.free → ∀ l ∈ s.listings,
    l.listingId = k.op.listingId → l.status = .failed
  idle : ∀ r ∈ s.requests, r.status.isIdle = true →
    r.filler = none ∧ ∀ k ∈ s.calls, k.fills r.requestId → k.free
  busy : ∀ r ∈ s.requests, r.status.isIdle = false → ∃ k ∈ s.calls, k.fills r.requestId ∧
    r.settlement = some k.op.listingId ∧
    (∀ c ∈ s.calls, c.fills r.requestId → c.id = k.id ∨ c.free) ∧ s.Paired k r
  through : ∀ k ∈ s.calls, (∃ a, k.op = .forceDeliver a) →
    (∃ x, k.portal = .finished x ∧ x.good = true) → ∀ r ∈ s.requests,
    r.settlement = some k.op.listingId → r.status = .filled ∨ r.status = .failed

theorem lockstep_init (w : World) (log : DeliveryLog) (conf : Config) :
    Lockstep (Sys.init w log conf) :=
  ⟨fun k hk => absurd hk (SerialTable.not_mem_empty k),
    fun k hk => absurd hk (SerialTable.not_mem_empty k),
    fun r hr => absurd hr (SerialTable.not_mem_empty r),
    fun r hr => absurd hr (SerialTable.not_mem_empty r),
    fun k hk => absurd hk (SerialTable.not_mem_empty k)⟩

/-! ## What stays -/

theorem Call.confirmed_past {s s' : Sys} (hpast : Past s s') {f : Call} (hf : f ∈ s.calls)
    (hconf : f.confirmed) : ∃ f' ∈ s'.calls, f'.op = f.op ∧ f'.confirmed := by
  obtain ⟨r, hr, hgood⟩ := hconf
  obtain ⟨f', hf', -, hop, hreply⟩ := hpast.calls f hf
  exact ⟨f', hf', hop, r, hreply r hr, hgood⟩

theorem Sys.movedBy_past {s s' : Sys} (hpast : Past s s') {listing : Nat}
    (h : s.movedBy listing) : s'.movedBy listing := by
  obtain ⟨f, hf, hmoves, hlisting, hconf⟩ := h
  obtain ⟨f', hf', hop, hconf'⟩ := Call.confirmed_past hpast hf hconf
  exact ⟨f', hf', by rwa [hop], by rwa [hop], hconf'⟩

theorem Sys.refundedBy_past {s s' : Sys} (hpast : Past s s') {listing : Nat}
    (h : s.refundedBy listing) : s'.refundedBy listing := by
  obtain ⟨f, hf, ⟨a, hrefund⟩, hlisting, hconf⟩ := h
  obtain ⟨f', hf', hop, hconf'⟩ := Call.confirmed_past hpast hf hconf
  exact ⟨f', hf', ⟨a, hop.trans hrefund⟩, by rwa [hop], hconf'⟩

theorem Sys.Paired.past {s s' : Sys} {k k' : Call} {r : Wanted} (h : s.Paired k r)
    (hpast : Past s s') (hop : k'.op = k.op) (hportal : k'.portal = k.portal)
    (hlistings : ∀ m ∈ s'.listings, m.listingId = k.op.listingId →
      m ∈ s.listings ∨ m.status.isClosed = true ∧ s'.movedBy k.op.listingId) :
    s'.Paired k' r := by
  obtain ⟨rs, ls, hpair, hl, hr⟩ := h
  refine ⟨rs, ls, hportal ▸ hpair, fun m hm hid => ?_, ?_⟩
  · rw [hop] at hid ⊢
    rcases hlistings m hm hid with hm | hmoved
    · rcases hl m hm hid with hstatus | ⟨hclosed, hmoved⟩
      · exact Or.inl hstatus
      · exact Or.inr ⟨hclosed, Sys.movedBy_past hpast hmoved⟩
    · exact Or.inr hmoved
  · rw [hop]
    exact hr.imp_right (Or.imp (And.imp_right (Sys.refundedBy_past hpast))
      (And.imp_right (Sys.movedBy_past hpast)))

theorem Lockstep.requests_stay {s s' : Sys} (hl : Lockstep s) (hreq : s'.requests = s.requests)
    (hback : ∀ c ∈ s'.calls, ∀ id, c.fills id →
      ∃ c₀ ∈ s.calls, c₀.id = c.id ∧ c₀.fills id ∧ (c₀.free → c.free))
    (hpair : ∀ k ∈ s.calls, ∀ r ∈ s.requests, k.fills r.requestId → s.Paired k r →
      ∃ k' ∈ s'.calls, k'.id = k.id ∧ k'.op = k.op ∧ s'.Paired k' r) :
    (∀ k ∈ s'.calls, ∀ id, k.fills id → ∃ r ∈ s'.requests, r.requestId = id) ∧
    (∀ r ∈ s'.requests, r.status.isIdle = true →
      r.filler = none ∧ ∀ k ∈ s'.calls, k.fills r.requestId → k.free) ∧
    ∀ r ∈ s'.requests, r.status.isIdle = false → ∃ k ∈ s'.calls, k.fills r.requestId ∧
      r.settlement = some k.op.listingId ∧
      (∀ c ∈ s'.calls, c.fills r.requestId → c.id = k.id ∨ c.free) ∧ s'.Paired k r := by
  rw [hreq]
  refine ⟨fun c hc id hfills => ?_, fun r hr hidle => ?_, fun r hr hbusy => ?_⟩
  · obtain ⟨c₀, hc₀, -, hfills₀, -⟩ := hback c hc id hfills
    exact hl.known c₀ hc₀ id hfills₀
  · obtain ⟨hnone, hfree⟩ := hl.idle r hr hidle
    refine ⟨hnone, fun c hc hfills => ?_⟩
    obtain ⟨c₀, hc₀, -, hfills₀, hkeep⟩ := hback c hc _ hfills
    exact hkeep (hfree c₀ hc₀ hfills₀)
  · obtain ⟨k, hk, hfills, hsettle, hothers, hp⟩ := hl.busy r hr hbusy
    obtain ⟨k', hk', hid, hop, hp'⟩ := hpair k hk r hr hfills hp
    refine ⟨k', hk', (Call.fills_congr hop _).mpr hfills, by rw [hop]; exact hsettle,
      fun c hc hcf => ?_, hp'⟩
    obtain ⟨c₀, hc₀, hcid, hfills₀, hkeep⟩ := hback c hc _ hcf
    rw [hid, ← hcid]
    exact (hothers c₀ hc₀ hfills₀).imp_right hkeep

/-! ## Steps that move no request -/

section Stay

variable {proc : SolarisProc} {s : Sys} {k : Call}

theorem Lockstep.wrote (hl : Lockstep s) {stage : WriterStage} {game : GameDb} (hk : k ∈ s.calls)
    (hpast : Past s { s with game, calls := s.setWriter k.id stage }) :
    Lockstep { s with game, calls := s.setWriter k.id stage } := by
  obtain ⟨hknown, hidle, hbusy⟩ := @Lockstep.requests_stay s
    { s with game, calls := s.setWriter k.id stage } hl rfl
    (fun c hc id hfills => by
      obtain ⟨c₀, hc₀, hid, hop, hportal, -⟩ := setWriter_back hk hc
      exact ⟨c₀, hc₀, hid, (Call.fills_congr hop id).mpr hfills,
        (Call.free_congr hop hportal).mpr⟩)
    (fun c₀ hc₀ r _ _ hp => by
      obtain ⟨c, hc, hid, hop, hportal, -⟩ := @setWriter_forth s k stage hk c₀ hc₀
      exact ⟨c, hc, hid, hop, hp.past hpast hop hportal (fun m hm _ => Or.inl hm)⟩)
  refine ⟨hknown, fun c hc hfill hfree l hl' hid => ?_, hidle, hbusy,
    fun c hc hop hfin r hr hsettle => ?_⟩
  · obtain ⟨c₀, hc₀, -, hop, hportal, -⟩ := setWriter_back hk hc
    rw [← hop] at hfill hid
    exact hl.letGo c₀ hc₀ hfill ((Call.free_congr hop hportal).mp hfree) l hl' hid
  · obtain ⟨c₀, hc₀, -, hop₀, hportal, -⟩ := setWriter_back hk hc
    rw [← hop₀] at hop hsettle
    rw [← hportal] at hfin
    exact hl.through c₀ hc₀ hop hfin r hr hsettle

theorem Lockstep.answered (hl : Lockstep s) (ho : Operated s) (h : Inv s) (hk : k ∈ s.calls)
    {r : Reply} {stage : PortalStage} {listings : Listings}
    (hpast : Past s { s with listings, calls := s.setPortal k.id stage })
    (hback : ∀ m ∈ listings, m ∈ s.listings ∨ ∃ l ∈ s.listings,
      l.listingId = k.op.listingId ∧ k.op.Sets r l m ∧ stage = k.op.exitStage r ∧
        (k.writer = .done r ∨ r = .unknown))
    (hpair : ∀ q ∈ s.requests, k.fills q.requestId → s.Paired k q →
      Sys.Paired { s with listings, calls := s.setPortal k.id stage } { k with portal := stage } q)
    (hfree : k.op.fill?.isSome → ¬ ({ k with portal := stage } : Call).free) (hkfree : ¬ k.free)
    (hthrough : (∃ a, k.op = .forceDeliver a) → ∀ x, stage = .finished x → x.good = false) :
    Lockstep { s with listings, calls := s.setPortal k.id stage } := by
  have hself : { k with portal := stage } ∈ s.setPortal k.id stage :=
    (mem_setPortal hk stage _).mpr (Or.inl rfl)
  have hother : ∀ c ∈ s.calls, c.id ≠ k.id → c.op.fill?.isSome → ∀ m ∈ listings,
      m.listingId = c.op.listingId → m ∈ s.listings ∨
        m.status.isClosed = true ∧ (k.op.moves = true ∧ r.good = true ∧ k.writer = .done r ∧
          k.op.listingId = c.op.listingId ∧ stage = k.op.exitStage r) := by
    intro c hc hne hfill m hm hid
    rcases hback m hm with hm | ⟨l, hl', hlid, hsets, hexit, hdone⟩
    · exact Or.inl hm
    · have hlisting : k.op.listingId = c.op.listingId := by
        rw [← hid, hsets.sameTerms.listingId, hlid]
      obtain ⟨hmoves, hgood, hclosed⟩ :=
        ho.sets_other h hc hfill hk (Ne.symm hne) hlisting hsets
      have hdone : k.writer = .done r := by
        rcases hdone with hdone | rfl
        · exact hdone
        · cases hgood
      exact Or.inr ⟨hclosed, hmoves, hgood, hdone, hlisting, hexit⟩
  obtain ⟨hknown, hidle, hbusy⟩ := @Lockstep.requests_stay s
    { s with listings, calls := s.setPortal k.id stage } hl rfl
    (fun c hc id hfills => by
      rcases (mem_setPortal hk stage c).mp hc with rfl | ⟨hc, -⟩
      · exact ⟨k, hk, rfl, hfills, fun hf => absurd hf hkfree⟩
      · exact ⟨c, hc, rfl, hfills, fun hf => hf⟩)
    (fun c hc q hq hfills hp => by
      by_cases hid : c.id = k.id
      · have heq := SerialTable.eq_of_id_eq hc hk hid
        subst heq
        exact ⟨_, hself, rfl, rfl, hpair q hq hfills hp⟩
      · refine ⟨c, (mem_setPortal hk stage c).mpr (Or.inr ⟨hc, hid⟩), rfl, rfl,
          hp.past hpast rfl rfl (fun m hm hmid => ?_)⟩
        rcases hother c hc hid (Call.fill_of_fills hfills) m hm hmid with hm |
          ⟨hclosed, hmoves, hgood, -, hlisting, hexit⟩
        · exact Or.inl hm
        · refine Or.inr ⟨hclosed, _, hself, hmoves, hlisting, r, ?_, hgood⟩
          show stage.reply? = some r
          rw [hexit]
          exact Op.exitStage_reply _ _)
  refine ⟨hknown, fun c hc hfill hcfree m hm hid => ?_, hidle, hbusy,
    fun c hc hop hfin q hq hsettle => ?_⟩
  · rcases (mem_setPortal hk stage c).mp hc with rfl | ⟨hc, hne⟩
    · exact absurd hcfree (hfree hfill)
    · rcases hother c hc hne hfill m hm hid with hm | ⟨-, hmoves, hgood, hdone, hlisting, -⟩
      · exact hl.letGo c hc hfill hcfree m hm hid
      · exact absurd hcfree (h.not_free_of_fill_charged hc hfill
          (ho.charged_of_forced h hc hfill hk hmoves hlisting hdone hgood))
  · rcases (mem_setPortal hk stage c).mp hc with rfl | ⟨hc, -⟩
    · obtain ⟨x, hx, hgood⟩ := hfin
      rw [hthrough hop x hx] at hgood
      cases hgood
    · exact hl.through c hc hop hfin q hq hsettle

theorem Exit.fill {a : FillArgs} {read : ListingStatus} {r : Reply} {t t' : Listings}
    (h : Exit (.fill a) read r t t') {m : Listing} (hm : m ∈ t') (hid : m.listingId = a.listingId) :
    m.status = r.saleExit.fillListing ∨ m ∈ t ∧ m.status ≠ .selling := by
  cases h with
  | force target hexit => cases hexit
  | stay hexit => cases hexit
  | cas expect target cols won _ hexit hcas =>
    simp only [Op.exitCas, Option.some.injEq, Prod.mk.injEq] at hexit
    obtain ⟨rfl, hstatus⟩ := hexit
    have htarget : target = r.saleExit.fillListing := by
      rw [← SaleExit.fillStatus_fst _ a.itemId, hstatus]
    cases hcas with
    | lost hnone => exact Or.inr ⟨hm, hnone m hm hid⟩
    | won _ l hl hlid hls hmem hnext =>
      rcases (hmem m).mp hm with rfl | ⟨-, hne⟩
      · exact Or.inl ((Listing.status_set _ _ _).trans htarget)
      · exact absurd hid hne

theorem Lockstep.exited (hl : Lockstep s) (ho : Operated s) (h : Inv s) (hk : k ∈ s.calls)
    {r : Reply} {listings : Listings} (hwait : k.portal = .waiting)
    (hdone : k.writer = .done r ∨ r = .unknown) (hexit : Exit k.op k.rowStatus r s.listings listings)
    (hpast : Past s { s with listings, calls := s.setPortal k.id (k.op.exitStage r) }) :
    Lockstep { s with listings, calls := s.setPortal k.id (k.op.exitStage r) } := by
  refine @Lockstep.answered s k hl ho h hk r _ listings hpast (fun m hm => ?_)
    (fun q hq hfills hp => ?_) ?_ (not_free_of_waiting hwait) ?_
  · rcases hexit.mem hm with hm | ⟨l, hl', hlid, hsets⟩
    · exact Or.inl hm
    · exact Or.inr ⟨l, hl', hlid, hsets, rfl, hdone⟩
  · obtain ⟨a, hop, -⟩ := hfills
    obtain ⟨rs, ls, hpair, hls, hrs⟩ := hp
    rw [hwait] at hpair
    cases hpair
    refine ⟨.filling, r.saleExit.fillListing, ?_, fun m hm hid => ?_, ?_⟩
    · rw [hop]
      exact .half r
    · rw [hop] at hexit
      rcases hexit.fill hm (by rw [hid, hop]; rfl) with hstatus | ⟨hm, hne⟩
      · exact Or.inl hstatus
      · rcases hls m hm hid with hselling | ⟨hclosed, hmoved⟩
        · exact absurd hselling hne
        · exact Or.inr ⟨hclosed, Sys.movedBy_past hpast hmoved⟩
    · exact hrs.imp_right (Or.imp (And.imp_right (Sys.refundedBy_past hpast))
        (And.imp_right (Sys.movedBy_past hpast)))
  · intro hfill
    cases hop : k.op with
    | fill a => exact @not_free_of_half { k with op := .fill a, portal := .half r } r rfl
    | list | buy | cancel | forceDeliver | forceReturn | refund =>
      rw [hop] at hfill
      cases hfill
  · rintro ⟨a, hop⟩ x hx
    simp only [hop, Op.exitStage] at hx
    split at hx <;> cases hx
    rename_i hgood
    exact Bool.eq_false_iff.mpr hgood

theorem Op.exit_of_lets {a : FillArgs} {r : Reply} (hlets : r.saleExit.lets = true)
    (read : ListingStatus) (t : Listings) : (Op.fill a).exit read r t ≠ none := by
  have hcas : (Op.fill a).exitCas r = some (.selling, .failed, .keep) := by
    cases hr : r.saleExit <;> simp [hr, SaleExit.lets] at hlets <;>
      simp [Op.exitCas, hr, SaleExit.fillStatus]
  unfold Op.exit
  rw [hcas]
  simp only [ne_eq, Option.map_eq_none_iff]
  unfold karumCas
  split
  · simp
  · split
    · simp
    · simp [Listings.clashes, ListingStatus.isLive]

theorem Lockstep.aborted (hl : Lockstep s) (ho : Operated s) (h : Inv s) (hk : k ∈ s.calls)
    {r : Reply} (hwait : k.portal = .waiting) (hexit : k.op.exit k.rowStatus r s.listings = none)
    (hpast : Past s { s with calls := s.setPortal k.id (.finished r) }) :
    Lockstep { s with calls := s.setPortal k.id (.finished r) } := by
  refine @Lockstep.answered s k hl ho h hk r _ s.listings hpast (fun m hm => Or.inl hm)
    (fun q hq hfills hp => ?_) (fun hfill => ?_) (not_free_of_waiting hwait) ?_
  · obtain ⟨rs, ls, hpair, hls, hrs⟩ := hp
    rw [hwait] at hpair
    cases hpair
    refine ⟨.filling, .selling, .died r, fun m hm hid => ?_, ?_⟩
    · exact (hls m hm hid).imp_right (And.imp_right (Sys.movedBy_past hpast))
    · exact hrs.imp_right (Or.imp (And.imp_right (Sys.refundedBy_past hpast))
        (And.imp_right (Sys.movedBy_past hpast)))
  · rintro ⟨r', hr', hfrees⟩
    cases hr'
    cases hop : k.op with
    | fill a =>
      rw [hop] at hexit
      rw [show ({ k with portal := .finished r } : Call).op = .fill a from hop] at hfrees
      exact Op.exit_of_lets hfrees _ _ hexit
    | list | buy | cancel | forceDeliver | forceReturn | refund =>
      rw [hop] at hfill
      cases hfill
  · rintro ⟨a, hop⟩ x hx
    exact absurd hexit (Op.exit_of_moves (by rw [hop]; rfl) _ _ _)

end Stay

/-! ## The second update -/

section Settled

variable {s : Sys} {k : Call} {r : Reply}

theorem mem_setWhere {t : Requests} {p : Wanted → Bool} {target : RequestStatus}
    {cols : FillColumns} {q : Wanted} :
    q ∈ t.setWhere p target cols ↔ ∃ w ∈ t, q = if p w = true then w.set target cols else w :=
  SerialTable.mem_update

@[simp] theorem Wanted.status_set (w : Wanted) (target : RequestStatus) (cols : FillColumns) :
    (w.set target cols).status = target := by
  cases cols <;> rfl

@[simp] theorem Wanted.settlement_set_keep (w : Wanted) (target : RequestStatus) :
    (w.set target .keep).settlement = w.settlement := rfl

theorem mem_of_setWhere {t : Requests} {p : Wanted → Bool} {target : RequestStatus}
    {cols : FillColumns} {w : Wanted} (hw : w ∈ t) :
    ∃ q ∈ t.setWhere p target cols, q.requestId = w.requestId := by
  refine ⟨_, mem_setWhere.mpr ⟨w, hw, rfl⟩, ?_⟩
  split
  · exact Wanted.requestId_set _ _ _
  · rfl

theorem Lockstep.half_fill (hl : Lockstep s) (hk : k ∈ s.calls) {id : Nat} (hfills : k.fills id)
    (hhalf : k.portal = .half r) : ∃ w ∈ s.requests, w.requestId = id ∧ w.status.isIdle = false ∧
      w.settlement = some k.op.listingId ∧
      (∀ c ∈ s.calls, c.fills id → c.id = k.id ∨ c.free) ∧ s.Paired k w := by
  obtain ⟨w, hw, rfl⟩ := hl.known k hk id hfills
  have hbusy : w.status.isIdle = false := by
    rw [Bool.eq_false_iff]
    intro hidle
    exact not_free_of_half hhalf ((hl.idle w hw hidle).2 k hk hfills)
  obtain ⟨k₁, hk₁, hfills₁, hsettle, hothers, hp⟩ := hl.busy w hw hbusy
  rcases hothers k hk hfills with hid | hfree
  · have heq := SerialTable.eq_of_id_eq hk hk₁ hid
    subst heq
    exact ⟨w, hw, rfl, hbusy, hsettle, hothers, hp⟩
  · exact absurd hfree (not_free_of_half hhalf)

theorem Lockstep.failed_of_lets (ho : Operated s) (h : Inv s) (hk : k ∈ s.calls)
    (hfill : k.op.fill?.isSome) (hhalf : k.portal = .half r) (hlets : r.saleExit.lets = true)
    {w : Wanted} (hp : s.Paired k w) {l : Listing} (hl : l ∈ s.listings)
    (hid : l.listingId = k.op.listingId) : l.status = .failed := by
  obtain ⟨rs, ls, hpair, hls, -⟩ := hp
  rw [hhalf] at hpair
  cases hpair
  rcases hls l hl hid with hstatus | ⟨-, hmoved⟩
  · rw [hstatus]
    cases hr : r.saleExit <;> simp [hr, SaleExit.lets] at hlets <;> rfl
  · have hcharged := ho.charged_of_movedBy h hk hfill hmoved
    have hdone : k.writer = .done r := by
      refine h.answered k hk r (by rw [hhalf]; rfl) (fun hunknown => ?_)
      simp [Reply.saleExit, hunknown, SaleExit.lets] at hlets
    rw [hdone] at hcharged
    rw [show r.saleExit.lets = false from hcharged] at hlets
    cases hlets

theorem SaleExit.requestStatus_idle {x : SaleExit} (h : x.requestStatus.1.isIdle = true) :
    x.lets = true ∧ x.requestStatus.2 = .clear := by
  cases x <;> first | exact ⟨rfl, rfl⟩ | cases h

theorem SaleExit.requestStatus_keep {x : SaleExit} (h : x.requestStatus.1.isIdle = false) :
    x.requestStatus.2 = .keep := by
  cases x <;> first | rfl | cases h

theorem Lockstep.settledFill (hl : Lockstep s) (ho : Operated s) (h : Inv s) (hk : k ∈ s.calls)
    {a : FillArgs} (hop : k.op = .fill a) (hhalf : k.portal = .half r)
    (hpast : Past s { s with
      requests := karumRequestCas s.requests a.requestId .filling r.saleExit.requestStatus.1
        r.saleExit.requestStatus.2
      calls := s.setPortal k.id (.finished r) }) :
    Lockstep { s with
      requests := karumRequestCas s.requests a.requestId .filling r.saleExit.requestStatus.1
        r.saleExit.requestStatus.2
      calls := s.setPortal k.id (.finished r) } := by
  have hfills : k.fills a.requestId := ⟨a, hop, rfl⟩
  have hfill : k.op.fill?.isSome := Call.fill_of_fills hfills
  have hself : { k with portal := .finished r } ∈ s.setPortal k.id (.finished r) :=
    (mem_setPortal hk _ _).mpr (Or.inl rfl)
  obtain ⟨w, hw, hwid, hbusy, hsettle, hothers, hp⟩ := hl.half_fill hk hfills hhalf
  have hlets : ({ k with portal := .finished r } : Call).free → r.saleExit.lets = true := by
    rintro ⟨r', hr', hfrees⟩
    cases hr'
    rw [show ({ k with portal := .finished r } : Call).op = .fill a from hop] at hfrees
    exact hfrees
  have hgone : r.saleExit.lets = true → ({ k with portal := .finished r } : Call).free := by
    intro hgo
    refine ⟨r, rfl, ?_⟩
    rw [show ({ k with portal := .finished r } : Call).op = .fill a from hop]
    exact hgo
  -- the requests: `w` when it is `filling` still, and the others as they are
  have hmem : ∀ q ∈ karumRequestCas s.requests a.requestId .filling r.saleExit.requestStatus.1
      r.saleExit.requestStatus.2,
      (q = w.set r.saleExit.requestStatus.1 r.saleExit.requestStatus.2 ∧ w.status = .filling) ∨
        q ∈ s.requests ∧ (q.requestId = a.requestId → q = w ∧ w.status ≠ .filling) := by
    intro q hq
    obtain ⟨p, hpm, rfl⟩ := mem_setWhere.mp hq
    split
    · rename_i hmatch
      rw [decide_eq_true_eq] at hmatch
      have heq := SerialTable.eq_of_id_eq hpm hw (hmatch.1.trans hwid.symm)
      subst heq
      exact Or.inl ⟨rfl, hmatch.2⟩
    · rename_i hmatch
      rw [decide_eq_true_eq] at hmatch
      refine Or.inr ⟨hpm, fun hid => ?_⟩
      have heq := SerialTable.eq_of_id_eq hpm hw (hid.trans hwid.symm)
      subst heq
      exact ⟨rfl, fun hstatus => hmatch ⟨hid, hstatus⟩⟩
  have hpair : ∀ q : Wanted, (q.status = r.saleExit.requestStatus.1 ∨
      q.status = w.status ∧ w.status ≠ .filling) → Sys.Paired { s with
        requests := karumRequestCas s.requests a.requestId .filling r.saleExit.requestStatus.1
          r.saleExit.requestStatus.2
        calls := s.setPortal k.id (.finished r) } { k with portal := .finished r } q := by
    intro q hq
    obtain ⟨rs, ls, hpair, hls, hrs⟩ := hp
    rw [hhalf] at hpair
    cases hpair
    refine ⟨_, _, .finished r, fun l hl' hid => ?_, ?_⟩
    · exact (hls l hl' hid).imp_right (And.imp_right (Sys.movedBy_past hpast))
    · rcases hq with hq | ⟨hq, hne⟩
      · exact Or.inl hq
      · rw [hq]
        rcases hrs with hrs | hrs | hrs
        · exact absurd hrs hne
        · exact Or.inr (Or.inl ⟨hrs.1, Sys.refundedBy_past hpast hrs.2⟩)
        · exact Or.inr (Or.inr ⟨hrs.1, Sys.movedBy_past hpast hrs.2⟩)
  have hwfree : ∀ c ∈ s.setPortal k.id (.finished r), c.fills a.requestId → c.id = k.id ∨ c.free := by
    intro c hc hcf
    rcases (mem_setPortal hk _ c).mp hc with rfl | ⟨hc, -⟩
    · exact Or.inl rfl
    · exact hothers c hc hcf
  refine ⟨fun c hc id hcf => ?_, fun c hc hcfill hfree l hl' hid => ?_,
    fun q hq hqidle => ?_, fun q hq hqbusy => ?_, fun c hc hcop hfin q hq hqs => ?_⟩
  · obtain ⟨c₀, hc₀, -, hop₀, -⟩ := setPortal_back hk hc
    obtain ⟨p, hpm, hpid⟩ := hl.known c₀ hc₀ id ((Call.fills_congr hop₀ id).mpr hcf)
    obtain ⟨q, hq, hqid⟩ := mem_of_setWhere hpm
    exact ⟨q, hq, hqid.trans hpid⟩
  · rcases (mem_setPortal hk _ c).mp hc with rfl | ⟨hc, -⟩
    · exact Lockstep.failed_of_lets ho h hk hfill hhalf (hlets hfree) hp hl' hid
    · exact hl.letGo c hc hcfill hfree l hl' hid
  · rcases hmem q hq with ⟨rfl, -⟩ | ⟨hq, hqw⟩
    · rw [Wanted.status_set] at hqidle
      obtain ⟨hgo, hclear⟩ := SaleExit.requestStatus_idle hqidle
      rw [hclear]
      refine ⟨rfl, fun c hc hcf => ?_⟩
      rw [Wanted.requestId_set, hwid] at hcf
      rcases (mem_setPortal hk _ c).mp hc with rfl | ⟨hc, hne⟩
      · exact hgone hgo
      · exact (hothers c hc hcf).resolve_left hne
    · obtain ⟨hnone, hfree⟩ := hl.idle q hq hqidle
      refine ⟨hnone, fun c hc hcf => ?_⟩
      rcases (mem_setPortal hk _ c).mp hc with rfl | ⟨hc, -⟩
      · exact absurd (hfree k hk hcf) (not_free_of_half hhalf)
      · exact hfree c hc hcf
  · rcases hmem q hq with ⟨rfl, -⟩ | ⟨hq, hqw⟩
    · rw [Wanted.status_set] at hqbusy
      refine ⟨_, hself, ?_, ?_, ?_, hpair _ (Or.inl (Wanted.status_set _ _ _))⟩
      · rw [Wanted.requestId_set, hwid]
        exact hfills
      · rw [SaleExit.requestStatus_keep hqbusy, Wanted.settlement_set_keep]
        exact hsettle
      · rw [Wanted.requestId_set, hwid]
        exact hwfree
    · by_cases hqid : q.requestId = a.requestId
      · obtain ⟨rfl, hne⟩ := hqw hqid
        exact ⟨_, hself, hqid ▸ hfills, hsettle, hqid ▸ hwfree, hpair _ (Or.inr ⟨rfl, hne⟩)⟩
      · obtain ⟨k₁, hk₁, hfills₁, hsettle₁, hothers₁, hp₁⟩ := hl.busy q hq hqbusy
        have hne : k₁.id ≠ k.id := by
          intro hid
          rw [SerialTable.eq_of_id_eq hk₁ hk hid] at hfills₁
          obtain ⟨b, hb, hbid⟩ := hfills₁
          rw [hop] at hb
          cases hb
          exact hqid hbid.symm
        refine ⟨k₁, (mem_setPortal hk _ _).mpr (Or.inr ⟨hk₁, hne⟩), hfills₁, hsettle₁,
          fun c hc hcf => ?_, hp₁.past hpast rfl rfl (fun m hm _ => Or.inl hm)⟩
        rcases (mem_setPortal hk _ c).mp hc with rfl | ⟨hc, -⟩
        · obtain ⟨b, hb, hbid⟩ := hcf
          rw [show ({ k with portal := .finished r } : Call).op = .fill a from hop] at hb
          cases hb
          exact absurd hbid.symm hqid
        · exact hothers₁ c hc hcf
  · rcases (mem_setPortal hk _ c).mp hc with rfl | ⟨hc, -⟩
    · obtain ⟨b, hb⟩ := hcop
      rw [show ({ k with portal := .finished r } : Call).op = .fill a from hop] at hb
      cases hb
    · rcases hmem q hq with ⟨rfl, hfilling⟩ | ⟨hq, -⟩
      · -- a request whose hand-over is through is not `filling` any more
        exfalso
        cases hidle : r.saleExit.requestStatus.1.isIdle with
        | true =>
          rw [(SaleExit.requestStatus_idle hidle).2] at hqs
          cases hqs
        | false =>
          rw [SaleExit.requestStatus_keep hidle, Wanted.settlement_set_keep] at hqs
          rcases hl.through c hc hcop hfin w hw hqs with hst | hst <;>
          · rw [hfilling] at hst
            cases hst
      · exact hl.through c hc hcop hfin q hq hqs

theorem mem_setPortal_of_fill (hk : k ∈ s.calls) (hnofill : k.op.fill? = none)
    (stage : PortalStage) {c : Call} (hfill : c.op.fill?.isSome) :
    c ∈ s.setPortal k.id stage ↔ c ∈ s.calls := by
  rw [mem_setPortal hk]
  constructor
  · rintro (rfl | ⟨hc, -⟩)
    · rw [show ({ k with portal := stage } : Call).op.fill? = none from hnofill] at hfill
      cases hfill
    · exact hc
  · intro hc
    refine Or.inr ⟨hc, fun hid => ?_⟩
    rw [SerialTable.eq_of_id_eq hc hk hid, hnofill] at hfill
    cases hfill

theorem Lockstep.settledForce (hl : Lockstep s) (hk : k ∈ s.calls) (hnofill : k.op.fill? = none)
    {target : RequestStatus} (htarget : target = .filled ∨ target = .failed)
    (hdeliver : (∃ a, k.op = .forceDeliver a) → target = .filled)
    (hpast : Past s { s with
      requests := s.requests.setWhere (settledBy k.op.listingId) target .keep
      calls := s.setPortal k.id (.finished r) })
    (hdone : target = .failed ∧ s.refundedBy k.op.listingId ∨
      target = .filled ∧ s.movedBy k.op.listingId) :
    Lockstep { s with
      requests := s.requests.setWhere (settledBy k.op.listingId) target .keep
      calls := s.setPortal k.id (.finished r) } := by
  have hfillcall : ∀ c ∈ s.setPortal k.id (.finished r), c.op.fill?.isSome → c ∈ s.calls :=
    fun c hc hfill => (mem_setPortal_of_fill hk hnofill _ hfill).mp hc
  have hstay : ∀ c ∈ s.calls, c.op.fill?.isSome → c ∈ s.setPortal k.id (.finished r) :=
    fun c hc hfill => (mem_setPortal_of_fill hk hnofill _ hfill).mpr hc
  have htarget_busy : target.isIdle = false := by
    rcases htarget with rfl | rfl <;> rfl
  refine ⟨fun c hc id hcf => ?_, fun c hc hcfill hfree l hl' hid => ?_,
    fun q hq hqidle => ?_, fun q hq hqbusy => ?_, fun c hc hcop hfin q hq hqs => ?_⟩
  · obtain ⟨p, hpm, hpid⟩ := hl.known c (hfillcall c hc (Call.fill_of_fills hcf)) id hcf
    obtain ⟨q, hq, hqid⟩ := mem_of_setWhere hpm
    exact ⟨q, hq, hqid.trans hpid⟩
  · exact hl.letGo c (hfillcall c hc hcfill) hcfill hfree l hl' hid
  · obtain ⟨p, hpm, rfl⟩ := mem_setWhere.mp hq
    split at hqidle
    · rw [Wanted.status_set, htarget_busy] at hqidle
      cases hqidle
    · rename_i hmatch
      rw [if_neg hmatch]
      obtain ⟨hnone, hfree⟩ := hl.idle p hpm hqidle
      exact ⟨hnone, fun c hc hcf => hfree c (hfillcall c hc (Call.fill_of_fills hcf)) hcf⟩
  · obtain ⟨p, hpm, rfl⟩ := mem_setWhere.mp hq
    have hpbusy : p.status.isIdle = false := by
      split at hqbusy
      · rename_i hmatch
        cases hst : p.status <;> simp [settledBy, hst, RequestStatus.isSettling] at hmatch <;> rfl
      · exact hqbusy
    obtain ⟨k₁, hk₁, hfills₁, hsettle₁, hothers₁, hp₁⟩ := hl.busy p hpm hpbusy
    have hpaired := hp₁.past hpast rfl rfl (fun m hm _ => Or.inl hm)
    refine ⟨k₁, hstay k₁ hk₁ (Call.fill_of_fills hfills₁), ?_, ?_, fun c hc hcf => ?_, ?_⟩
    · split
      · rw [Wanted.requestId_set]
        exact hfills₁
      · exact hfills₁
    · split
      · exact hsettle₁
      · exact hsettle₁
    · have hcf₁ : c.fills p.requestId := by
        split at hcf
        · rwa [Wanted.requestId_set] at hcf
        · exact hcf
      exact hothers₁ c (hfillcall c hc (Call.fill_of_fills hcf)) hcf₁
    · split
      · rename_i hmatch
        have hlisting : k₁.op.listingId = k.op.listingId := by
          simp only [settledBy, Bool.and_eq_true, beq_iff_eq] at hmatch
          exact Option.some.inj (hsettle₁.symm.trans hmatch.2)
        obtain ⟨rs, ls, hpair, hls, -⟩ := hpaired
        refine ⟨rs, ls, hpair, hls, Or.inr ?_⟩
        rw [Wanted.status_set, hlisting]
        exact hdone.imp (And.imp_right (Sys.refundedBy_past hpast))
          (And.imp_right (Sys.movedBy_past hpast))
      · exact hpaired
  · obtain ⟨p, hpm, rfl⟩ := mem_setWhere.mp hq
    split
    · rw [Wanted.status_set]
      exact htarget
    · rename_i hmatch
      rw [if_neg hmatch] at hqs
      rcases (mem_setPortal hk _ c).mp hc with rfl | ⟨hc, -⟩
      · -- the hand-over is through, and a request that it has not met is not settling
        cases hidle : p.status.isIdle with
        | true =>
          rw [Wanted.settlement, (hl.idle p hpm hidle).1] at hqs
          cases hqs
        | false =>
          have hnot : p.status.isSettling = false := by
            rw [Bool.eq_false_iff]
            intro hsettling
            refine hmatch ?_
            simp only [settledBy, hsettling, Bool.true_and, beq_iff_eq]
            exact hqs
          cases hst : p.status <;> simp [hst, RequestStatus.isIdle, RequestStatus.isSettling]
            at hidle hnot ⊢
      · exact hl.through c hc hcop hfin p hpm hqs

theorem Lockstep.settledPlain (hl : Lockstep s) (hk : k ∈ s.calls) (hnofill : k.op.fill? = none)
    (hnodeliver : ∀ a, k.op ≠ .forceDeliver a)
    (hpast : Past s { s with calls := s.setPortal k.id (.finished r) }) :
    Lockstep { s with calls := s.setPortal k.id (.finished r) } := by
  have hfillcall : ∀ c ∈ s.setPortal k.id (.finished r), c.op.fill?.isSome → c ∈ s.calls :=
    fun c hc hfill => (mem_setPortal_of_fill hk hnofill _ hfill).mp hc
  obtain ⟨hknown, hidle, hbusy⟩ := @Lockstep.requests_stay s
    { s with calls := s.setPortal k.id (.finished r) } hl rfl
    (fun c hc id hcf => ⟨c, hfillcall c hc (Call.fill_of_fills hcf), rfl, hcf, fun hf => hf⟩)
    (fun c hc q _ hcf hp =>
      ⟨c, (mem_setPortal_of_fill hk hnofill _ (Call.fill_of_fills hcf)).mpr hc, rfl, rfl,
        hp.past hpast rfl rfl (fun m hm _ => Or.inl hm)⟩)
  refine ⟨hknown, fun c hc hcfill hfree l hl' hid => ?_, hidle, hbusy,
    fun c hc hcop hfin q hq hqs => ?_⟩
  · exact hl.letGo c (hfillcall c hc hcfill) hcfill hfree l hl' hid
  · rcases (mem_setPortal hk _ c).mp hc with rfl | ⟨hc, -⟩
    · obtain ⟨a, ha⟩ := hcop
      exact absurd ha (hnodeliver a)
    · exact hl.through c hc hcop hfin q hq hqs

theorem Lockstep.settled (hl : Lockstep s) (ho : Operated s) (h : Inv s) (hk : k ∈ s.calls)
    (hhalf : k.portal = .half r)
    (hpast : Past s { s with
      requests := k.op.secondExit r s.requests
      calls := s.setPortal k.id (.finished r) }) :
    Lockstep { s with
      requests := k.op.secondExit r s.requests
      calls := s.setPortal k.id (.finished r) } := by
  have hgood : k.op.byOperator = true → k.confirmed := by
    intro hoperator
    exact ⟨r, by rw [hhalf]; rfl, ho.half k hk hoperator r hhalf⟩
  cases hop : k.op with
  | fill a =>
    rw [hop] at hpast
    exact hl.settledFill ho h hk hop hhalf hpast
  | forceDeliver a =>
    rw [hop] at hpast
    have := @Lockstep.settledForce s k r hl hk (by rw [hop]; rfl) .filled (Or.inl rfl)
      (fun _ => rfl)
    rw [hop] at this
    exact this hpast (Or.inr ⟨rfl, k, hk, by rw [hop]; rfl, by rw [hop], hgood (by rw [hop]; rfl)⟩)
  | refund a =>
    rw [hop] at hpast
    have := @Lockstep.settledForce s k r hl hk (by rw [hop]; rfl) .failed (Or.inr rfl)
      (fun ⟨b, hb⟩ => by rw [hop] at hb; cases hb)
    rw [hop] at this
    exact this hpast (Or.inl ⟨rfl, k, hk, ⟨a, hop⟩, by rw [hop], hgood (by rw [hop]; rfl)⟩)
  | list | buy | cancel | forceReturn =>
    rw [hop] at hpast
    exact hl.settledPlain hk (by rw [hop]; rfl) (fun a ha => by rw [hop] at ha; cases ha) hpast

end Settled

/-! ## A new call -/

section Sent

variable {s : Sys} {op : Op} {read : ListingStatus} {listings : Listings} {requests : Requests}

theorem Reserve.requests_eq (h : Reserve s op read listings requests) (hnofill : op.fill? = none) :
    requests = s.requests := by
  cases h with
  | fill => cases hnofill
  | list | buy | cancel | forceDeliver | forceReturn | refund => rfl

theorem Operated.untouched (ho : Operated s) (h : Inv s) (hres : Reserve s op read listings requests)
    {k : Call} (hk : k ∈ s.calls) (hfill : k.op.fill?.isSome) {m : Listing} (hm : m ∈ listings)
    (hid : m.listingId = k.op.listingId) : m ∈ s.listings :=
  h.untouched hres hk (fun l hl hlid => (ho.unlisted k hk hfill l hl hlid).2) hm hid

theorem Lockstep.sentPlain (hl : Lockstep s) (ho : Operated s) (h : Inv s) {calls : Calls}
    (hres : Reserve s op read listings requests) (hnofill : op.fill? = none)
    (hcalls : calls.rows = ⟨s.calls.next, op, read, .waiting, .sent⟩ :: s.calls.rows)
    (hpast : Past s { s with listings, requests, calls }) :
    Lockstep { s with listings, requests, calls } := by
  have hreq := hres.requests_eq hnofill
  have hold : ∀ c ∈ calls, c.op.fill?.isSome → c ∈ s.calls := by
    intro c hc hfill
    rcases (SerialTable.mem_of_rows hcalls).mp hc with rfl | hc
    · rw [show (⟨s.calls.next, op, read, .waiting, .sent⟩ : Call).op.fill? = none from hnofill]
        at hfill
      cases hfill
    · exact hc
  obtain ⟨hknown, hidle, hbusy⟩ := @Lockstep.requests_stay s { s with listings, requests, calls } hl
    hreq
    (fun c hc id hcf => ⟨c, hold c hc (Call.fill_of_fills hcf), rfl, hcf, fun hf => hf⟩)
    (fun c hc q _ hcf hp => ⟨c, (SerialTable.mem_of_rows hcalls).mpr (Or.inr hc), rfl, rfl,
      hp.past hpast rfl rfl (fun m hm hid =>
        Or.inl (ho.untouched h hres hc (Call.fill_of_fills hcf) hm hid))⟩)
  refine ⟨hknown, fun c hc hfill hfree m hm hid => ?_, hidle, hbusy,
    fun c hc hcop hfin q hq hqs => ?_⟩
  · have hc := hold c hc hfill
    exact hl.letGo c hc hfill hfree m (ho.untouched h hres hc hfill hm hid) hid
  · rcases (SerialTable.mem_of_rows hcalls).mp hc with rfl | hc
    · obtain ⟨x, hx, -⟩ := hfin
      cases hx
    · exact hl.through c hc hcop hfin q (hreq ▸ hq) hqs

theorem Lockstep.sentFill (hl : Lockstep s) (ho : Operated s) (h : Inv s) {calls : Calls}
    {a : FillArgs} (hres : Reserve s (.fill a) read listings requests)
    (hcalls : calls.rows = ⟨s.calls.next, .fill a, read, .waiting, .sent⟩ :: s.calls.rows)
    (hpast : Past s { s with listings, requests, calls }) :
    Lockstep { s with listings, requests, calls } := by
  have huntouched : ∀ c ∈ s.calls, c.op.fill?.isSome → ∀ m ∈ listings,
      m.listingId = c.op.listingId → m ∈ s.listings :=
    fun c hc hfill m hm hid => ho.untouched h hres hc hfill hm hid
  cases hres with
  | fill u f ctrl owned src row _ hrow hrid hactive hrows hnext =>
    have hmemc : ∀ c, c ∈ calls ↔ c = _ ∨ c ∈ s.calls := fun c => SerialTable.mem_of_rows hcalls
    have hrowfree := hl.idle row hrow (by rw [hactive]; rfl)
    -- the requests: the claimed row, and the others as they are
    have hmem : ∀ q ∈ karumRequestCas s.requests f.requestId .active .filling
        (.claim ⟨u.accountId, u.discordId, ctrl, f.itemId, s.listings.next, f.takeCorr, f.corr⟩),
        (q.status = .filling ∧ q.requestId = f.requestId ∧ q.settlement = some s.listings.next) ∨
          q ∈ s.requests ∧ q.requestId ≠ f.requestId := by
      intro q hq
      obtain ⟨p, hpm, rfl⟩ := mem_setWhere.mp hq
      split
      · rename_i hmatch
        rw [decide_eq_true_eq] at hmatch
        exact Or.inl ⟨rfl, hmatch.1, rfl⟩
      · rename_i hmatch
        rw [decide_eq_true_eq] at hmatch
        refine Or.inr ⟨hpm, fun hid => hmatch ⟨hid, ?_⟩⟩
        rw [SerialTable.eq_of_id_eq hpm hrow (hid.trans hrid.symm)]
        exact hactive
    have hothers : ∀ c ∈ calls, ∀ id, c.fills id → id ≠ f.requestId → c ∈ s.calls := by
      intro c hc id hcf hne
      rcases (hmemc c).mp hc with rfl | hc
      · obtain ⟨b, hb, hbid⟩ := hcf
        cases hb
        exact absurd hbid.symm hne
      · exact hc
    refine ⟨fun c hc id hcf => ?_, fun c hc hfill hfree m hm hid => ?_, fun q hq hqidle => ?_,
      fun q hq hqbusy => ?_, fun c hc hcop hfin q hq hqs => ?_⟩
    · by_cases hid : id = f.requestId
      · obtain ⟨q, hq, hqid⟩ := mem_of_setWhere hrow
        exact ⟨q, hq, hqid.trans (hrid.trans hid.symm)⟩
      · obtain ⟨p, hpm, hpid⟩ := hl.known c (hothers c hc id hcf hid) id hcf
        obtain ⟨q, hq, hqid⟩ := mem_of_setWhere hpm
        exact ⟨q, hq, hqid.trans hpid⟩
    · rcases (hmemc c).mp hc with rfl | hc
      · exact absurd hfree (not_free_of_waiting rfl)
      · exact hl.letGo c hc hfill hfree m (huntouched c hc hfill m hm hid) hid
    · rcases hmem q hq with ⟨hfilling, -⟩ | ⟨hq, hne⟩
      · rw [hfilling] at hqidle
        cases hqidle
      · obtain ⟨hnone, hfree⟩ := hl.idle q hq hqidle
        exact ⟨hnone, fun c hc hcf => hfree c (hothers c hc _ hcf hne) hcf⟩
    · rcases hmem q hq with ⟨hfilling, hqid, hsettle⟩ | ⟨hq, hne⟩
      · refine ⟨_, (hmemc _).mpr (Or.inl rfl), ⟨_, rfl, hqid.symm⟩, hsettle, fun c hc hcf => ?_,
          .filling, .selling, .waiting, fun m hm hid => ?_, Or.inl hfilling⟩
        · rcases (hmemc c).mp hc with rfl | hc
          · exact Or.inl rfl
          · refine Or.inr (hrowfree.2 c hc ?_)
            rw [hrid, ← hqid]
            exact hcf
        · rcases (SerialTable.mem_of_rows hrows).mp hm with rfl | hm
          · exact Or.inl rfl
          · have hlt := SerialTable.id_lt_next hm
            exact absurd hid (Nat.ne_of_lt hlt)
      · obtain ⟨k, hk, hfills, hsettle, hfree, hp⟩ := hl.busy q hq hqbusy
        refine ⟨k, (hmemc k).mpr (Or.inr hk), hfills, hsettle,
          fun c hc hcf => hfree c (hothers c hc _ hcf hne) hcf,
          hp.past hpast rfl rfl (fun m hm hid => Or.inl ?_)⟩
        exact huntouched k hk (Call.fill_of_fills hfills) m hm hid
    · rcases (hmemc c).mp hc with rfl | hc
      · obtain ⟨x, hx, -⟩ := hfin
        cases hx
      · rcases hmem q hq with ⟨-, -, hsettle⟩ | ⟨hq, -⟩
        · rw [hsettle] at hqs
          have hlt := h.listing_lt hc
          rw [← Option.some.inj hqs] at hlt
          exact absurd hlt (Nat.lt_irrefl _)
        · exact hl.through c hc hcop hfin q hq hqs

end Sent

/-! ## The steps of the buyer -/

theorem Lockstep.posted {s : Sys} (hl : Lockstep s) {w : Wanted} {requests : Requests}
    (hrows : requests.rows = w :: s.requests.rows) (hactive : w.status = .active)
    (hnone : w.filler = none) (hid : w.requestId = s.requests.next) :
    Lockstep { s with requests } := by
  have hmem : ∀ q, q ∈ requests ↔ q = w ∨ q ∈ s.requests := fun q => SerialTable.mem_of_rows hrows
  refine ⟨fun c hc id hcf => ?_, hl.letGo, fun q hq hqidle => ?_, fun q hq hqbusy => ?_,
    fun c hc hcop hfin q hq hqs => ?_⟩
  · obtain ⟨p, hpm, hpid⟩ := hl.known c hc id hcf
    exact ⟨p, (hmem p).mpr (Or.inr hpm), hpid⟩
  · rcases (hmem q).mp hq with rfl | hq
    · refine ⟨hnone, fun c hc hcf => ?_⟩
      obtain ⟨p, hpm, hpid⟩ := hl.known c hc _ hcf
      have := SerialTable.id_lt_next hpm
      omega
    · exact hl.idle q hq hqidle
  · rcases (hmem q).mp hq with rfl | hq
    · rw [hactive] at hqbusy
      cases hqbusy
    · exact hl.busy q hq hqbusy
  · rcases (hmem q).mp hq with rfl | hq
    · rw [Wanted.settlement, hnone] at hqs
      cases hqs
    · exact hl.through c hc hcop hfin q hq hqs

theorem Lockstep.withdrawn {s : Sys} (hl : Lockstep s) (id : Nat) :
    Lockstep { s with requests := karumRequestCas s.requests id .active .cancelled .keep } := by
  have hmem : ∀ q ∈ karumRequestCas s.requests id .active .cancelled .keep, ∃ p ∈ s.requests,
      p.requestId = q.requestId ∧ p.filler = q.filler ∧
        (q = p ∨ p.status = .active ∧ q.status = .cancelled) := by
    intro q hq
    obtain ⟨p, hpm, rfl⟩ := mem_setWhere.mp hq
    refine ⟨p, hpm, ?_⟩
    split
    · rename_i hmatch
      rw [decide_eq_true_eq] at hmatch
      exact ⟨rfl, rfl, Or.inr ⟨hmatch.2, rfl⟩⟩
    · exact ⟨rfl, rfl, Or.inl rfl⟩
  refine ⟨fun c hc id' hcf => ?_, hl.letGo, fun q hq hqidle => ?_, fun q hq hqbusy => ?_,
    fun c hc hcop hfin q hq hqs => ?_⟩
  · obtain ⟨p, hpm, hpid⟩ := hl.known c hc id' hcf
    obtain ⟨q, hq, hqid⟩ := mem_of_setWhere hpm
    exact ⟨q, hq, hqid.trans hpid⟩
  · obtain ⟨p, hpm, hpid, hfiller, hsame⟩ := hmem q hq
    have hpidle : p.status.isIdle = true := by
      rcases hsame with rfl | ⟨hactive, -⟩
      · exact hqidle
      · rw [hactive]
        rfl
    obtain ⟨hnone, hfree⟩ := hl.idle p hpm hpidle
    exact ⟨hfiller.symm.trans hnone, hpid ▸ hfree⟩
  · obtain ⟨p, hpm, -, -, rfl | ⟨-, hcancelled⟩⟩ := hmem q hq
    · exact hl.busy q hpm hqbusy
    · rw [hcancelled] at hqbusy
      cases hqbusy
  · obtain ⟨p, hpm, -, hfiller, rfl | ⟨hactive, -⟩⟩ := hmem q hq
    · exact hl.through c hc hcop hfin q hpm hqs
    · rw [Wanted.settlement, ← hfiller, (hl.idle p hpm (by rw [hactive]; rfl)).1] at hqs
      cases hqs

theorem Lockstep.step {proc : SolarisProc} {s s' : Sys} {act : Act} (hl : Lockstep s)
    (ho : Operated s) (h : Inv s) (hstep : Step proc s act s') : Lockstep s' := by
  have hpast := hstep.past
  cases hstep with
  | env => exact ⟨hl.known, hl.letGo, hl.idle, hl.busy, hl.through⟩
  | post u e f ctrl requests hrows => exact hl.posted hrows rfl rfl rfl
  | cancelRequest u id => exact hl.withdrawn id
  | sent _ op read listings requests calls hres hcalls =>
    cases op with
    | fill a => exact hl.sentFill ho h hres hcalls hpast
    | list | buy | cancel | forceDeliver | forceReturn | refund =>
      exact hl.sentPlain ho h hres rfl hcalls hpast
  | wrote k stage game hk hwrite => exact hl.wrote hk hpast
  | exited _ k r listings hk hact hwait hexit =>
    exact hl.exited ho h hk hwait (hact.imp And.right And.right) hexit hpast
  | aborted _ k r hk hact hwait hexit => exact hl.aborted ho h hk hwait hexit hpast
  | settled k r hk hhalf => exact hl.settled ho h hk hhalf hpast

end LastSietch.Karum
