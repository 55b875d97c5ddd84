import LastSietch.Lib.Runs
import LastSietch.Karum.Portal

/-!
# The Karum as a system

`step` interleaves the portal's handlers, the writer processes, the game server and lost
answers. A run is a list of actions: a handler sends a call (`list`, `buy`, `fill`,
`cancel`, `force`), the writer of a call takes its next step (`write`), the handler gets
the answer (`answer`) or gives up waiting for it (`lose`) and makes its first update, and
`settle` makes the second one where there is one. A call whose answer is lost may still
be written later. `env` is everything that others do: the game server, the other users of
the delivery log, and the writer's environment.

`step_spec` sorts the actions into four kinds (`Step`), which the invariants go by.
-/

namespace LastSietch.Karum

inductive Act
  | env (w : World) (log : DeliveryLog) (conf : Config)
  | post (u : Session) (e : Edge) (f : PostForm)
  | cancelRequest (u : Session) (requestId : Nat)
  | list (u : Session) (e : Edge) (f : ListForm)
  | buy (u : Session) (e : Edge) (f : BuyForm)
  | cancel (u : Session) (e : Edge) (f : CancelForm)
  | fill (u : Session) (e : Edge) (f : FillForm)
  | force (action : ForceAction) (listingId : Nat) (corr : Corr)
  | write (call : Nat)
  | answer (call : Nat)
  | lose (call : Nat)
  | settle (call : Nat)

def Act.byOperator : Act → Bool
  | .force _ _ _ => true
  | _ => false

def Op.byOperator : Op → Bool
  | .forceDeliver _ | .forceReturn _ | .refund _ => true
  | _ => false

def Sys.setPortal (s : Sys) (id : Nat) (stage : PortalStage) : Calls :=
  s.calls.update (fun k => k.id = id) (fun k => { k with portal := stage })

def Sys.setWriter (s : Sys) (id : Nat) (stage : WriterStage) : Calls :=
  s.calls.update (fun k => k.id = id) (fun k => { k with writer := stage })

/-- The handler of `k` goes on with the answer `r`; an exception ends it. -/
def Sys.exitWith (s : Sys) (k : Call) (r : Reply) : Sys :=
  match k.op.exit k.rowStatus r s.listings with
  | some (stage, listings) => { s with listings, calls := s.setPortal k.id stage }
  | none => { s with calls := s.setPortal k.id (.finished r) }

def step (proc : SolarisProc) (s : Sys) : Act → Option Sys
  | .env w log conf => some { s with game := { s.game with world := w, deliveryLog := log }, conf }
  | .post u e f => (portalKarumRequestPost u e f s).toOption
  | .cancelRequest u requestId => (portalKarumRequestCancel u requestId s).toOption
  | .list u e f => (portalKarumList u e f s).toOption
  | .buy u e f => (portalKarumBuy u e f s).toOption
  | .cancel u e f => (portalKarumCancel u e f s).toOption
  | .fill u e f => (portalKarumRequestFill u e f s).toOption
  | .force action listingId corr => (v2KarumForce action listingId corr s).toOption
  | .write c => do
    let k ← s.calls.get? c
    let (stage, game) ← writerStep? proc s.conf k.op k.writer s.game
    some { s with game, calls := s.setWriter c stage }
  | .answer c => do
    let k ← s.calls.get? c
    match k.portal, k.writer with
    | .waiting, .done r => some (s.exitWith k r)
    | _, _ => none
  | .lose c => do
    let k ← s.calls.get? c
    match k.portal with
    | .waiting => some (s.exitWith k .unknown)
    | _ => none
  | .settle c => do
    let k ← s.calls.get? c
    match k.portal with
    | .half r => some { s with
        requests := k.op.secondExit r s.requests
        calls := s.setPortal c (.finished r) }
    | _ => none

def Sys.init (w : World) (log : DeliveryLog) (conf : Config) : Sys :=
  ⟨GameDb.init w log, conf, SerialTable.empty, SerialTable.empty, SerialTable.empty⟩

/-- What a compare-and-set does: it moves the row `l`, or finds no row to move. -/
inductive Cas (t : Listings) (id : Nat) (expect target : ListingStatus) (cols : Columns) :
    Bool → Listings → Prop
  | lost (hnone : ∀ l ∈ t, l.listingId = id → l.status ≠ expect) :
      Cas t id expect target cols false t
  | won (t' : Listings) (l : Listing) (hl : l ∈ t) (hid : l.listingId = id)
      (hstatus : l.status = expect)
      (hmem : ∀ m, m ∈ t' ↔ m = l.set target cols ∨ m ∈ t ∧ m.listingId ≠ id)
      (hnext : t'.next = t.next) : Cas t id expect target cols true t'

theorem mem_update_listing {t : Listings} {l : Listing} {p : Listing → Bool}
    {f : Listing → Listing} {hid hkey : ∀ r : Listing, (f r).listingId = r.listingId} (hl : l ∈ t)
    (hp : ∀ r ∈ t, p r = true ↔ r.listingId = l.listingId) (m : Listing) :
    m ∈ t.update p f hid hkey ↔ m = f l ∨ m ∈ t ∧ m.listingId ≠ l.listingId := by
  refine Iff.trans SerialTable.mem_update ?_
  constructor
  · rintro ⟨r, hr, rfl⟩
    by_cases h : p r
    · rw [if_pos h, SerialTable.eq_of_id_eq hr hl ((hp r hr).mp h)]
      exact Or.inl rfl
    · rw [if_neg h]
      exact Or.inr ⟨hr, fun hk => h ((hp r hr).mpr hk)⟩
  · rintro (rfl | ⟨hm, hne⟩)
    · exact ⟨l, hl, (if_pos ((hp l hl).mpr rfl)).symm⟩
    · exact ⟨m, hm, (if_neg (fun h => hne ((hp m hm).mp h))).symm⟩

theorem karumCas_spec {t t' : Listings} {id : Nat} {expect target : ListingStatus}
    {cols : Columns} {won : Bool} (h : karumCas t id expect target cols = some (won, t')) :
    Cas t id expect target cols won t' := by
  unfold karumCas at h
  split at h
  · rename_i hnone
    cases h
    exact .lost (fun l hl hid => absurd hid (SerialTable.get?_eq_none.mp hnone l hl))
  · rename_i l hget
    obtain ⟨hl, hid⟩ := SerialTable.get?_eq_some.mp hget
    split at h
    · rename_i hne
      cases h
      refine .lost (fun l' hl' hid' => ?_)
      rw [SerialTable.eq_of_id_eq hl' hl (hid'.trans hid.symm)]
      exact hne
    · rename_i hstatus
      have hstatus : l.status = expect := Decidable.not_not.mp hstatus
      split at h
      · cases h
      · cases h
        refine .won _ l hl hid hstatus (fun m => ?_) rfl
        rw [← hid]
        refine mem_update_listing hl (fun r hr => ?_) m
        simp only [decide_eq_true_eq]
        refine ⟨fun hr' => hr'.1, fun hr' => ⟨hr', ?_⟩⟩
        rw [SerialTable.eq_of_id_eq hr hl hr']
        exact hstatus

/-! ## The kinds of steps -/

inductive Reserve (s : Sys) : Op → ListingStatus → Listings → Requests → Prop
  | list (u : Session) (f : ListForm) (ctrl : Nat) (owned : Owned) (src : TakeSource)
      (listings : Listings)
      (hrows : listings.rows = pendingListing u f ctrl owned s.listings.next :: s.listings.rows)
      (hnext : listings.next = s.listings.next + 1) :
      Reserve s (.list ⟨f.corr, s.listings.next, u.accountId, f.itemId, owned.templateId, src⟩)
        .pending listings s.requests
  | buy (u : Session) (f : BuyForm) (ctrl : Nat) (row : Listing) (listings : Listings)
      (hrow : row ∈ s.listings) (hid : row.listingId = f.listingId)
      (hactive : row.status = .active)
      (hmem : ∀ m, m ∈ listings ↔
        m = row.set .selling (.buyer (some ⟨u.accountId, u.discordId, ctrl, f.corr⟩)) ∨
          m ∈ s.listings ∧ m.listingId ≠ f.listingId)
      (hnext : listings.next = s.listings.next) :
      Reserve s (.buy ⟨f.corr, f.listingId, u.accountId, row.sellerAccountId, row.price⟩)
        .active listings s.requests
  | cancel (f : CancelForm) (row : Listing) (listings : Listings)
      (hrow : row ∈ s.listings) (hid : row.listingId = f.listingId)
      (hactive : row.status = .active)
      (hmem : ∀ m, m ∈ listings ↔
        m = row.set .returning .keep ∨ m ∈ s.listings ∧ m.listingId ≠ f.listingId)
      (hnext : listings.next = s.listings.next) :
      Reserve s (.cancel ⟨f.corr, f.listingId, row.sellerAccountId, row.price⟩)
        .active listings s.requests
  | fill (u : Session) (f : FillForm) (ctrl : Nat) (owned : Owned) (src : TakeSource)
      (row : Wanted) (listings : Listings)
      (hrow : row ∈ s.requests) (hid : row.requestId = f.requestId)
      (hactive : row.status = .active)
      (hrows : listings.rows = settlementListing row u ctrl owned f s.listings.next ::
        s.listings.rows)
      (hnext : listings.next = s.listings.next + 1) :
      Reserve s (.fill ⟨f.corr, f.takeCorr, f.requestId, s.listings.next, row.requesterAccountId,
          row.requesterCtrl, u.accountId, ctrl, f.itemId, row.templateId, row.stackSize,
          row.price, src, row.qualityLevel, row.qualityMode⟩) .selling listings
        (karumRequestCas s.requests f.requestId .active .filling (.claim ⟨u.accountId,
          u.discordId, ctrl, f.itemId, s.listings.next, f.takeCorr, f.corr⟩))
  | forceDeliver (corr : Corr) (row : Listing) (b : Buyer) (hrow : row ∈ s.listings)
      (hbuyer : row.buyer = some b) :
      Reserve s (.forceDeliver ⟨corr, row.listingId, b.accountId, row.price⟩) row.status
        s.listings s.requests
  | forceReturn (corr : Corr) (row : Listing) (hrow : row ∈ s.listings) :
      Reserve s (.forceReturn ⟨corr, row.listingId, row.sellerAccountId, row.price⟩) row.status
        s.listings s.requests
  | refund (corr : Corr) (row : Listing) (b : Buyer) (hrow : row ∈ s.listings)
      (hbuyer : row.buyer = some b) :
      Reserve s (.refund ⟨corr, row.listingId, b.accountId, row.sellerAccountId, row.price,
        b.soldCorrId⟩) row.status s.listings s.requests

inductive Exit (op : Op) (read : ListingStatus) (r : Reply) (t : Listings) : Listings → Prop
  | cas (expect target : ListingStatus) (cols : Columns) (won : Bool) (t' : Listings)
      (hexit : op.exitCas r = some (expect, target, cols))
      (hcas : Cas t op.listingId expect target cols won t') : Exit op read r t t'
  | force (target : ListingStatus) (hexit : op.exitCas r = none)
      (hforce : op.forced r = some target) :
      Exit op read r t (forceListing t op.listingId read target)
  | stay (hexit : op.exitCas r = none) (hforce : op.forced r = none) : Exit op read r t t

theorem Op.exit_spec {op : Op} {read : ListingStatus} {r : Reply} {t t' : Listings}
    {stage : PortalStage} (h : op.exit read r t = some (stage, t')) :
    stage = op.exitStage r ∧ Exit op read r t t' := by
  unfold Op.exit at h
  split at h
  · rename_i expect target cols hexit
    obtain ⟨⟨won, t''⟩, hcas, heq⟩ := Option.map_eq_some_iff.mp h
    cases heq
    exact ⟨rfl, .cas expect target cols won _ hexit (karumCas_spec hcas)⟩
  · rename_i hexit
    split at h
    · rename_i target hforce
      cases h
      exact ⟨rfl, .force target hexit hforce⟩
    · rename_i hforce
      cases h
      exact ⟨rfl, .stay hexit hforce⟩

inductive Step (proc : SolarisProc) (s : Sys) : Act → Sys → Prop
  | env (w : World) (log : DeliveryLog) (conf : Config) :
      Step proc s (.env w log conf)
        { s with game := { s.game with world := w, deliveryLog := log }, conf }
  | post (u : Session) (e : Edge) (f : PostForm) (ctrl : Nat) (requests : Requests)
      (hrows : requests.rows = postedRequest u f ctrl s.requests.next :: s.requests.rows)
      (hnext : requests.next = s.requests.next + 1) :
      Step proc s (.post u e f) { s with requests }
  | cancelRequest (u : Session) (id : Nat) :
      Step proc s (.cancelRequest u id)
        { s with requests := karumRequestCas s.requests id .active .cancelled .keep }
  | sent (act : Act) (op : Op) (rowStatus : ListingStatus) (listings : Listings)
      (requests : Requests) (calls : Calls) (hres : Reserve s op rowStatus listings requests)
      (hcalls : calls.rows = ⟨s.calls.next, op, rowStatus, .waiting, .sent⟩ :: s.calls.rows)
      (hact : op.byOperator = act.byOperator) :
      Step proc s act { s with listings, requests, calls }
  | wrote (k : Call) (stage : WriterStage) (game : GameDb) (hk : k ∈ s.calls)
      (hwrite : WriterStep proc s.conf k.op s.game k.writer stage game) :
      Step proc s (.write k.id) { s with game, calls := s.setWriter k.id stage }
  | exited (act : Act) (k : Call) (r : Reply) (listings : Listings) (hk : k ∈ s.calls)
      (hact : act = .answer k.id ∧ k.writer = .done r ∨ act = .lose k.id ∧ r = .unknown)
      (hwait : k.portal = .waiting) (hexit : Exit k.op k.rowStatus r s.listings listings) :
      Step proc s act { s with listings, calls := s.setPortal k.id (k.op.exitStage r) }
  | aborted (act : Act) (k : Call) (r : Reply) (hk : k ∈ s.calls)
      (hact : act = .answer k.id ∧ k.writer = .done r ∨ act = .lose k.id ∧ r = .unknown)
      (hwait : k.portal = .waiting) (hexit : k.op.exit k.rowStatus r s.listings = none) :
      Step proc s act { s with calls := s.setPortal k.id (.finished r) }
  | settled (k : Call) (r : Reply) (hk : k ∈ s.calls) (hhalf : k.portal = .half r) :
      Step proc s (.settle k.id) { s with
        requests := k.op.secondExit r s.requests
        calls := s.setPortal k.id (.finished r) }

theorem send_spec {s s' : Sys} {op : Op} {rowStatus : ListingStatus}
    (h : s.send op rowStatus = some s') :
    ∃ calls, calls.rows = ⟨s.calls.next, op, rowStatus, .waiting, .sent⟩ :: s.calls.rows ∧
      s' = { s with calls } := by
  obtain ⟨calls, hcalls, rfl⟩ := Option.map_eq_some_iff.mp h
  exact ⟨calls, (SerialTable.rows_insert? hcalls).1, rfl⟩

theorem find_request {t : Requests} {id : Nat} {r : Wanted}
    (h : t.rows.find? (fun r => r.requestId = id) = some r) : r ∈ t ∧ r.requestId = id :=
  ⟨List.mem_of_find?_eq_some h, by simpa using List.find?_some h⟩

section Handlers

variable {proc : SolarisProc} {s s' : Sys} {u : Session} {e : Edge}

theorem portalKarumList_spec {f : ListForm} (h : portalKarumList u e f s = .ok s') :
    Step proc s (.list u e f) s' := by
  simp only [portalKarumList, bind_eq_ok, require_eq_ok, orRaise_eq_ok] at h
  obtain ⟨_, -, _, -, _, -, _, -, _, -, _, -, ctrl, -, src, -, owned, -, _, -, _, -, _, -, _, -,
    listings, hins, hsend⟩ := h
  obtain ⟨calls, hcalls, rfl⟩ := send_spec hsend
  obtain ⟨hrows, hnext⟩ := SerialTable.rows_insert? hins
  exact .sent _ _ _ listings s.requests calls (.list u f ctrl owned src listings hrows hnext)
    hcalls rfl

theorem portalKarumBuy_spec {f : BuyForm} (h : portalKarumBuy u e f s = .ok s') :
    Step proc s (.buy u e f) s' := by
  simp only [portalKarumBuy, bind_eq_ok, require_eq_ok, orRaise_eq_ok] at h
  obtain ⟨row, hrow, _, hactive, _, -, _, -, _, -, _, -, _, -, ctrl, -, _, -, ⟨won, listings⟩,
    hcas, _, hwon, hsend⟩ := h
  obtain ⟨hmem, hid⟩ := SerialTable.get?_eq_some.mp hrow
  obtain ⟨calls, hcalls, rfl⟩ := send_spec hsend
  subst hwon
  cases karumCas_spec hcas with
  | won _ l hl hlid hstatus hlistings hnext =>
    rw [SerialTable.eq_of_id_eq hl hmem (hlid.trans hid.symm)] at hlistings
    rw [hactive] at hcalls
    exact .sent _ _ _ listings s.requests calls
      (.buy u f ctrl row listings hmem hid hactive hlistings hnext) hcalls rfl

theorem portalKarumCancel_spec {f : CancelForm} (h : portalKarumCancel u e f s = .ok s') :
    Step proc s (.cancel u e f) s' := by
  simp only [portalKarumCancel, bind_eq_ok, require_eq_ok, orRaise_eq_ok] at h
  obtain ⟨row, hrow, _, hseller, _, hactive, _, -, ⟨won, listings⟩, hcas, _, hwon, hsend⟩ := h
  obtain ⟨hmem, hid⟩ := SerialTable.get?_eq_some.mp hrow
  obtain ⟨calls, hcalls, rfl⟩ := send_spec hsend
  subst hwon
  cases karumCas_spec hcas with
  | won _ l hl hlid hstatus hlistings hnext =>
    rw [SerialTable.eq_of_id_eq hl hmem (hlid.trans hid.symm)] at hlistings
    rw [hactive, ← hseller] at hcalls
    exact .sent _ _ _ listings s.requests calls
      (.cancel f row listings hmem hid hactive hlistings hnext) hcalls rfl

theorem portalKarumRequestPost_spec {f : PostForm}
    (h : portalKarumRequestPost u e f s = .ok s') : Step proc s (.post u e f) s' := by
  simp only [portalKarumRequestPost, bind_eq_ok, require_eq_ok, orRaise_eq_ok] at h
  obtain ⟨_, -, _, -, _, -, _, -, _, -, _, -, ctrl, -, requests, hins, h⟩ := h
  cases h
  obtain ⟨hrows, hnext⟩ := SerialTable.rows_insert? hins
  exact .post u e f ctrl requests hrows hnext

theorem portalKarumRequestCancel_spec {id : Nat}
    (h : portalKarumRequestCancel u id s = .ok s') : Step proc s (.cancelRequest u id) s' := by
  simp only [portalKarumRequestCancel, bind_eq_ok, require_eq_ok, orRaise_eq_ok] at h
  obtain ⟨row, -, _, -, _, -, h⟩ := h
  cases h
  exact .cancelRequest u id

theorem portalKarumRequestFill_spec {f : FillForm}
    (h : portalKarumRequestFill u e f s = .ok s') : Step proc s (.fill u e f) s' := by
  simp only [portalKarumRequestFill, bind_eq_ok, require_eq_ok, orRaise_eq_ok] at h
  obtain ⟨_, -, _, -, row, hrow, _, hactive, _, -, _, -, _, -, _, -, _, -, _, -, ctrl, -, src, -,
    owned, -, _, -, _, -, _, -, _, -, _, -, s₁, hclaim, hsend⟩ := h
  obtain ⟨hmem, hid⟩ := find_request hrow
  simp only [karumClaimRequest, bind_eq_ok, require_eq_ok, orRaise_eq_ok] at hclaim
  obtain ⟨current, -, _, -, listings, hins, _, -, hclaim⟩ := hclaim
  cases hclaim
  obtain ⟨calls, hcalls, rfl⟩ := send_spec hsend
  obtain ⟨hrows, hnext⟩ := SerialTable.rows_insert? hins
  rw [hid]
  exact .sent _ _ _ listings _ calls
    (.fill u f ctrl owned src row listings hmem hid hactive hrows hnext) hcalls rfl

theorem v2KarumForce_spec {action : ForceAction} {listingId : Nat} {corr : Corr}
    (h : v2KarumForce action listingId corr s = .ok s') :
    Step proc s (.force action listingId corr) s' := by
  simp only [v2KarumForce, bind_eq_ok, require_eq_ok, orRaise_eq_ok] at h
  obtain ⟨_, -, row, hrow, op, hop, hsend⟩ := h
  obtain ⟨hmem, rfl⟩ := SerialTable.get?_eq_some.mp hrow
  obtain ⟨calls, hcalls, rfl⟩ := send_spec hsend
  cases action with
  | refund =>
    obtain ⟨b, hb, rfl⟩ := map_eq_ok.mp hop
    exact .sent _ _ row.status s.listings s.requests calls
      (.refund corr row b hmem (orRaise_eq_ok.mp hb)) hcalls rfl
  | forceDeliver =>
    obtain ⟨b, hb, rfl⟩ := map_eq_ok.mp hop
    exact .sent _ _ row.status s.listings s.requests calls
      (.forceDeliver corr row b hmem (orRaise_eq_ok.mp hb)) hcalls rfl
  | forceReturn =>
    cases hop
    exact .sent _ _ row.status s.listings s.requests calls (.forceReturn corr row hmem) hcalls rfl

theorem exitWith_spec {k : Call} {r : Reply} {act : Act} (hk : k ∈ s.calls)
    (hact : act = .answer k.id ∧ k.writer = .done r ∨ act = .lose k.id ∧ r = .unknown)
    (hwait : k.portal = .waiting) : Step proc s act (s.exitWith k r) := by
  unfold Sys.exitWith
  split
  · rename_i stage listings hexit
    obtain ⟨rfl, hspec⟩ := Op.exit_spec hexit
    exact .exited act k r listings hk hact hwait hspec
  · rename_i hexit
    exact .aborted act k r hk hact hwait hexit

end Handlers

theorem step_spec {proc : SolarisProc} {s s' : Sys} {act : Act} (h : step proc s act = some s') :
    Step proc s act s' := by
  cases act with
  | env w log conf =>
    cases h
    exact .env w log conf
  | post u e f => exact portalKarumRequestPost_spec (toOption_eq_some.mp h)
  | cancelRequest u id => exact portalKarumRequestCancel_spec (toOption_eq_some.mp h)
  | list u e f => exact portalKarumList_spec (toOption_eq_some.mp h)
  | buy u e f => exact portalKarumBuy_spec (toOption_eq_some.mp h)
  | cancel u e f => exact portalKarumCancel_spec (toOption_eq_some.mp h)
  | fill u e f => exact portalKarumRequestFill_spec (toOption_eq_some.mp h)
  | force action listingId corr => exact v2KarumForce_spec (toOption_eq_some.mp h)
  | write c =>
    obtain ⟨k, hget, hrest⟩ := Option.bind_eq_some_iff.mp h
    obtain ⟨⟨stage, game⟩, hwrite, hs⟩ := Option.bind_eq_some_iff.mp hrest
    obtain ⟨hk, rfl⟩ := SerialTable.get?_eq_some.mp hget
    cases hs
    exact .wrote k stage game hk (writerStep?_spec hwrite)
  | answer c =>
    obtain ⟨k, hget, hrest⟩ := Option.bind_eq_some_iff.mp h
    obtain ⟨hk, hid⟩ := SerialTable.get?_eq_some.mp hget
    split at hrest
    · rename_i r hportal hwriter
      cases hrest
      exact exitWith_spec hk (Or.inl ⟨hid ▸ rfl, hwriter⟩) hportal
    · cases hrest
  | lose c =>
    obtain ⟨k, hget, hrest⟩ := Option.bind_eq_some_iff.mp h
    obtain ⟨hk, hid⟩ := SerialTable.get?_eq_some.mp hget
    split at hrest
    · rename_i hportal
      cases hrest
      exact exitWith_spec hk (Or.inr ⟨hid ▸ rfl, rfl⟩) hportal
    · cases hrest
  | settle c =>
    obtain ⟨k, hget, hrest⟩ := Option.bind_eq_some_iff.mp h
    obtain ⟨hk, rfl⟩ := SerialTable.get?_eq_some.mp hget
    split at hrest
    · rename_i r hportal
      cases hrest
      exact .settled k r hk hportal
    · cases hrest

def sampleSys : Sys := Sys.init sampleWorld SerialTable.empty ⟨true, true, true⟩

def sampleSession (acct : Nat) : Session := ⟨acct, some acct⟩

def sampleEdge (acct : Nat) (template : String) : Edge :=
  { wtbEnabled := true, online := none, rateOk := true, recentEvents := 0,
    ctrl := some (10 + acct), bankSolari := none, src := some .bank,
    owned := some ⟨template, 5, some 0, true⟩, noCategory := false }

def listAct (item : Nat) (template : String) (uuid : Nat) : Act :=
  .list (sampleSession 2) (sampleEdge 2 template) ⟨item, 100, none, ⟨uuid, 0⟩⟩

def buyAct (listing uuid : Nat) : Act :=
  .buy (sampleSession 1) (sampleEdge 1 "") ⟨listing, 100, ⟨uuid, 0⟩⟩

end LastSietch.Karum
