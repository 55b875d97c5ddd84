import LastSietch.Karum.Process

/-!
# The portal's side of the Karum

The two tables of the portal, `portal_karum_listings` and `portal_karum_requests`, the
compare-and-set updates on them, and the route handlers. A handler runs in two parts: up
to the relay call (`portalKarumList`, `portalKarumBuy`, `portalKarumCancel`,
`portalKarumRequestFill`, `v2KarumForce`), where it checks, reserves a row and sends an
`Op`, and after the answer (`Op.exit`, `Op.secondExit`), where it settles the row. The
two updates that close a fill, and those of an operator action, are separate commits.

The four columns `buyer_account_id`, `buyer_discord_id`, `buyer_ctrl` and `sold_corr_id`
are always set and cleared together and stand here as one `Buyer`; so do the columns that
a fill sets on a request (`Filler`).
-/

namespace LastSietch.Karum

/-! ## The tables -/

inductive ListingStatus
  | pending | active | selling | reconciling | sold | returning | cancelled | paidUndelivered
  | failed
  deriving DecidableEq, Repr

/-- The condition of the index `idx_pkl_one_live_item`. -/
def ListingStatus.isLive : ListingStatus → Bool
  | .active | .selling | .reconciling | .returning | .paidUndelivered => true
  | _ => false

structure Buyer where
  accountId : Nat
  discordId : Option Nat
  ctrl : Nat
  soldCorrId : Corr
  deriving DecidableEq, Repr

/-- A row of `portal_karum_listings`. -/
structure Listing where
  listingId : Nat
  sellerAccountId : Nat
  sellerDiscordId : Option Nat
  sellerCtrl : Nat
  templateId : String
  stackSize : Nat
  qualityLevel : Int
  price : Nat
  escrowItemId : Option Nat
  escrowCorrId : Corr
  buyer : Option Buyer
  status : ListingStatus
  deriving DecidableEq, Repr

inductive RequestStatus
  | active | filling | reconciling | paidUndelivered | filled | cancelled | failed
  deriving DecidableEq, Repr

structure Filler where
  accountId : Nat
  discordId : Option Nat
  ctrl : Nat
  itemId : Nat
  settlementListingId : Nat
  takeCorrId : Corr
  fillCorrId : Corr
  deriving DecidableEq, Repr

/-- A row of `portal_karum_requests`. -/
structure Wanted where
  requestId : Nat
  requesterAccountId : Nat
  requesterDiscordId : Option Nat
  requesterCtrl : Nat
  templateId : String
  stackSize : Nat
  price : Nat
  postCorrId : Corr
  qualityLevel : Option Int
  qualityMode : QualityMode
  filler : Option Filler
  status : RequestStatus
  deriving DecidableEq, Repr

abbrev Listings := SerialTable Listing (·.listingId) (·.listingId)
abbrev Requests := SerialTable Wanted (·.requestId) (·.postCorrId)

/-! ## Compare and set -/

inductive Columns
  | keep
  | buyer (b : Option Buyer)
  | escrowItem (id : Nat)
  deriving DecidableEq, Repr

def Listing.set (l : Listing) (target : ListingStatus) : Columns → Listing
  | .keep => { l with status := target }
  | .buyer b => { l with status := target, buyer := b }
  | .escrowItem id => { l with status := target, escrowItemId := some id }

theorem Listing.listingId_set (l : Listing) (target : ListingStatus) (cols : Columns) :
    (l.set target cols).listingId = l.listingId := by
  cases cols <;> rfl

/-- The unique index refuses the row `l`: another live row has its item. -/
def Listings.clashes (t : Listings) (l : Listing) : Bool :=
  l.status.isLive && l.escrowItemId.isSome && t.rows.any (fun r =>
    r.listingId ≠ l.listingId ∧ r.status.isLive ∧ r.escrowItemId = l.escrowItemId)

/-- `_karum_cas`: was the transition made, and the table. `none` is the exception that
the unique index raises. -/
def karumCas (t : Listings) (id : Nat) (expect target : ListingStatus) (cols : Columns) :
    Option (Bool × Listings) :=
  match t.get? id with
  | none => some (false, t)
  | some l =>
    if l.status ≠ expect then some (false, t)
    else if t.clashes (l.set target cols) then none
    else some (true, t.update (fun r => r.listingId = id ∧ r.status = expect) (·.set target cols)
      (fun r => r.listingId_set target cols) (fun r => r.listingId_set target cols))

/-- The update of a request: `clear_fill`, or the columns of a claim, or neither. -/
inductive FillColumns
  | keep
  | clear
  | claim (f : Filler)
  deriving DecidableEq, Repr

def Wanted.set (r : Wanted) (target : RequestStatus) : FillColumns → Wanted
  | .keep => { r with status := target }
  | .clear => { r with status := target, filler := none }
  | .claim f => { r with status := target, filler := some f }

theorem Wanted.requestId_set (r : Wanted) (target : RequestStatus) (cols : FillColumns) :
    (r.set target cols).requestId = r.requestId := by
  cases cols <;> rfl

theorem Wanted.postCorrId_set (r : Wanted) (target : RequestStatus) (cols : FillColumns) :
    (r.set target cols).postCorrId = r.postCorrId := by
  cases cols <;> rfl

/-- `UPDATE ... WHERE p`, on requests. -/
def Requests.setWhere (t : Requests) (p : Wanted → Bool) (target : RequestStatus)
    (cols : FillColumns) : Requests :=
  t.update p (·.set target cols) (fun r => r.requestId_set target cols) (fun r => r.postCorrId_set target cols)

def karumRequestCas (t : Requests) (id : Nat) (expect target : RequestStatus) (cols : FillColumns) :
    Requests :=
  t.setWhere (fun r => r.requestId = id ∧ r.status = expect) target cols

inductive PortalStage
  | waiting
  | half (r : Reply)
  | finished (r : Reply)
  deriving DecidableEq, Repr

/-- A relay call: what was sent, the status of the listing row that the handler had read,
and where its two ends stand. -/
structure Call where
  id : Nat
  op : Op
  rowStatus : ListingStatus
  portal : PortalStage
  writer : WriterStage
  deriving DecidableEq, Repr

abbrev Calls := SerialTable Call (·.id) (·.id)

structure Sys where
  game : GameDb
  conf : Config
  listings : Listings
  requests : Requests
  calls : Calls

def Sys.send (s : Sys) (op : Op) (rowStatus : ListingStatus) : Option Sys :=
  (s.calls.insert? (fun id => ⟨id, op, rowStatus, .waiting, .sent⟩)).map
    (fun calls => { s with calls })

/-! ## The handlers up to the relay call -/

inductive EdgeError
  | deferred | badRequest | badPrice | playerOnline | rateLimited | unavailable | noBank
  | itemNotFound | notTradeable | noCategory | listingGone | selfTrade | insufficientFunds
  | requestGone | quantityMismatch | gradeMismatch | notFound | noPayment | noBuyer | integrity
  deriving DecidableEq, Repr

structure Session where
  accountId : Nat
  discordId : Option Nat
  deriving DecidableEq, Repr

structure Owned where
  templateId : String
  stackSize : Nat
  quality : Option Int
  tradeable : Bool
  deriving DecidableEq, Repr

structure Edge where
  wtbEnabled : Bool
  online : Option Bool
  rateOk : Bool
  recentEvents : Nat
  ctrl : Option Nat
  bankSolari : Option Int
  src : Option TakeSource
  owned : Option Owned
  noCategory : Bool
  deriving DecidableEq, Repr

/-- The body of a listing request. `corr` is the client's uuid, or a fresh one when the
client has sent none that is well formed. -/
structure ListForm where
  itemId : Nat
  price : Nat
  expectedTemplate : Option String
  corr : Corr
  deriving DecidableEq, Repr

def pendingListing (u : Session) (f : ListForm) (ctrl : Nat) (owned : Owned) (id : Nat) :
    Listing :=
  { listingId := id, sellerAccountId := u.accountId, sellerDiscordId := u.discordId,
    sellerCtrl := ctrl, templateId := owned.templateId, stackSize := owned.stackSize,
    qualityLevel := owned.quality.getD 0, price := f.price, escrowItemId := none,
    escrowCorrId := f.corr, buyer := none, status := .pending }

def portalKarumList (u : Session) (e : Edge) (f : ListForm) (s : Sys) :
    Except EdgeError Sys := do
  require (0 < f.itemId ∧ 0 < f.price) .badRequest
  require (f.price ≤ maxPrice) .badPrice
  require (∀ t ∈ f.expectedTemplate, isTemplate t) .badRequest
  -- an undetermined status falls through to the writer
  require (e.online ≠ some true) .playerOnline
  require e.rateOk .rateLimited
  require (e.recentEvents < maxListingsPerDay) .rateLimited
  let ctrl ← orRaise e.ctrl .unavailable
  let src ← orRaise e.src .noBank
  let owned ← orRaise e.owned .itemNotFound
  require (∀ t ∈ f.expectedTemplate, owned.templateId = t) .itemNotFound
  require owned.tradeable .notTradeable
  require (isTemplate owned.templateId) .itemNotFound
  require (!e.noCategory) .noCategory
  let listings ← orRaise (s.listings.insert? (pendingListing u f ctrl owned)) .integrity
  orRaise ({ s with listings }.send (.list ⟨f.corr, s.listings.next, u.accountId, f.itemId,
    owned.templateId, src⟩) .pending) .integrity

structure BuyForm where
  listingId : Nat
  expectedPrice : Nat
  corr : Corr
  deriving DecidableEq, Repr

def sameTrader (a b : Option Nat) : Bool :=
  match a, b with
  | some x, some y => x == y
  | _, _ => true

/-- The seller and the price of a listing never change, so reading the row and winning
the compare-and-set are one step here. -/
def portalKarumBuy (u : Session) (e : Edge) (f : BuyForm) (s : Sys) : Except EdgeError Sys := do
  let row ← orRaise (s.listings.get? f.listingId) .listingGone
  require (row.status = .active) .listingGone
  require (row.price = f.expectedPrice) .listingGone
  require (row.sellerAccountId ≠ u.accountId) .selfTrade
  require (!sameTrader u.discordId row.sellerDiscordId) .selfTrade
  require e.rateOk .rateLimited
  require (e.recentEvents < maxPairPerDay) .rateLimited
  let ctrl ← orRaise e.ctrl .unavailable
  require (∀ b ∈ e.bankSolari, (row.price : Int) ≤ b) .insufficientFunds
  let (won, listings) ← orRaise (karumCas s.listings f.listingId .active .selling
    (.buyer (some ⟨u.accountId, u.discordId, ctrl, f.corr⟩))) .integrity
  require won .listingGone
  orRaise ({ s with listings }.send (.buy ⟨f.corr, f.listingId, u.accountId,
    row.sellerAccountId, row.price⟩) row.status) .integrity

structure CancelForm where
  listingId : Nat
  corr : Corr
  deriving DecidableEq, Repr

def portalKarumCancel (u : Session) (e : Edge) (f : CancelForm) (s : Sys) :
    Except EdgeError Sys := do
  let row ← orRaise (s.listings.get? f.listingId) .listingGone
  require (row.sellerAccountId = u.accountId) .listingGone
  require (row.status = .active) .listingGone
  require e.rateOk .rateLimited
  let (won, listings) ← orRaise (karumCas s.listings f.listingId .active .returning .keep)
    .integrity
  require won .listingGone
  orRaise ({ s with listings }.send (.cancel ⟨f.corr, f.listingId, u.accountId, row.price⟩)
    row.status) .integrity

structure PostForm where
  templateId : String
  stackSize : Nat
  price : Nat
  quality : Option (Int × QualityMode)
  corr : Corr
  deriving DecidableEq, Repr

def postedRequest (u : Session) (f : PostForm) (ctrl id : Nat) : Wanted :=
  { requestId := id, requesterAccountId := u.accountId, requesterDiscordId := u.discordId,
    requesterCtrl := ctrl, templateId := f.templateId, stackSize := f.stackSize,
    price := f.price, postCorrId := f.corr, qualityLevel := f.quality.map (·.1),
    qualityMode := (f.quality.map (·.2)).getD .exact, filler := none, status := .active }

def portalKarumRequestPost (u : Session) (e : Edge) (f : PostForm) (s : Sys) :
    Except EdgeError Sys := do
  require e.wtbEnabled .deferred
  require (isTemplate f.templateId ∧ 0 < f.stackSize ∧ 0 < f.price) .badRequest
  require (f.price ≤ maxPrice) .badPrice
  require (∀ q ∈ f.quality, 0 ≤ q.1 ∧ q.1 ≤ 5) .badRequest
  require (!e.noCategory) .noCategory
  require (e.recentEvents < maxListingsPerDay) .rateLimited
  let ctrl ← orRaise e.ctrl .unavailable
  let requests ← orRaise (s.requests.insert? (postedRequest u f ctrl)) .badRequest
  .ok { s with requests }

structure FillForm where
  requestId : Nat
  itemId : Nat
  expectedPrice : Nat
  expectedTemplate : String
  corr : Corr
  /-- `uuid5` of the request and `corr` -/
  takeCorr : Corr
  deriving DecidableEq, Repr

def settlementListing (row : Wanted) (u : Session) (ctrl : Nat) (owned : Owned)
    (f : FillForm) (id : Nat) : Listing :=
  { listingId := id, sellerAccountId := u.accountId, sellerDiscordId := u.discordId,
    sellerCtrl := ctrl, templateId := row.templateId, stackSize := row.stackSize,
    qualityLevel := owned.quality.getD 0, price := row.price, escrowItemId := none,
    escrowCorrId := f.takeCorr,
    buyer := some ⟨row.requesterAccountId, row.requesterDiscordId, row.requesterCtrl, f.corr⟩,
    status := .selling }

/-- The `UNIQUE` columns of a claim: is one of its two correlation ids taken? -/
def Requests.corrTaken (t : Requests) (f : Filler) : Bool :=
  t.rows.any (fun r => match r.filler with
    | some g => g.takeCorrId = f.takeCorrId ∨ g.fillCorrId = f.fillCorrId ∨
        g.settlementListingId = f.settlementListingId
    | none => false)

/-- `_karum_claim_request`: one transaction that inserts the settlement listing and moves
the request from `active` to `filling`. -/
def karumClaimRequest (row : Wanted) (u : Session) (ctrl : Nat) (owned : Owned) (f : FillForm)
    (s : Sys) : Except EdgeError Sys := do
  let current ← orRaise (s.requests.rows.find? (fun r => r.requestId = row.requestId)) .requestGone
  require (current.status = .active) .requestGone
  let listings ← orRaise (s.listings.insert? (settlementListing row u ctrl owned f)) .integrity
  let filler : Filler := ⟨u.accountId, u.discordId, ctrl, f.itemId, s.listings.next, f.takeCorr,
    f.corr⟩
  require (!s.requests.corrTaken filler) .integrity
  .ok { s with
    listings
    requests := karumRequestCas s.requests row.requestId .active .filling (.claim filler) }

def portalKarumRequestFill (u : Session) (e : Edge) (f : FillForm) (s : Sys) :
    Except EdgeError Sys := do
  require e.wtbEnabled .deferred
  require (0 < f.itemId ∧ 0 < f.expectedPrice ∧ isTemplate f.expectedTemplate) .badRequest
  let row ← orRaise (s.requests.rows.find? (fun r => r.requestId = f.requestId)) .requestGone
  require (row.status = .active) .requestGone
  require (row.price = f.expectedPrice ∧ row.templateId = f.expectedTemplate) .requestGone
  require (row.requesterAccountId ≠ u.accountId) .selfTrade
  require (!sameTrader u.discordId row.requesterDiscordId) .selfTrade
  require (e.online ≠ some true) .playerOnline
  require e.rateOk .rateLimited
  require (e.recentEvents < maxListingsPerDay) .rateLimited
  let ctrl ← orRaise e.ctrl .unavailable
  let src ← orRaise e.src .noBank
  let owned ← orRaise e.owned .itemNotFound
  require (owned.templateId = row.templateId) .itemNotFound
  require (owned.stackSize = row.stackSize) .quantityMismatch
  require (qualityAccepted row.qualityLevel row.qualityMode owned.quality) .gradeMismatch
  require owned.tradeable .notTradeable
  require (!e.noCategory) .noCategory
  let s' ← karumClaimRequest row u ctrl owned f s
  orRaise (s'.send (.fill ⟨f.corr, f.takeCorr, f.requestId, s.listings.next,
    row.requesterAccountId, row.requesterCtrl, u.accountId, ctrl, f.itemId, row.templateId,
    row.stackSize, row.price, src, row.qualityLevel, row.qualityMode⟩) .selling) .integrity

def portalKarumRequestCancel (u : Session) (requestId : Nat) (s : Sys) :
    Except EdgeError Sys := do
  let row ← orRaise (s.requests.rows.find? (fun r => r.requestId = requestId)) .requestGone
  require (row.requesterAccountId = u.accountId) .requestGone
  require (row.status = .active) .requestGone
  .ok { s with requests := karumRequestCas s.requests requestId .active .cancelled .keep }

/-- `_FORCE_ACTIONS`. -/
inductive ForceAction
  | forceDeliver | forceReturn | refund
  deriving DecidableEq, Repr

def forceOp (action : ForceAction) (corr : Corr) (row : Listing) : Except EdgeError Op :=
  match action with
  | .refund => (orRaise row.buyer .noPayment).map (fun b =>
      .refund ⟨corr, row.listingId, b.accountId, row.sellerAccountId, row.price, b.soldCorrId⟩)
  | .forceDeliver => (orRaise row.buyer .noBuyer).map (fun b =>
      .forceDeliver ⟨corr, row.listingId, b.accountId, row.price⟩)
  | .forceReturn => .ok (.forceReturn ⟨corr, row.listingId, row.sellerAccountId, row.price⟩)

/-- The operator page. `corr` is the `uuid4` of this press. -/
def v2KarumForce (action : ForceAction) (listingId : Nat) (corr : Corr) (s : Sys) :
    Except EdgeError Sys := do
  require (0 < listingId) .badRequest
  let row ← orRaise (s.listings.get? listingId) .notFound
  let op ← forceOp action corr row
  orRaise (s.send op row.status) .integrity

/-! ## The handlers after the answer -/

/-- The branches of `portal_karum_buy` and of `portal_karum_request_fill`, in order. -/
inductive SaleExit
  | deferred | unknown | delivered | undelivered | refused
  deriving DecidableEq, Repr

def Reply.saleExit (r : Reply) : SaleExit :=
  if r.status = .deferred then .deferred
  else if r.status = .unknown then .unknown
  else if r.paid = some true then
    if r.delivered = some true then .delivered else .undelivered
  else .refused

def SaleExit.lets : SaleExit → Bool
  | .deferred | .refused => true
  | _ => false

def SaleExit.buyStatus : SaleExit → ListingStatus × Columns
  | .deferred | .refused => (.active, .buyer none)
  | .unknown => (.reconciling, .keep)
  | .delivered => (.sold, .keep)
  | .undelivered => (.paidUndelivered, .keep)

def SaleExit.fillStatus (item : Nat) : SaleExit → ListingStatus × Columns
  | .deferred | .refused => (.failed, .keep)
  | .unknown => (.reconciling, .keep)
  | .delivered => (.sold, .escrowItem item)
  | .undelivered => (.paidUndelivered, .escrowItem item)

def SaleExit.requestStatus : SaleExit → RequestStatus × FillColumns
  | .deferred | .refused => (.active, .clear)
  | .unknown => (.reconciling, .keep)
  | .delivered => (.filled, .keep)
  | .undelivered => (.paidUndelivered, .keep)

/-- `status in ("applied", "replay")`. -/
def Reply.good (r : Reply) : Bool := r.status == .applied || r.status == .replay

def forceListing (t : Listings) (id : Nat) (read target : ListingStatus) : Listings :=
  if target = read then t
  else t.update (fun l => l.listingId = id) (·.set target .keep)
    (fun l => l.listingId_set target .keep) (fun l => l.listingId_set target .keep)

/-- The compare-and-set that a player's route makes on its listing after the answer `r`:
expected status, new status, columns. The deferred branch of a listing does the same as
its refusal. A cancellation that is neither deferred nor done leaves the row for a retry. -/
def Op.exitCas (op : Op) (r : Reply) : Option (ListingStatus × ListingStatus × Columns) :=
  match op with
  | .list a =>
    if r.good then some (.pending, .active, .escrowItem (r.itemId.getD a.itemId))
    else some (.pending, .failed, .keep)
  | .buy _ => some (.selling, r.saleExit.buyStatus)
  | .fill a => some (.selling, r.saleExit.fillStatus a.itemId)
  | .cancel _ =>
    if r.status = .deferred then some (.returning, .active, .keep)
    else if r.good then some (.returning, .cancelled, .keep)
    else none
  | _ => none

def Op.forced (op : Op) (r : Reply) : Option ListingStatus :=
  match op with
  | .forceDeliver _ => if r.good then some .sold else none
  | .forceReturn _ => if r.good then some .cancelled else none
  | _ => none

def Op.exitStage (op : Op) (r : Reply) : PortalStage :=
  match op with
  | .fill _ => .half r
  | .forceDeliver _ | .forceReturn _ | .refund _ => if r.good then .half r else .finished r
  | _ => .finished r

/-- The first update after the answer `r`. `none` is an exception of the update: the
handler dies and the row stays. -/
def Op.exit (op : Op) (read : ListingStatus) (r : Reply) (t : Listings) :
    Option (PortalStage × Listings) :=
  match op.exitCas r with
  | some (expect, target, cols) =>
    (karumCas t op.listingId expect target cols).map (fun c => (op.exitStage r, c.2))
  | none =>
    match op.forced r with
    | some target => some (op.exitStage r, forceListing t op.listingId read target)
    | none => some (op.exitStage r, t)

/-- `status IN ('filling','reconciling','paid_undelivered')`. -/
def RequestStatus.isSettling : RequestStatus → Bool
  | .filling | .reconciling | .paidUndelivered => true
  | _ => false

def settledBy (listing : Nat) (r : Wanted) : Bool :=
  r.status.isSettling && (r.filler.map (·.settlementListingId)) == some listing

def Op.secondExit (op : Op) (r : Reply) (t : Requests) : Requests :=
  match op with
  | .fill a =>
    karumRequestCas t a.requestId .filling r.saleExit.requestStatus.1 r.saleExit.requestStatus.2
  | .forceDeliver a => t.setWhere (settledBy a.listingId) .filled .keep
  | .refund a => t.setWhere (settledBy a.listingId) .failed .keep
  | _ => t

end LastSietch.Karum
