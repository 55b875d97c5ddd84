import LastSietch.Contests.Contest
import LastSietch.Lib.Dict
import LastSietch.Lib.Json
import LastSietch.Lib.Sql

/-!
# The blueprint market

A listing is a row and a blob file beside it. `createOrUpdate` writes the blob in the middle of its
transaction, so what fails after that leaves the file as it has been written; the other operations
change rows only, but for `adminRemove`, which deletes the blob once the row is gone for good.
-/

namespace LastSietch.Blueprints

open Contests (isSpace strip joinWords)

def titleMax : Nat := 80
def descMax : Nat := 400
def tagsMax : Nat := 8
def purposeMax : Nat := 3

def purposeTags : List String :=
  ["Starter", "Main base", "Outpost", "Spice camp", "Refinery", "Defensive", "Showcase", "PvP"]

/-! ## Metadata -/

/-- `str.lower`, and the bytes of `json.dumps(blueprint, ensure_ascii=False)`. -/
structure Python where
  lower : String → String
  dumps : Json → List UInt8

structure Catalog where
  patterns : List (String × String)
  factions : List (String × List String)

structure Metadata where
  instanceCount : Nat
  placeableCount : Nat
  pentashieldCount : Nat
  pieceCount : Nat
  tags : List String
  faction : String
  hasPaidPieces : Bool
  defaultTitle : String
  deriving DecidableEq

def catTag : List (String × String) :=
  [("foundation", "Foundation"), ("foundation_wedge", "Foundation"), ("floor", "Floor"),
   ("wall", "Wall"), ("wall_half", "Wall"), ("door", "Door"), ("roof", "Roof"), ("ramp", "Stairs"),
   ("railing", "Decoration"), ("pillar", "Decoration"), ("corner", "Decoration"),
   ("prop", "Decoration"), ("prop_large", "Decoration")]

def functional : List (String × List String) :=
  [("Storage", ["storage", "container", "chest", "crate"]),
   ("Crafting", ["fabricator", "refinery", "extraction", "station", "bench", "crafting",
     "workbench"]),
   ("Defense", ["turret", "cannon", "defense", "blaster"])]

def tagOrder : List String :=
  ["Foundation", "Wall", "Floor", "Roof", "Stairs", "Door", "Storage", "Crafting", "Defense",
   "Decoration"]

def within (needle text : String) : Bool := needle.toList <:+: text.toList

variable (py : Python) (cat : Catalog)

def categoryOf (bt : String) : String :=
  ((cat.patterns.find? fun p => within p.1 (py.lower bt)).map (·.2)).getD "default"

def factionOf (bt : String) : String :=
  ((cat.factions.find? fun f => f.2.any fun p =>
    p.toList <+: (py.lower bt).toList).map (·.1)).getD "neutral"

def sizeBand (pieceCount : Nat) : String :=
  if pieceCount < 200 then "Small"
  else if pieceCount < 1000 then "Medium"
  else if pieceCount < 3000 then "Large"
  else "Massive"

def tagOf (bt : String) : Option String :=
  match functional.find? fun f => f.2.any fun n => within n (py.lower bt) with
  | some f => some f.1
  | none => catTag.lookup (categoryOf py cat bt)

/-- `faction_tally`, in the order in which the factions come up. -/
def factionTally (bts : List String) : List (String × Nat) :=
  bts.foldl (fun tally bt =>
    let fk := factionOf py cat bt
    if fk = "neutral" then tally else Dict.assign tally fk ((tally.lookup fk).getD 0 + 1)) []

def pieces (blueprint : Json) (key : String) : List Json :=
  ((blueprint.get? key).getD .null).elements

def buildingType (piece : Json) : String := ((piece.get? "building_type").bind Json.str?).getD ""

def deriveMetadata (blueprint : Json) : Metadata :=
  let instances := pieces blueprint "instances"
  let placeables := pieces blueprint "placeables"
  let pentashields := pieces blueprint "pentashields"
  let pieceCount := instances.length + placeables.length + pentashields.length
  let bts := (instances ++ placeables).map buildingType
  let tagSet := bts.filterMap (tagOf py cat) ++ if pentashields = [] then [] else ["Defense"]
  let name := ((blueprint.get? "name").bind Json.str?).getD ""
  { instanceCount := instances.length
    placeableCount := placeables.length
    pentashieldCount := pentashields.length
    pieceCount
    tags := ((tagOrder.filter (· ∈ tagSet)) ++ [sizeBand pieceCount]).take tagsMax
    faction := ((pick (fun a b => b.2 < a.2) (factionTally py cat bts)).map (·.1)).getD "neutral"
    hasPaidPieces := bts.any fun bt => "mtx".toList <+: (py.lower bt).toList
    defaultTitle := if name = "" then "Untitled Base" else name }

/-! ## The tables -/

inductive Status
  | published | unpublished | removed
  deriving DecidableEq

/-- A row of `portal_blueprint_market`; the columns with tags hold JSON arrays. -/
structure Listing where
  publishId : Nat
  accountId : Int
  discordId : Option String
  authorName : String
  gameBpId : Int
  title : String
  description : Option String
  tags : List String
  userTags : Option (List String)
  faction : String
  hasPaidPieces : Bool
  instanceCount : Nat
  placeableCount : Nat
  pentashieldCount : Nat
  pieceCount : Nat
  blobPath : String
  blobBytes : Nat
  downloadCount : Nat
  status : Status
  createdAt : String
  updatedAt : String

/-- A row of `portal_blueprint_publish_log`. -/
structure Publication where
  accountId : Int
  publishId : Nat
  gameBpId : Int
  publishedAt : String
  deriving DecidableEq

/-- The key of the index `idx_pbm_one_live`, which has the published rows only. -/
def Listing.base (r : Listing) : Int × Int := (r.accountId, r.gameBpId)

/-- `idx_pbm_one_live`. -/
def OneLive (rows : List Listing) : Prop :=
  ∀ r ∈ rows, ∀ s ∈ rows, r.status = .published → s.status = .published → r.base = s.base →
    r.publishId = s.publishId

instance (rows : List Listing) : Decidable (OneLive rows) :=
  inferInstanceAs (Decidable (∀ r ∈ rows, ∀ s ∈ rows, _ → _ → _ → _))

/-- The two `CHECK`s. -/
def Listing.Checked (r : Listing) : Prop := 0 < r.accountId ∧ 0 < r.gameBpId

instance (r : Listing) : Decidable r.Checked := inferInstanceAs (Decidable (_ ∧ _))

theorem checked_congr {r s : Listing} (h : s.base = r.base) (hr : r.Checked) : s.Checked := by
  obtain ⟨haccount, hbp⟩ := Prod.mk.inj h
  exact ⟨haccount ▸ hr.1, hbp ▸ hr.2⟩

/-- The table with its constraints, and the next id that `AUTOINCREMENT` gives. -/
structure Listings where
  rows : Table Listing (·.publishId)
  next : Nat
  fresh : ∀ r ∈ rows, r.publishId < next
  checked : ∀ r ∈ rows, r.Checked
  oneLive : OneLive rows.rows

theorem mem_updated {t : Table Listing (·.publishId)} {p : Listing → Bool} {f : Listing → Listing}
    {hid : ∀ r, (f r).publishId = r.publishId} {s : Listing} (hs : s ∈ t.update p f hid) :
    ∃ r ∈ t, p r = true ∧ s = f r ∨ p r = false ∧ s = r := by
  obtain ⟨r, hr, rfl⟩ := Table.mem_update.mp hs
  refine ⟨r, hr, ?_⟩
  split
  · rename_i hp
    exact Or.inl ⟨hp, rfl⟩
  · rename_i hp
    exact Or.inr ⟨Bool.eq_false_iff.mpr hp, rfl⟩

theorem updated_keeps {γ : Type} {t : Table Listing (·.publishId)} {p : Listing → Bool}
    {f : Listing → Listing} {hid : ∀ r, (f r).publishId = r.publishId} (π : Listing → γ)
    (hf : ∀ r, π (f r) = π r) {s : Listing} (hs : s ∈ t.update p f hid) :
    ∃ r ∈ t, s.publishId = r.publishId ∧ π s = π r := by
  obtain ⟨r, hr, ⟨-, rfl⟩ | ⟨-, rfl⟩⟩ := mem_updated hs
  · exact ⟨r, hr, hid r, hf r⟩
  · exact ⟨s, hr, rfl, rfl⟩

namespace Listings

def empty : Listings where
  rows := Table.empty
  next := 1
  fresh r hr := absurd hr (Table.not_mem_empty r)
  checked r hr := absurd hr (Table.not_mem_empty r)
  oneLive _ hr := absurd hr List.not_mem_nil

/-- A change that leaves the id and the base alone; `none` where it meets the unique index. -/
def update? (t : Listings) (p : Listing → Bool) (f : Listing → Listing)
    (hid : ∀ r, (f r).publishId = r.publishId := by intro _; rfl)
    (hbase : ∀ r, (f r).base = r.base := by intro _; rfl) : Option Listings :=
  if h : OneLive (t.rows.update p f hid).rows then
    some {
      rows := t.rows.update p f hid
      next := t.next
      fresh := fun s hs => by
        obtain ⟨r, hr, hkey, -⟩ := updated_keeps Listing.base hbase hs
        exact hkey ▸ t.fresh r hr
      checked := fun s hs => by
        obtain ⟨r, hr, -, hkey⟩ := updated_keeps Listing.base hbase hs
        exact checked_congr hkey (t.checked r hr)
      oneLive := h }
  else none

/-- `INSERT`, with the id that it gives; `none` where a constraint refuses the row. -/
def insert? (t : Listings) (mk : Nat → Listing)
    (hid : ∀ n, (mk n).publishId = n := by intro _; rfl) : Option Listings :=
  if h : (mk t.next).Checked ∧ OneLive (mk t.next :: t.rows.rows) then
    some {
      rows := ⟨mk t.next :: t.rows.rows, by
        rw [List.map_cons, List.nodup_cons, hid]
        refine ⟨fun hmem => ?_, t.rows.unique⟩
        obtain ⟨r, hr, hkey⟩ := List.mem_map.mp hmem
        exact (t.fresh r hr).ne hkey⟩
      next := t.next + 1
      fresh := fun r hr => by
        rcases List.mem_cons.mp hr with rfl | hr
        · rw [hid]
          exact Nat.lt_succ_self _
        · exact Nat.lt_succ_of_lt (t.fresh r hr)
      checked := fun r hr => by
        rcases List.mem_cons.mp hr with rfl | hr
        · exact h.1
        · exact t.checked r hr
      oneLive := h.2 }
  else none

def live? (t : Listings) (accountId gameBpId : Int) : Option Listing :=
  t.rows.rows.find? fun r =>
    r.accountId = accountId && r.gameBpId = gameBpId && r.status = .published

end Listings

abbrev Bytes := List UInt8

/-- The files of `BLUEPRINT_BLOB_DIR`. -/
abbrev Files := String → Option Bytes

structure Store where
  listings : Listings
  log : List Publication
  files : Files

def Store.empty : Store := ⟨Listings.empty, [], fun _ => none⟩

/-- `_blob_path`, below the directory. -/
def blobName (publishId : Nat) : String := toString publishId ++ ".json"

/-- `thumb_path`, below the directory. -/
def thumbName (publishId : Nat) : String := toString publishId ++ "_thumb.png"

def basename (path : String) : String :=
  String.ofList (path.toList.reverse.takeWhile (· ≠ '/')).reverse

/-! ## Publishing -/

/-- Where `create_or_update` fails: at the first `SELECT`, at the `INSERT` of a listing, before the
blob is opened, in its write with so many bytes written, at a statement after it or the commit, or
at the last `SELECT`. -/
inductive Fault
  | select | insert | opening
  | writing (bytes : Nat)
  | statement | reread

structure Publish where
  accountId : Int
  discordId : String
  authorName : String
  gameBpId : Int
  title : String
  description : Option String
  blueprint : Json
  userTags : Option (List String)
  now : String

/-- `_CONTROL_RE`. -/
def isControl (c : Char) : Bool :=
  let n := c.toNat
  n ≤ 8 || n = 11 || n = 12 || (14 ≤ n && n ≤ 31) || (127 ≤ n && n ≤ 159)

def cleanDescription (text : Option String) : Option String :=
  match text with
  | none => none
  | some text =>
    let clean := (joinWords (text.toList.filter fun c => !isControl c)).take descMax
    if clean = [] then none else some (String.ofList clean)

def cleanUserTags (tags : List String) : List String :=
  (purposeTags.filter (· ∈ tags)).take purposeMax

def capped (text : List Char) : String := String.ofList (text.take titleMax)

/-- `(title or "").strip()[:TITLE_MAX] or meta["default_title"][:TITLE_MAX]`. -/
def Publish.cleanTitle (c : Publish) (m : Metadata) : String :=
  let title := capped (strip c.title.toList)
  if title = "" then capped m.defaultTitle.toList else title

def Publish.fill (c : Publish) (m : Metadata) (r : Listing) : Listing :=
  { r with
    discordId := if c.discordId = "" then none else some c.discordId
    authorName := c.authorName
    title := c.cleanTitle m
    description := cleanDescription c.description
    tags := m.tags
    faction := m.faction
    hasPaidPieces := m.hasPaidPieces
    instanceCount := m.instanceCount
    placeableCount := m.placeableCount
    pentashieldCount := m.pentashieldCount
    pieceCount := m.pieceCount
    status := .published
    updatedAt := c.now }

def Publish.again (c : Publish) (m : Metadata) (body : Bytes) (r : Listing) : Listing :=
  { c.fill m r with
    userTags := match c.userTags with
      | none => r.userTags
      | some tags => some (cleanUserTags tags)
    blobPath := blobName r.publishId
    blobBytes := body.length }

def Publish.first (c : Publish) (m : Metadata) (publishId : Nat) : Listing :=
  c.fill m
    { publishId
      accountId := c.accountId
      discordId := none
      authorName := ""
      gameBpId := c.gameBpId
      title := ""
      description := none
      tags := []
      userTags := some (cleanUserTags (c.userTags.getD []))
      faction := ""
      hasPaidPieces := false
      instanceCount := 0
      placeableCount := 0
      pentashieldCount := 0
      pieceCount := 0
      blobPath := ""
      blobBytes := 0
      downloadCount := 0
      status := .published
      createdAt := c.now
      updatedAt := c.now }

/-- `_write_blob`: whether it returns, and the files. -/
def writeBlob (fault : Option Fault) (name : String) (body : Bytes) (files : Files) :
    Bool × Files :=
  match fault with
  | some .opening => (false, files)
  | some (.writing n) => (false, Function.update files name (some (body.take n)))
  | _ => (true, Function.update files name (some body))

def finish (c : Publish) (publishId : Nat) (fault : Option Fault) (listings : Listings)
    (files : Files) (s : Store) : Option Listing × Store :=
  match fault with
  | some .statement => (none, { s with files })
  | some .reread =>
    (none, ⟨listings, ⟨c.accountId, publishId, c.gameBpId, c.now⟩ :: s.log, files⟩)
  | _ => (listings.rows.get? publishId,
      ⟨listings, ⟨c.accountId, publishId, c.gameBpId, c.now⟩ :: s.log, files⟩)

/-- `create_or_update`; `none` is a raised exception. What the connection has not committed is not
in the store. -/
def createOrUpdate (m : Metadata) (c : Publish) (fault : Option Fault) (s : Store) :
    Option Listing × Store :=
  let body := py.dumps c.blueprint
  match fault with
  | some .select => (none, s)
  | _ =>
  match s.listings.live? c.accountId c.gameBpId with
  | some existing =>
    let (written, files) := writeBlob fault (blobName existing.publishId) body s.files
    if ¬written then (none, { s with files })
    else match s.listings.update? (·.publishId = existing.publishId) (c.again m body) with
      | none => (none, { s with files })
      | some listings => finish c existing.publishId fault listings files s
  | none =>
    match fault with
    | some .insert => (none, s)
    | _ =>
    match s.listings.insert? (c.first m) with
    | none => (none, s)
    | some inserted =>
      let publishId := s.listings.next
      let (written, files) := writeBlob fault (blobName publishId) body s.files
      if ¬written then (none, { s with files })
      else match inserted.update? (·.publishId = publishId) (fun r => { r with
          blobPath := blobName r.publishId, blobBytes := body.length }) with
        | none => (none, { s with files })
        | some listings => finish c publishId fault listings files s

/-! ## The other operations -/

/-- One `UPDATE` and its commit, of which one may fail; the answer is whether a row changed. -/
def change (fails : Bool) (p : Listing → Bool) (f : Listing → Listing)
    (hid : ∀ r, (f r).publishId = r.publishId) (hbase : ∀ r, (f r).base = r.base) (s : Store) :
    Option Bool × Store :=
  if fails then (none, s)
  else match s.listings.update? p f hid hbase with
    | none => (none, s)
    | some listings => (some (s.listings.rows.rows.any p), { s with listings })

def setStatus (status : Status) (now : String) (fails : Bool) (p : Listing → Bool) (s : Store) :
    Option Bool × Store :=
  change fails p (fun r => { r with status, updatedAt := now }) (by intro _; rfl)
    (by intro _; rfl) s

def unpublish (publishId : Nat) (accountIds : List Int) (now : String) (fails : Bool) (s : Store) :
    Option Bool × Store :=
  if accountIds = [] then (some false, s)
  else setStatus .unpublished now fails (fun r =>
    r.publishId = publishId && r.accountId ∈ accountIds && r.status = .published) s

def adminUnpublish (publishId : Nat) (now : String) (fails : Bool) (s : Store) :
    Option Bool × Store :=
  setStatus .unpublished now fails (fun r => r.publishId = publishId && r.status ≠ .removed) s

def adminRepublish (publishId : Nat) (now : String) (fails : Bool) (s : Store) :
    Option Bool × Store :=
  setStatus .published now fails (fun r => r.publishId = publishId && r.status = .unpublished) s

/-- `os.remove` inside a `try`. -/
def unlink (refused : Bool) (name : String) (files : Files) : Files :=
  if refused then files else Function.update files name none

/-- `admin_remove`; whether the two files can be deleted is `refused`. -/
def adminRemove (publishId : Nat) (now : String) (fails : Bool) (refused : Bool × Bool)
    (s : Store) : Option Bool × Store :=
  if fails then (none, s)
  else match s.listings.rows.get? publishId with
    | none => (some false, s)
    | some r =>
      match setStatus .removed now false (fun r => r.publishId = publishId) s with
      | (none, s) => (none, s)
      | (some changed, s) =>
        let blob := strip r.blobPath.toList
        let files := if blob = [] then s.files
          else unlink refused.1 (basename (String.ofList blob)) s.files
        (some changed, { s with files := unlink refused.2 (thumbName publishId) files })

def syncListingTitleOnRename (accountId gameBpId : Int) (newTitle : String)
    (oldName : Option String) (now : String) (fails : Bool) (s : Store) : Option Bool × Store :=
  let title := capped (strip newTitle.toList)
  if title = "" then (some false, s)
  else if fails then (none, s)
  else match s.listings.live? accountId gameBpId with
    | none => (some false, s)
    | some r =>
      let current := String.ofList (strip r.title.toList)
      let old := String.ofList (strip (oldName.getD "").toList)
      if (py.lower current ∈ ["", "untitled base"] ∨ old ≠ "" ∧ py.lower current = py.lower old) ∧
          current ≠ title then
        change false (fun q => q.publishId = r.publishId)
          (fun q => { q with title, updatedAt := now }) (by intro _; rfl) (by intro _; rfl) s
      else (some false, s)

def incrementDownload (publishId : Nat) (fails : Bool) (s : Store) : Option Bool × Store :=
  change fails (fun r => r.publishId = publishId && r.status = .published)
    (fun r => { r with downloadCount := r.downloadCount + 1 }) (by intro _; rfl) (by intro _; rfl) s

end LastSietch.Blueprints
