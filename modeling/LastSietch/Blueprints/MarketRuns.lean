import LastSietch.Blueprints.Market
import Mathlib.Data.List.TakeWhile

/-!
# Runs of the blueprint market

Operations one after the other, by any accounts, each of which may fail. Every row of a committed
transaction has its own blob, and a removed one never comes back; what can go wrong is a publish
that fails once its blob is open, since the file is written in place and before the commit.

* `blob_ahead`: a publish that fails at its commit leaves a live row with another blueprint's blob.
-/

namespace LastSietch.Blueprints

open Contests (isSpace strip toString_inj)
open Runs (exec Along)

/-! ## Names of files -/

theorem blobName_toList (n : Nat) : (blobName n).toList = Nat.toDigits 10 n ++ ".json".toList := by
  unfold blobName
  rw [String.toList_append]
  congr 1
  exact Nat.toList_repr

theorem thumbName_toList (n : Nat) :
    (thumbName n).toList = Nat.toDigits 10 n ++ "_thumb.png".toList := by
  unfold thumbName
  rw [String.toList_append]
  congr 1
  exact Nat.toList_repr

theorem blobName_inj {a b : Nat} (h : blobName a = blobName b) : a = b := by
  refine toString_inj ?_
  have hlist := congrArg String.toList h
  unfold blobName at hlist
  rw [String.toList_append, String.toList_append, List.append_cancel_right_eq] at hlist
  exact String.toList_inj.mp hlist

theorem blobName_ne_thumbName (a b : Nat) : blobName a ≠ thumbName b := by
  intro h
  have hlast := congrArg (fun name => name.toList.getLast?) h
  have hjson : ".json".toList.getLast? = some 'n' := by decide
  have hpng : "_thumb.png".toList.getLast? = some 'g' := by decide
  simp only [blobName_toList, thumbName_toList, List.getLast?_append, hjson, hpng,
    Option.some_or, Option.some.injEq] at hlast
  exact absurd hlast (by decide)

theorem digit_plain {c : Char} (hc : c.isDigit = true) : isSpace c = false ∧ c ≠ '/' := by
  have hrange : 48 ≤ c.toNat ∧ c.toNat ≤ 57 := by
    simpa [Char.isDigit, UInt32.le_iff_toNat_le] using hc
  constructor
  · simp only [isSpace, Bool.or_eq_false_iff, Bool.and_eq_false_iff, decide_eq_false_iff_not,
      beq_eq_false_iff_ne]
    omega
  · rintro rfl
    exact absurd hrange.1 (by decide)

theorem blobName_plain (n : Nat) : ∀ c ∈ (blobName n).toList, isSpace c = false ∧ c ≠ '/' := by
  intro c hc
  rw [blobName_toList, List.mem_append] at hc
  rcases hc with hdigit | hjson
  · exact digit_plain (Nat.isDigit_of_mem_toDigits (by decide) (by decide) hdigit)
  · have hall : ".json".toList.all (fun c => !isSpace c && c != '/') = true := by decide
    have hplain := List.all_eq_true.mp hall c hjson
    simpa using hplain

theorem dropWhile_plain {l : List Char} (h : ∀ c ∈ l, isSpace c = false) :
    l.dropWhile isSpace = l := by
  cases l with
  | nil => rfl
  | cons c l =>
    have hc : ¬isSpace c = true := Bool.eq_false_iff.mp (h c List.mem_cons_self)
    rw [List.dropWhile_cons_of_neg hc]

theorem strip_blobName (n : Nat) : strip (blobName n).toList = (blobName n).toList := by
  unfold strip
  rw [dropWhile_plain fun c hc => (blobName_plain n c hc).1,
    dropWhile_plain fun c hc => (blobName_plain n c (List.mem_reverse.mp hc)).1,
    List.reverse_reverse]

theorem basename_blobName (n : Nat) : basename (blobName n) = blobName n := by
  unfold basename
  have htake : (blobName n).toList.reverse.takeWhile (fun c => decide (c ≠ '/')) =
      (blobName n).toList.reverse := by
    rw [List.takeWhile_eq_self_iff]
    exact fun c hc => decide_eq_true (blobName_plain n c (List.mem_reverse.mp hc)).2
  rw [htake, List.reverse_reverse, String.ofList_toList]

theorem blobName_ne_nil (n : Nat) : (blobName n).toList ≠ [] := by
  rw [blobName_toList]
  exact List.append_ne_nil_of_right_ne_nil _ (by decide)

variable (py : Python) (cat : Catalog)

def Listing.Carries (r : Listing) (m : Metadata) : Prop :=
  r.tags = m.tags ∧ r.faction = m.faction ∧ r.hasPaidPieces = m.hasPaidPieces ∧
    r.instanceCount = m.instanceCount ∧ r.placeableCount = m.placeableCount ∧
    r.pentashieldCount = m.pentashieldCount ∧ r.pieceCount = m.pieceCount

def Backed (files : Files) (r : Listing) : Prop :=
  ∃ blueprint, files r.blobPath = some (py.dumps blueprint) ∧
    r.blobBytes = (py.dumps blueprint).length ∧ r.Carries (deriveMetadata py cat blueprint)

structure Store.Consistent (s : Store) : Prop where
  oneLive : ∀ r ∈ s.listings.rows, ∀ q ∈ s.listings.rows, r.status = .published →
    q.status = .published → r.base = q.base → r = q
  backed : ∀ r ∈ s.listings.rows, r.status = .published → Backed py cat s.files r

structure Store.Follows (s s' : Store) : Prop where
  removed : ∀ r ∈ s.listings.rows, r.status = .removed →
    ∃ r' ∈ s'.listings.rows, r'.publishId = r.publishId ∧ r'.status = .removed
  downloads : ∀ r ∈ s.listings.rows,
    ∃ r' ∈ s'.listings.rows, r'.publishId = r.publishId ∧ r.downloadCount ≤ r'.downloadCount

theorem Store.Follows.refl (s : Store) : s.Follows s where
  removed r hr hremoved := ⟨r, hr, rfl, hremoved⟩
  downloads r hr := ⟨r, hr, rfl, le_rfl⟩

theorem Store.Follows.files {s s' : Store} (h : s.Follows s') (files : Files) :
    s.Follows { s' with files } where
  removed := h.removed
  downloads := h.downloads

inductive Act
  | publish (c : Publish) (fault : Option Fault)
  | unpublish (publishId : Nat) (accountIds : List Int) (now : String) (fails : Bool)
  | adminUnpublish (publishId : Nat) (now : String) (fails : Bool)
  | adminRepublish (publishId : Nat) (now : String) (fails : Bool)
  | adminRemove (publishId : Nat) (now : String) (fails : Bool) (refused : Bool × Bool)
  | syncTitle (accountId gameBpId : Int) (newTitle : String) (oldName : Option String)
      (now : String) (fails : Bool)
  | download (publishId : Nat) (fails : Bool)

/-- The operation: what it answers, `none` if it raises, and the store after it. The routes hand the
metadata of the blueprint to `create_or_update`. -/
def Act.call (s : Store) : Act → Option Bool × Store
  | .publish c fault =>
    let r := createOrUpdate py (deriveMetadata py cat c.blueprint) c fault s
    (r.1.map fun _ => true, r.2)
  | .unpublish publishId accountIds now fails =>
    Blueprints.unpublish publishId accountIds now fails s
  | .adminUnpublish publishId now fails => Blueprints.adminUnpublish publishId now fails s
  | .adminRepublish publishId now fails => Blueprints.adminRepublish publishId now fails s
  | .adminRemove publishId now fails refused => Blueprints.adminRemove publishId now fails refused s
  | .syncTitle accountId gameBpId newTitle oldName now fails =>
    syncListingTitleOnRename py accountId gameBpId newTitle oldName now fails s
  | .download publishId fails => incrementDownload publishId fails s

def step (s : Store) (a : Act) : Option Store := some (a.call py cat s).2

def Reaches (s : Store) (c : Publish) : Prop :=
  (s.listings.live? c.accountId c.gameBpId).isSome = true ∨ 0 < c.accountId ∧ 0 < c.gameBpId

def Store.idFor (s : Store) (c : Publish) : Nat :=
  ((s.listings.live? c.accountId c.gameBpId).map (·.publishId)).getD s.listings.next

/-- A publish that gets to the blob does not fail from there on, unless the bytes that are then in
the file are those that were. -/
def Clean (s : Store) : Act → Prop
  | .publish c (some (.writing n)) =>
    Reaches s c → s.files (blobName (s.idFor c)) = some ((py.dumps c.blueprint).take n)
  | .publish c (some .statement) =>
    Reaches s c → s.files (blobName (s.idFor c)) = some (py.dumps c.blueprint)
  | .publish c (some .reread) => ¬Reaches s c
  | _ => True

structure Sound (s : Store) (a : Act) : Prop where
  consistent : (a.call py cat s).2.Consistent py cat
  follows : s.Follows (a.call py cat s).2
  raises : (a.call py cat s).1 = none → (a.call py cat s).2 = s

/-! ## Updates of rows -/

def Listing.blob (r : Listing) :
    String × Nat × List String × String × Bool × Nat × Nat × Nat × Nat :=
  (r.blobPath, r.blobBytes, r.tags, r.faction, r.hasPaidPieces, r.instanceCount, r.placeableCount,
    r.pentashieldCount, r.pieceCount)

variable {py cat} {s s' : Store} {t : Listings} {p : Listing → Bool} {f : Listing → Listing}
  {hid : ∀ r, (f r).publishId = r.publishId} {hbase : ∀ r, (f r).base = r.base}

theorem Backed.congr {files files' : Files} {r r' : Listing} (h : Backed py cat files r)
    (hblob : r'.blob = r.blob) (hfile : files' r.blobPath = files r.blobPath) :
    Backed py cat files' r' := by
  obtain ⟨blueprint, hbody, hbytes, hcarries⟩ := h
  simp only [Listing.blob, Prod.mk.injEq] at hblob
  obtain ⟨hpath, hlength, hcensus⟩ := hblob
  refine ⟨blueprint, by rw [hpath, hfile, hbody], hlength.trans hbytes, ?_⟩
  obtain ⟨htags, hfaction, hpaid, hinstances, hplaceables, hshields, hpieces⟩ := hcensus
  unfold Listing.Carries at *
  rw [htags, hfaction, hpaid, hinstances, hplaceables, hshields, hpieces]
  exact hcarries

theorem rows_update? {t₀ : Listings} (h : t₀.update? p f hid hbase = some t) :
    t.rows = t₀.rows.update p f hid := by
  unfold Listings.update? at h
  split at h
  · cases h
    rfl
  · cases h

theorem update?_isSome {t : Listings} (h : ∀ r ∈ t.rows, p r = true →
    (f r).status = .published → r.status = .published) :
    (t.update? p f hid hbase).isSome = true := by
  unfold Listings.update?
  rw [dif_pos]
  · rfl
  · have horigin : ∀ q ∈ t.rows.update p f hid, q.status = .published →
        ∃ r ∈ t.rows, q.publishId = r.publishId ∧ q.base = r.base ∧
          r.status = .published := by
      intro q hq hlive
      obtain ⟨r, hr, ⟨hp, rfl⟩ | ⟨-, rfl⟩⟩ := mem_updated hq
      · exact ⟨r, hr, hid r, hbase r, h r hr hp hlive⟩
      · exact ⟨q, hr, rfl, rfl, hlive⟩
    intro q hq q' hq' hlive hlive' hbases
    obtain ⟨r, hr, hkey, hsame, hr_live⟩ := horigin q hq hlive
    obtain ⟨r', hr', hkey', hsame', hr'_live⟩ := horigin q' hq' hlive'
    rw [hkey, hkey']
    exact t.oneLive r hr r' hr' hr_live hr'_live (hsame ▸ hsame' ▸ hbases)

theorem live?_spec {accountId gameBpId : Int} {r : Listing}
    (h : s.listings.live? accountId gameBpId = some r) :
    r ∈ s.listings.rows ∧ r.base = (accountId, gameBpId) ∧ r.status = .published := by
  have hp := List.find?_some h
  simp only [Bool.and_eq_true, decide_eq_true_eq] at hp
  exact ⟨List.mem_of_find?_eq_some h, Prod.ext hp.1.1 hp.1.2, hp.2⟩

theorem live?_none {accountId gameBpId : Int} (h : s.listings.live? accountId gameBpId = none) :
    ∀ r ∈ s.listings.rows, r.status = .published → r.base ≠ (accountId, gameBpId) := by
  intro r hr hlive hbase
  have hp := List.find?_eq_none.mp h r hr
  obtain ⟨haccount, hbp⟩ := Prod.mk.inj hbase
  simp [haccount, hbp, hlive] at hp

/-! ## The invariant -/

structure Inv (py : Python) (cat : Catalog) (s : Store) : Prop where
  path : ∀ r ∈ s.listings.rows, r.blobPath = blobName r.publishId
  backed : ∀ r ∈ s.listings.rows, r.status ≠ .removed → Backed py cat s.files r

theorem Inv.empty : Inv py cat Store.empty where
  path r hr := absurd hr (Table.not_mem_empty r)
  backed r hr := absurd hr (Table.not_mem_empty r)

theorem Inv.consistent (h : Inv py cat s) : s.Consistent py cat where
  oneLive r hr q hq hr_live hq_live hbase :=
    Table.eq_of_key_eq hr hq (s.listings.oneLive r hr q hq hr_live hq_live hbase)
  backed r hr hlive := h.backed r hr (by rw [hlive]; decide)

structure Kept (py : Python) (cat : Catalog) (s : Store) (o : Option Bool × Store) : Prop where
  inv : Inv py cat o.2
  follows : s.Follows o.2
  raises : o.1 = none → o.2 = s

theorem Kept.same (h : Inv py cat s) (answer : Option Bool) : Kept py cat s (answer, s) where
  inv := h
  follows := Store.Follows.refl s
  raises _ := rfl

/-- A change of rows that leaves alone what they say of their blobs, brings none back, and lowers no
count. -/
structure Calm (p : Listing → Bool) (f : Listing → Listing) : Prop where
  blob : ∀ r, (f r).blob = r.blob
  removed : ∀ r, p r = true → r.status = .removed → (f r).status = .removed
  downloads : ∀ r, r.downloadCount ≤ (f r).downloadCount

theorem Calm.kept (hcalm : Calm p f) (h : Inv py cat s)
    (hup : s.listings.update? p f hid hbase = some t) (answer : Bool) :
    Kept py cat s (some answer, { s with listings := t }) := by
  have hrows := rows_update? hup
  have hnew : ∀ r ∈ s.listings.rows, ∃ q ∈ t.rows, q = (if p r then f r else r) := by
    intro r hr
    refine ⟨_, ?_, rfl⟩
    rw [hrows]
    exact Table.mem_update.mpr ⟨r, hr, rfl⟩
  refine ⟨⟨?_, ?_⟩, ⟨?_, ?_⟩, fun hnone => absurd hnone (Option.some_ne_none _)⟩
  · intro q hq
    dsimp only at hq
    rw [hrows] at hq
    obtain ⟨r, hr, hkey, hblob⟩ := updated_keeps Listing.blob hcalm.blob hq
    rw [hkey]
    exact (congrArg Prod.fst hblob).trans (h.path r hr)
  · intro q hq hlive
    dsimp only at hq
    rw [hrows] at hq
    obtain ⟨r, hr, ⟨hp, rfl⟩ | ⟨-, rfl⟩⟩ := mem_updated hq
    · have hr_live : r.status ≠ .removed := fun hremoved => hlive (hcalm.removed r hp hremoved)
      exact (h.backed r hr hr_live).congr (hcalm.blob r) rfl
    · exact h.backed q hr hlive
  · intro r hr hremoved
    obtain ⟨q, hq, rfl⟩ := hnew r hr
    refine ⟨_, hq, ?_⟩
    split
    · rename_i hp
      exact ⟨hid r, hcalm.removed r hp hremoved⟩
    · exact ⟨rfl, hremoved⟩
  · intro r hr
    obtain ⟨q, hq, rfl⟩ := hnew r hr
    refine ⟨_, hq, ?_⟩
    split
    · exact ⟨hid r, hcalm.downloads r⟩
    · exact ⟨rfl, le_rfl⟩

theorem change_kept (hcalm : Calm p f) (h : Inv py cat s) (fails : Bool) :
    Kept py cat s (change fails p f hid hbase s) := by
  unfold change
  split
  · exact Kept.same h none
  · split
    · exact Kept.same h none
    · rename_i t hup
      exact hcalm.kept h hup _

/-! ## The operations on rows -/

theorem calm_status {status : Status} {now : String}
    (hp : ∀ r : Listing, p r = true → r.status = .removed → status = .removed) :
    Calm p (fun r => { r with status, updatedAt := now }) where
  blob _ := rfl
  removed r hr hremoved := hp r hr hremoved
  downloads _ := le_rfl

theorem calm_title {title now : String} :
    Calm p (fun r => { r with title, updatedAt := now }) where
  blob _ := rfl
  removed _ _ hremoved := hremoved
  downloads _ := le_rfl

theorem calm_download : Calm p (fun r => { r with downloadCount := r.downloadCount + 1 }) where
  blob _ := rfl
  removed _ _ hremoved := hremoved
  downloads r := Nat.le_succ r.downloadCount

theorem unpublish_kept (h : Inv py cat s) (publishId : Nat) (accountIds : List Int) (now : String)
    (fails : Bool) : Kept py cat s (unpublish publishId accountIds now fails s) := by
  unfold unpublish
  split
  · exact Kept.same h _
  · refine change_kept (calm_status fun r hr hremoved => ?_) h fails
    simp [hremoved] at hr

theorem adminUnpublish_kept (h : Inv py cat s) (publishId : Nat) (now : String) (fails : Bool) :
    Kept py cat s (adminUnpublish publishId now fails s) := by
  refine change_kept (calm_status fun r hr hremoved => ?_) h fails
  simp [hremoved] at hr

theorem adminRepublish_kept (h : Inv py cat s) (publishId : Nat) (now : String) (fails : Bool) :
    Kept py cat s (adminRepublish publishId now fails s) := by
  refine change_kept (calm_status fun r hr hremoved => ?_) h fails
  simp [hremoved] at hr

theorem incrementDownload_kept (h : Inv py cat s) (publishId : Nat) (fails : Bool) :
    Kept py cat s (incrementDownload publishId fails s) :=
  change_kept calm_download h fails

theorem syncTitle_kept (h : Inv py cat s) (accountId gameBpId : Int) (newTitle : String)
    (oldName : Option String) (now : String) (fails : Bool) :
    Kept py cat s
      (syncListingTitleOnRename py accountId gameBpId newTitle oldName now fails s) := by
  unfold syncListingTitleOnRename
  dsimp only
  split
  · exact Kept.same h _
  · split
    · exact Kept.same h _
    · split
      · exact Kept.same h _
      · split
        · exact change_kept calm_title h false
        · exact Kept.same h _

theorem unlink_ne {refused : Bool} {name other : String} (h : other ≠ name) (files : Files) :
    unlink refused name files other = files other := by
  unfold unlink
  split
  · rfl
  · exact Function.update_of_ne h _ _

theorem setStatus_status (s : Store) (status : Status) (now : String) (publishId : Nat)
    (q : Listing)
    (hok : (setStatus status now false (fun r => r.publishId = publishId) s).1 ≠ none)
    (hq : q ∈ (setStatus status now false (fun r => r.publishId = publishId) s).2.listings.rows)
    (hid : q.publishId = publishId) : q.status = status := by
  unfold setStatus change at hok hq
  rw [if_neg Bool.false_ne_true] at hok hq
  split at hq
  · rename_i hnone
    rw [hnone] at hok
    exact absurd rfl hok
  · rename_i t hup
    dsimp only at hq
    rw [rows_update? hup] at hq
    obtain ⟨r, -, ⟨-, rfl⟩ | ⟨hne, rfl⟩⟩ := mem_updated hq
    · rfl
    · exact absurd hid (of_decide_eq_false hne)

theorem adminRemove_kept (h : Inv py cat s) (publishId : Nat) (now : String) (fails : Bool)
    (refused : Bool × Bool) : Kept py cat s (adminRemove publishId now fails refused s) := by
  unfold adminRemove
  split
  · exact Kept.same h _
  · split
    · exact Kept.same h _
    · rename_i r hr
      obtain ⟨hmem, hid⟩ := Table.get?_eq_some.mp hr
      have hchange : Kept py cat s
          (setStatus .removed now false (fun r => r.publishId = publishId) s) :=
        change_kept (calm_status fun _ _ _ => rfl) h false
      have hgone := setStatus_status s .removed now publishId
      generalize setStatus .removed now false (fun r => r.publishId = publishId) s = o at *
      obtain ⟨answer, s'⟩ := o
      cases answer with
      | none => exact hchange
      | some changed =>
        dsimp only
        have hblob : strip r.blobPath.toList = (blobName publishId).toList := by
          rw [h.path r hmem, hid, strip_blobName]
        rw [hblob, if_neg (blobName_ne_nil publishId), String.ofList_toList, basename_blobName]
        refine ⟨⟨hchange.inv.path, fun q hq hlive => ?_⟩, hchange.follows.files _,
          fun hnone => absurd hnone (Option.some_ne_none _)⟩
        dsimp only
        have hother : q.publishId ≠ publishId :=
          fun heq => hlive (hgone q (Option.some_ne_none _) hq heq)
        refine (hchange.inv.backed q hq hlive).congr rfl ?_
        rw [hchange.inv.path q hq, unlink_ne (blobName_ne_thumbName _ _),
          unlink_ne fun heq => hother (blobName_inj heq)]

/-! ## Publishing -/

section Publish

variable {m : Metadata} {c : Publish} {fault : Option Fault} {body : Bytes}

theorem insert?_isSome (hchecked : 0 < c.accountId ∧ 0 < c.gameBpId)
    (hlive : s.listings.live? c.accountId c.gameBpId = none) :
    (s.listings.insert? (c.first m)).isSome = true := by
  have hbase : (c.first m s.listings.next).base = (c.accountId, c.gameBpId) := rfl
  have hfree := live?_none hlive
  unfold Listings.insert?
  rw [dif_pos]
  · rfl
  · refine ⟨hchecked, fun r hr q hq hr_live hq_live hsame => ?_⟩
    rcases List.mem_cons.mp hr with rfl | hr
    · rcases List.mem_cons.mp hq with rfl | hq
      · rfl
      · exact absurd (hsame.symm.trans hbase) (hfree q hq hq_live)
    · rcases List.mem_cons.mp hq with rfl | hq
      · exact absurd (hsame.trans hbase) (hfree r hr hr_live)
      · exact s.listings.oneLive r hr q hq hr_live hq_live hsame

theorem insert?_spec (h : s.listings.insert? (c.first m) = some t) :
    (0 < c.accountId ∧ 0 < c.gameBpId) ∧
      t.rows.rows = c.first m s.listings.next :: s.listings.rows.rows := by
  unfold Listings.insert? at h
  split at h
  · rename_i hok
    cases h
    exact ⟨hok.1, rfl⟩
  · cases h

/-- The rows that a publish has made of those of `s`: the one that it is about, and the others. -/
structure Written (m : Metadata) (c : Publish) (body : Bytes) (s : Store) (t : Listings) :
    Prop where
  rows : ∀ q ∈ t.rows, q ∈ s.listings.rows ∧ q.publishId ≠ s.idFor c ∨
    q.publishId = s.idFor c ∧ q.blobPath = blobName q.publishId ∧ q.blobBytes = body.length ∧
      q.Carries m
  kept : ∀ r ∈ s.listings.rows, ∃ q ∈ t.rows, q.publishId = r.publishId ∧
    (r.status = .removed → q.status = .removed) ∧ r.downloadCount ≤ q.downloadCount
  found : (t.rows.get? (s.idFor c)).isSome = true

theorem found_of_update {t₀ : Listings} (hup : t₀.update? p f hid hbase = some t) {n : Nat}
    (h : (t₀.rows.get? n).isSome = true) : (t.rows.get? n).isSome = true := by
  rw [rows_update? hup, Table.get?_update, Option.isSome_map]
  exact h

theorem found_of_mem {q : Listing} {n : Nat} (hq : q ∈ t.rows) (hid : q.publishId = n) :
    (t.rows.get? n).isSome = true := by
  rw [Table.get?_eq_some.mpr ⟨hq, hid⟩]
  rfl

theorem written_again {existing : Listing}
    (hlive : s.listings.live? c.accountId c.gameBpId = some existing)
    (hup : s.listings.update? (·.publishId = existing.publishId) (c.again m body) = some t) :
    Written m c body s t := by
  obtain ⟨hmem, -, hpublished⟩ := live?_spec hlive
  have hidFor : s.idFor c = existing.publishId := by
    unfold Store.idFor
    rw [hlive]
    rfl
  have hrows := rows_update? hup
  refine ⟨fun q hq => ?_, fun r hr => ?_, ?_⟩
  · rw [hrows] at hq
    rw [hidFor]
    obtain ⟨r, hr, ⟨hp, rfl⟩ | ⟨hp, rfl⟩⟩ := mem_updated hq
    · exact Or.inr ⟨of_decide_eq_true hp, rfl, rfl, rfl, rfl, rfl, rfl, rfl, rfl, rfl⟩
    · exact Or.inl ⟨hr, of_decide_eq_false hp⟩
  · rw [hrows]
    refine ⟨_, Table.mem_update.mpr ⟨r, hr, rfl⟩, ?_⟩
    split
    · rename_i hp
      have hsame : r = existing := Table.eq_of_key_eq hr hmem (of_decide_eq_true hp)
      refine ⟨rfl, fun hremoved => ?_, le_rfl⟩
      rw [hsame, hpublished] at hremoved
      cases hremoved
    · exact ⟨rfl, fun hremoved => hremoved, le_rfl⟩
  · rw [hidFor]
    exact found_of_update hup (found_of_mem hmem rfl)

theorem written_first {inserted : Listings}
    (hlive : s.listings.live? c.accountId c.gameBpId = none)
    (hins : s.listings.insert? (c.first m) = some inserted)
    (hup : inserted.update? (·.publishId = s.listings.next) (fun r => { r with
      blobPath := blobName r.publishId, blobBytes := body.length }) = some t) :
    Written m c body s t := by
  obtain ⟨-, hinserted⟩ := insert?_spec hins
  have hidFor : s.idFor c = s.listings.next := by
    unfold Store.idFor
    rw [hlive]
    rfl
  have hmem : ∀ {r : Listing}, r ∈ inserted.rows ↔
      r = c.first m s.listings.next ∨ r ∈ s.listings.rows := by
    intro r
    rw [Table.mem_def, hinserted, List.mem_cons]
    rfl
  have hrows := rows_update? hup
  refine ⟨fun q hq => ?_, fun r hr => ?_, ?_⟩
  · rw [hrows] at hq
    rw [hidFor]
    obtain ⟨r, hr, ⟨hp, rfl⟩ | ⟨hp, rfl⟩⟩ := mem_updated hq
    · rcases hmem.mp hr with rfl | hold
      · exact Or.inr ⟨rfl, rfl, rfl, rfl, rfl, rfl, rfl, rfl, rfl, rfl⟩
      · exact absurd (of_decide_eq_true hp) (s.listings.fresh r hold).ne
    · rcases hmem.mp hr with rfl | hold
      · exact absurd rfl (of_decide_eq_false hp)
      · exact Or.inl ⟨hold, of_decide_eq_false hp⟩
  · rw [hrows]
    refine ⟨r, Table.mem_update.mpr ⟨r, hmem.mpr (Or.inr hr), ?_⟩, rfl, fun h => h, le_rfl⟩
    rw [if_neg fun hp => (s.listings.fresh r hr).ne (of_decide_eq_true hp)]
  · rw [hidFor]
    exact found_of_update hup (found_of_mem (hmem.mpr (Or.inl rfl)) rfl)

theorem again_isSome {existing : Listing}
    (hlive : s.listings.live? c.accountId c.gameBpId = some existing) :
    (s.listings.update? (·.publishId = existing.publishId) (c.again m body)).isSome = true := by
  obtain ⟨hmem, -, hpublished⟩ := live?_spec hlive
  refine update?_isSome fun r hr hp _ => ?_
  rw [Table.eq_of_key_eq hr hmem (of_decide_eq_true hp)]
  exact hpublished

def blobAndRest (c : Publish) (fault : Option Fault) (publishId : Nat) (body : Bytes)
    (t : Listings) (s : Store) : Option Listing × Store :=
  let (written, files) := writeBlob fault (blobName publishId) body s.files
  if ¬written then (none, { s with files }) else finish c publishId fault t files s

inductive Outcome (m : Metadata) (c : Publish) (fault : Option Fault) (body : Bytes) (s : Store) :
    Option Listing × Store → Prop
  | nothing (h : Reaches s c → fault = some .select ∨ fault = some .insert ∨
      fault = some .opening) : Outcome m c fault body s (none, s)
  | torn (n : Nat) (hfault : fault = some (.writing n)) (h : Reaches s c) :
      Outcome m c fault body s (none, { s with
        files := Function.update s.files (blobName (s.idFor c)) (some (body.take n)) })
  | ahead (hfault : fault = some .statement) (h : Reaches s c) :
      Outcome m c fault body s (none, { s with
        files := Function.update s.files (blobName (s.idFor c)) (some body) })
  | committed (t : Listings) (answer : Option Listing) (entry : Publication)
      (hwritten : Written m c body s t) (hanswer : answer = none ↔ fault = some .reread)
      (hlate : fault ≠ some .statement ∧ ∀ n, fault ≠ some (.writing n)) (h : Reaches s c) :
      Outcome m c fault body s (answer, ⟨t, entry :: s.log,
        Function.update s.files (blobName (s.idFor c)) (some body)⟩)

theorem outcome_blobAndRest (fault : Option Fault) (hwritten : Written m c body s t)
    (h : Reaches s c) : Outcome m c fault body s (blobAndRest c fault (s.idFor c) body t s) := by
  obtain ⟨row, hrow⟩ := Option.isSome_iff_exists.mp hwritten.found
  have hdone : ∀ fault, fault ≠ some Fault.reread → fault ≠ some .statement →
      (∀ n, fault ≠ some (.writing n)) → Outcome m c fault body s (t.rows.get? (s.idFor c),
        ⟨t, ⟨c.accountId, s.idFor c, c.gameBpId, c.now⟩ :: s.log,
          Function.update s.files (blobName (s.idFor c)) (some body)⟩) := by
    intro fault hreread hstatement hwriting
    refine .committed t _ _ hwritten (iff_of_false ?_ hreread) ⟨hstatement, hwriting⟩ h
    rw [hrow]
    exact Option.some_ne_none row
  rcases fault with _ | _ | _ | _ | n | _ | _
  · exact hdone none (by simp) (by simp) (by simp)
  · exact hdone (some .select) (by simp) (by simp) (by simp)
  · exact hdone (some .insert) (by simp) (by simp) (by simp)
  · exact .nothing fun _ => Or.inr (Or.inr rfl)
  · exact .torn n rfl h
  · exact .ahead rfl h
  · exact .committed t none _ hwritten (iff_of_true rfl rfl) (by simp) h

theorem outcome_createOrUpdate (py : Python) (m : Metadata) (c : Publish) (fault : Option Fault)
    (s : Store) :
    Outcome m c fault (py.dumps c.blueprint) s (createOrUpdate py m c fault s) := by
  unfold createOrUpdate
  dsimp only
  split
  · exact .nothing fun _ => Or.inl rfl
  · cases hlive : s.listings.live? c.accountId c.gameBpId with
    | some existing =>
      have hup : (s.listings.update? (·.publishId = existing.publishId)
          (c.again m (py.dumps c.blueprint))).isSome = true := again_isSome hlive
      obtain ⟨t, ht⟩ := Option.isSome_iff_exists.mp hup
      have hidFor : s.idFor c = existing.publishId := by
        unfold Store.idFor
        rw [hlive]
        rfl
      have hout := outcome_blobAndRest fault (written_again hlive ht)
        (Or.inl (by rw [hlive]; rfl))
      unfold blobAndRest at hout
      rw [hidFor] at hout
      simp only [ht]
      exact hout
    | none =>
      dsimp only
      split
      · exact .nothing fun _ => Or.inr (Or.inl rfl)
      · by_cases hchecked : 0 < c.accountId ∧ 0 < c.gameBpId
        · obtain ⟨inserted, hins⟩ := Option.isSome_iff_exists.mp
            (insert?_isSome (m := m) hchecked hlive)
          have hup : (inserted.update? (·.publishId = s.listings.next) (fun r => { r with
              blobPath := blobName r.publishId
              blobBytes := (py.dumps c.blueprint).length })).isSome = true :=
            update?_isSome fun _ _ _ hpublished => hpublished
          obtain ⟨t, ht⟩ := Option.isSome_iff_exists.mp hup
          have hidFor : s.idFor c = s.listings.next := by
            unfold Store.idFor
            rw [hlive]
            rfl
          have hout := outcome_blobAndRest fault (written_first hlive hins ht)
            (Or.inr hchecked)
          unfold blobAndRest at hout
          rw [hidFor] at hout
          simp only [hins, ht]
          exact hout
        · have hnot : ¬Reaches s c := by
            rintro (hsome | hyes)
            · rw [hlive] at hsome
              cases hsome
            · exact hchecked hyes
          cases hins : s.listings.insert? (c.first m) with
          | none => exact .nothing fun hreach => absurd hreach hnot
          | some inserted => exact absurd (insert?_spec hins).1 hchecked

end Publish

/-! ## Runs -/

theorem Inv.written {c : Publish} {entry : Publication} (h : Inv py cat s)
    (hwritten : Written (deriveMetadata py cat c.blueprint) c (py.dumps c.blueprint) s t) :
    Inv py cat ⟨t, entry :: s.log,
      Function.update s.files (blobName (s.idFor c)) (some (py.dumps c.blueprint))⟩ := by
  constructor
  · intro q hq
    rcases hwritten.rows q hq with ⟨hold, -⟩ | ⟨-, hpath, -⟩
    · exact h.path q hold
    · exact hpath
  · intro q hq hlive
    rcases hwritten.rows q hq with ⟨hold, hne⟩ | ⟨hid, hpath, hbytes, hcarries⟩
    · refine (h.backed q hold hlive).congr rfl ?_
      rw [h.path q hold]
      exact Function.update_of_ne (fun heq => hne (blobName_inj heq)) _ _
    · refine ⟨c.blueprint, ?_, hbytes, hcarries⟩
      dsimp only
      rw [hpath, hid, Function.update_self]

theorem Written.follows {m : Metadata} {c : Publish} {body : Bytes} {log : List Publication}
    {files : Files} (h : Written m c body s t) : s.Follows ⟨t, log, files⟩ where
  removed r hr hremoved := by
    obtain ⟨q, hq, hid, hstays, -⟩ := h.kept r hr
    exact ⟨q, hq, hid, hstays hremoved⟩
  downloads r hr := by
    obtain ⟨q, hq, hid, -, hle⟩ := h.kept r hr
    exact ⟨q, hq, hid, hle⟩

theorem update_files_same {name : String} {body : Bytes} (h : s.files name = some body) :
    ({ s with files := Function.update s.files name (some body) } : Store) = s := by
  rw [← h, Function.update_eq_self]

theorem publish_kept (h : Inv py cat s) {c : Publish} {fault : Option Fault}
    (hclean : Clean py s (.publish c fault)) :
    Kept py cat s ((Act.publish c fault).call py cat s) := by
  have hout := outcome_createOrUpdate py (deriveMetadata py cat c.blueprint) c fault s
  unfold Act.call
  dsimp only
  generalize createOrUpdate py (deriveMetadata py cat c.blueprint) c fault s = o at hout
  cases hout with
  | nothing => exact Kept.same h none
  | torn n hfault hreach =>
    subst hfault
    rw [update_files_same (hclean hreach)]
    exact Kept.same h none
  | ahead hfault hreach =>
    subst hfault
    rw [update_files_same (hclean hreach)]
    exact Kept.same h none
  | committed t answer entry hwritten hanswer hlate hreach =>
    refine ⟨h.written hwritten, hwritten.follows, fun hnone => ?_⟩
    have hreread := hanswer.mp (Option.map_eq_none_iff.mp hnone)
    subst hreread
    exact absurd hreach hclean

theorem kept_of_clean (h : Inv py cat s) {a : Act} (hclean : Clean py s a) :
    Kept py cat s (a.call py cat s) := by
  cases a with
  | publish c fault => exact publish_kept h hclean
  | unpublish publishId accountIds now fails =>
    exact unpublish_kept h publishId accountIds now fails
  | adminUnpublish publishId now fails => exact adminUnpublish_kept h publishId now fails
  | adminRepublish publishId now fails => exact adminRepublish_kept h publishId now fails
  | adminRemove publishId now fails refused => exact adminRemove_kept h publishId now fails refused
  | syncTitle accountId gameBpId newTitle oldName now fails =>
    exact syncTitle_kept h accountId gameBpId newTitle oldName now fails
  | download publishId fails => exact incrementDownload_kept h publishId fails

theorem clean_publish {c : Publish} {fault : Option Fault}
    (h : ((Act.publish c fault).call py cat s).1 = none →
      ((Act.publish c fault).call py cat s).2 = s) : Clean py s (.publish c fault) := by
  have hout := outcome_createOrUpdate py (deriveMetadata py cat c.blueprint) c fault s
  unfold Act.call at h
  dsimp only at h
  generalize createOrUpdate py (deriveMetadata py cat c.blueprint) c fault s = o at h hout
  have hfile : ∀ {name : String} {bytes : Bytes},
      ({ s with files := Function.update s.files name (some bytes) } : Store) = s →
        s.files name = some bytes := by
    intro name bytes heq
    have hsame := congrFun (congrArg Store.files heq) name
    exact hsame.symm.trans (Function.update_self _ _ _)
  cases hout with
  | nothing hearly =>
    rcases fault with _ | _ | _ | _ | n | _ | _
    case some.writing => exact fun hreach => by simpa using hearly hreach
    case some.statement => exact fun hreach => by simpa using hearly hreach
    case some.reread => exact fun hreach => by simpa using hearly hreach
    all_goals trivial
  | torn n hfault hreach =>
    subst hfault
    exact fun _ => hfile (h rfl)
  | ahead hfault hreach =>
    subst hfault
    exact fun _ => hfile (h rfl)
  | committed t answer entry hwritten hanswer hlate hreach =>
    rcases fault with _ | _ | _ | _ | n | _ | _
    case some.writing => exact absurd rfl (hlate.2 n)
    case some.statement => exact absurd rfl hlate.1
    case some.reread =>
      have hlog := congrArg Store.log (h (by rw [hanswer.mpr rfl]; rfl))
      exact absurd hlog (List.cons_ne_self _ _)
    all_goals trivial

theorem clean_of_raises {a : Act}
    (h : (a.call py cat s).1 = none → (a.call py cat s).2 = s) : Clean py s a := by
  cases a with
  | publish c fault => exact clean_publish h
  | unpublish => trivial
  | adminUnpublish => trivial
  | adminRepublish => trivial
  | adminRemove => trivial
  | syncTitle => trivial
  | download => trivial

theorem clean_iff_sound (h : Inv py cat s) (a : Act) : Clean py s a ↔ Sound py cat s a := by
  constructor
  · intro hclean
    have hkept := kept_of_clean h hclean
    exact ⟨hkept.inv.consistent, hkept.follows, hkept.raises⟩
  · exact fun hsound => clean_of_raises hsound.raises

/-- Every operation of a run keeps what is promised just when every publish of it is clean. -/
theorem listings_respected_iff (py : Python) (cat : Catalog) (as : List Act) :
    Along (step py cat) (Sound py cat) Store.empty as ↔
      Along (step py cat) (Clean py) Store.empty as := by
  have hkeep : ∀ s a s', Inv py cat s → Clean py s a → step py cat s a = some s' →
      Inv py cat s' := by
    intro s a s' h hclean hstep
    cases hstep
    exact (kept_of_clean h hclean).inv
  exact (Runs.along_iff_along (I := Inv py cat) (fun s a h => clean_iff_sound h a) hkeep
    Inv.empty).symm

/-! ### A publish that fails at its commit -/

def small : Json := .obj [("instances", .arr [])]

def large : Json := .obj [("instances", .arr [.obj [("building_type", .str "Wall")]])]

def plainPython : Python where
  lower := String.toLower
  dumps b :=
    let text := if b = large then "\x7b\"instances\": [\x7b\"building_type\": \"Wall\"\x7d]\x7d"
      else "\x7b\"instances\": []\x7d"
    text.toList.map fun c => UInt8.ofNat c.toNat

def publishing (blueprint : Json) (fault : Option Fault) : Act :=
  .publish ⟨7, "1", "Leto", 3, "Keep", none, blueprint, none, "2026-10-01 12:00:00"⟩ fault

theorem blob_ahead : ∃ s, exec (step plainPython ⟨[], []⟩) Store.empty
    [publishing small none, publishing large (some .statement)] = some s ∧
      ¬s.Consistent plainPython ⟨[], []⟩ := by
  have hrun : (exec (step plainPython ⟨[], []⟩) Store.empty
      [publishing small none, publishing large (some .statement)]).any (fun s =>
        s.listings.rows.rows.any (fun r => decide (r.status = .published) &&
          decide ((s.files r.blobPath).map List.length ≠ some r.blobBytes))) = true := by
    decide
  obtain ⟨s, hs, hrow⟩ := (Option.any_eq_true _ _).mp hrun
  refine ⟨s, hs, fun hcons => ?_⟩
  obtain ⟨r, hr, hmis⟩ := List.any_eq_true.mp hrow
  rw [Bool.and_eq_true, decide_eq_true_eq, decide_eq_true_eq] at hmis
  obtain ⟨blueprint, hfile, hbytes, -⟩ := hcons.backed r hr hmis.1
  exact hmis.2 (by rw [hfile, hbytes]; rfl)

end LastSietch.Blueprints
