import LastSietch.Lib.Dict
import LastSietch.Lib.Sql
import LastSietch.Portal.StorageMirror

/-!
# Price alerts

`market_watch.py`: a player watches an item and is told when its cheapest listing costs no more than
his price. The watcher asks the mirror of the market for the cheapest prices of all the items that
are watched, some at a time, and goes through the watches with what it got.

The query compares a listing with the watched ids as they are written, while everything after it
ignores case: `prices_exact` is where that makes no difference.
-/

namespace LastSietch.MarketWatch

open Dict Last StorageMirror

/-- `_MARKET_TERM_RE`. -/
structure TemplateId where
  text : List Char
  term : (∀ c ∈ text, c.isAlphanum = true ∨ c = '_' ∨ c = '-') ∧ 2 ≤ text.length ∧
    text.length ≤ 64

theorem TemplateId.eq_of_text {t t' : TemplateId} (h : t.text = t'.text) : t = t' := by
  obtain ⟨text, _⟩ := t
  obtain ⟨text', _⟩ := t'
  cases h
  rfl

instance : DecidableEq TemplateId := fun t t' =>
  decidable_of_iff (t.text = t'.text) ⟨TemplateId.eq_of_text, congrArg TemplateId.text⟩

/-- A row of `portal_market_watch`. -/
structure Watch where
  id : Nat
  discordId : String
  accountId : Nat
  templateId : TemplateId
  nameCached : String
  maxPrice : Int
  armed : Bool
  lastMatchPrice : Option Int
  lastCheckedAt : Option Nat
  lastTriggeredAt : Option Nat

/-- A row of `portal_market_alert`. -/
structure Alert where
  watchId : Nat
  discordId : String
  accountId : Nat
  templateId : TemplateId
  nameCached : String
  thresholdPrice : Int
  matchPrice : Int
  createdAt : Nat

/-- A row of `market_listing`. -/
structure Listing where
  templateId : List Char
  itemPrice : Option Int
  srcSyncedAt : Option Nat

def nocase (t : List Char) : List Char := t.map Char.toLower

/-- `_mirror_market_fresh`. -/
def marketFresh (cfg : Config) (now : Nat) (market : List Listing) : Bool :=
  match market with
  | [] => false
  | l :: _ => !isStale cfg now l.srcSyncedAt

/-- A listing that has a price, as the query reads it. -/
abbrev Priced := List Char × Int

def priced (market : List Listing) : List Priced :=
  market.filterMap fun l => l.itemPrice.map fun p => (l.templateId, p)

def IN_CHUNK : Nat := 400

/-- `tpls[i:i + _IN_CHUNK]` for each `i` of `range(0, len(tpls), _IN_CHUNK)`. -/
def chunks (tpls : List TemplateId) : List (List TemplateId) :=
  (List.range ((tpls.length + (IN_CHUNK - 1)) / IN_CHUNK)).map fun i =>
    (tpls.drop (IN_CHUNK * i)).take IN_CHUNK

/-- `template_id IN (...) COLLATE NOCASE`: the collation is of the result, so that the comparison is
of the texts as they are. -/
def hits (market : List Listing) (chunk : List TemplateId) : List Priced :=
  (priced market).filter fun l => l.1 ∈ chunk.map (·.text)

/-- `MIN(item_price)`, of two rows. -/
def cheaper (a b : Priced) : Bool := a.2 < b.2

/-- `GROUP BY template_id COLLATE NOCASE`, with the row that has the minimum. -/
def groups (rows : List Priced) : List Priced :=
  (rows.map fun l => nocase l.1).dedup.filterMap fun k =>
    pick cheaper (rows.filter fun l => nocase l.1 = k)

/-- `cheapest_prices`, once the market is fresh. The ids come as a set, in some order. -/
def cheapestPrices (market : List Listing) (tpls : List TemplateId) : List Priced :=
  assignAll ((chunks tpls).flatMap fun chunk => groups (hits market chunk))

def pmap (market : List Listing) (tpls : List TemplateId) : List Priced :=
  assignAll ((cheapestPrices market tpls).map fun e => (nocase e.1, e.2))

/-- `pmap.get(w["template_id"].lower())`. -/
def priceOf (market : List Listing) (tpls : List TemplateId) (t : TemplateId) : Option Int :=
  (pmap market tpls).lookup (nocase t.text)

/-! ## What it is to find -/

def pricesOf (market : List Listing) (t : TemplateId) : List Int :=
  ((priced market).filter fun l => nocase l.1 = nocase t.text).map (·.2)

def cheapest (market : List Listing) (t : TemplateId) : Option Int := (pricesOf market t).min?

def Spelled (market : List Listing) (t : TemplateId) : Prop :=
  ∀ l ∈ priced market, nocase l.1 = nocase t.text → l.1 = t.text

variable {market : List Listing} {tpls chunk : List TemplateId} {t : TemplateId}

theorem mem_chunks : (∃ chunk ∈ chunks tpls, t ∈ chunk) ↔ t ∈ tpls := by
  constructor
  · rintro ⟨chunk, hchunk, ht⟩
    obtain ⟨i, _, rfl⟩ := List.mem_map.mp hchunk
    exact List.mem_of_mem_drop (List.mem_of_mem_take ht)
  · intro ht
    obtain ⟨j, hj, rfl⟩ := List.mem_iff_getElem.mp ht
    have hpos : 0 < IN_CHUNK := by decide
    have hsplit := Nat.div_add_mod j IN_CHUNK
    have hmod := Nat.mod_lt j hpos
    refine ⟨_, List.mem_map.mpr ⟨j / IN_CHUNK, List.mem_range.mpr ?_, rfl⟩, ?_⟩
    · unfold IN_CHUNK at *
      omega
    · refine List.mem_take_iff_getElem.mpr ⟨j % IN_CHUNK, ?_, ?_⟩
      · rw [List.length_drop]
        omega
      · rw [List.getElem_drop]
        congr 1

theorem pick_cheaper {rows : List Priced} {e : Priced} (h : pick cheaper rows = some e) :
    ∀ l ∈ rows, cheaper l e = false := by
  refine pick_first (fun a => ?_) (fun a b c hab hbc => ?_) h
  · exact decide_eq_false (Int.lt_irrefl a.2)
  · unfold cheaper at *
    rw [decide_eq_true_eq] at *
    exact Int.lt_trans hab hbc

theorem mem_groups {rows : List Priced} {e : Priced} :
    e ∈ groups rows ↔ ∃ k, pick cheaper (rows.filter fun l => nocase l.1 = k) = some e := by
  unfold groups
  rw [List.mem_filterMap]
  constructor
  · rintro ⟨k, _, he⟩
    exact ⟨k, he⟩
  · rintro ⟨k, he⟩
    obtain ⟨hrow, hk⟩ := List.mem_filter.mp (pick_mem he)
    refine ⟨k, List.mem_dedup.mpr (List.mem_map.mpr ⟨e, hrow, of_decide_eq_true hk⟩), he⟩

theorem mem_pricesOf {p : Int} :
    p ∈ pricesOf market t ↔ ∃ l ∈ priced market, nocase l.1 = nocase t.text ∧ l.2 = p := by
  unfold pricesOf
  simp only [List.mem_map, List.mem_filter, decide_eq_true_eq, and_assoc]

theorem cheapest_of_mem_groups {e : Priced} (he : e ∈ groups (hits market chunk))
    (hkey : nocase e.1 = nocase t.text) (hspelled : Spelled market t) :
    cheapest market t = some e.2 := by
  obtain ⟨k, he⟩ := mem_groups.mp he
  obtain ⟨hhit, hk⟩ := List.mem_filter.mp (pick_mem he)
  have hk : nocase e.1 = k := of_decide_eq_true hk
  obtain ⟨hrow, hasked⟩ := List.mem_filter.mp hhit
  refine List.min?_eq_some_iff.mpr ⟨mem_pricesOf.mpr ⟨e, hrow, hkey, rfl⟩, fun p hp => ?_⟩
  obtain ⟨l, hl, hlkey, rfl⟩ := mem_pricesOf.mp hp
  -- Every listing of the template is one that this query has asked for.
  have hsame : l.1 = e.1 := (hspelled l hl hlkey).trans (hspelled e hrow hkey).symm
  have hlhit : l ∈ hits market chunk := by
    refine List.mem_filter.mpr ⟨hl, ?_⟩
    rw [hsame]
    exact hasked
  have hlmem : l ∈ (hits market chunk).filter fun l => nocase l.1 = k := by
    refine List.mem_filter.mpr ⟨hlhit, decide_eq_true ?_⟩
    rw [hsame]
    exact hk
  exact Int.not_lt.mp (of_decide_eq_false (pick_cheaper he l hlmem))

theorem exists_mem_groups (ht : t ∈ chunk) (hspelled : Spelled market t)
    (hsome : cheapest market t ≠ none) :
    ∃ e ∈ groups (hits market chunk), nocase e.1 = nocase t.text := by
  obtain ⟨p, hp⟩ := Option.ne_none_iff_exists'.mp hsome
  obtain ⟨l, hl, hkey, _⟩ := mem_pricesOf.mp (List.min?_eq_some_iff.mp hp).1
  have hhit : l ∈ hits market chunk := by
    refine List.mem_filter.mpr ⟨hl, decide_eq_true ?_⟩
    rw [hspelled l hl hkey]
    exact List.mem_map.mpr ⟨t, ht, rfl⟩
  have hne : pick cheaper ((hits market chunk).filter fun l => nocase l.1 = nocase t.text) ≠
      none := by
    intro hnone
    have hempty := pick_eq_none.mp hnone
    have hmem : l ∈ (hits market chunk).filter fun l => nocase l.1 = nocase t.text :=
      List.mem_filter.mpr ⟨hhit, decide_eq_true hkey⟩
    rw [hempty] at hmem
    cases hmem
  obtain ⟨e, he⟩ := Option.ne_none_iff_exists'.mp hne
  exact ⟨e, mem_groups.mpr ⟨_, he⟩, of_decide_eq_true (List.mem_filter.mp (pick_mem he)).2⟩

theorem prices_exact (ht : t ∈ tpls) (hspelled : Spelled market t) :
    priceOf market tpls t = cheapest market t := by
  unfold priceOf pmap
  rw [lookup_assignAll]
  have hrow : ∀ e ∈ cheapestPrices market tpls, nocase e.1 = nocase t.text →
      cheapest market t = some e.2 := by
    intro e he hkey
    obtain ⟨chunk, _, he⟩ := List.mem_flatMap.mp (mem_of_mem_assignAll he)
    exact cheapest_of_mem_groups he hkey hspelled
  cases hlast : last (fun e : Priced => e.1 = nocase t.text)
      ((cheapestPrices market tpls).map fun e => (nocase e.1, e.2)) with
  | some f =>
    obtain ⟨hmem, hkey⟩ := mem_of_last hlast
    obtain ⟨e, he, rfl⟩ := List.mem_map.mp hmem
    exact (hrow e he (of_decide_eq_true hkey)).symm
  | none =>
    by_contra hne
    have hsome : cheapest market t ≠ none := fun hnone => hne hnone.symm
    obtain ⟨chunk, hchunk, htchunk⟩ := mem_chunks.mpr ht
    obtain ⟨e, he, hkey⟩ := exists_mem_groups htchunk hspelled hsome
    have hasked : e ∈ (chunks tpls).flatMap fun chunk => groups (hits market chunk) :=
      List.mem_flatMap.mpr ⟨chunk, hchunk, he⟩
    obtain ⟨f, hf, hfkey⟩ := exists_mem_assignAll hasked
    have hmem : (nocase f.1, f.2) ∈ (cheapestPrices market tpls).map fun e => (nocase e.1, e.2) :=
      List.mem_map.mpr ⟨f, hf, rfl⟩
    obtain ⟨x, hx⟩ := @last_isSome _ (fun e : Priced => decide (e.1 = nocase t.text)) _ _ hmem
      (decide_eq_true (by rw [hfkey]; exact hkey))
    rw [hlast] at hx
    cases hx

end LastSietch.MarketWatch
