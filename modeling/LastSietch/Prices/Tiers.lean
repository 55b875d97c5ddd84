import Mathlib.Data.List.Sort
import LastSietch.Lib.Copies

/-!
# Exchange price history

`market_history`: a price series for each template in three tiers. `capture` stores a point for each
template, and once an hour `rollup` folds the points into hourly rows and those into daily rows, and
`prune` drops what is past each tier's retention. `backfill_from` fills the tiers from the table
that came before them.

Times are epoch seconds, and a template is the integer that `_intern` gave its name.

* `mem_bucketRows`, `bucketRow_perm`: the rows of a fold, which do not depend on the order of what
  is folded.
-/

namespace LastSietch.Prices

def HOUR : Nat := 3600
def DAY : Nat := 86400
def MIN_INTERVAL_SECONDS : Nat := 10 * 60
def RAW_RETENTION : Nat := 48 * HOUR
def HOURLY_RETENTION : Nat := 60 * DAY
def DAILY_RETENTION : Nat := 365 * DAY

def floor (ts step : Nat) : Nat := ts / step * step

/-- `int(round(total / n))`, which divides in floating point. -/
structure Python where
  roundedRatio : Int → Nat → Int

def median (sorted : List Int) : Option Int :=
  let mid := sorted.length / 2
  if sorted = [] then none
  else if sorted.length % 2 = 1 then sorted[mid]?
  else (sorted[mid - 1]?).bind fun a => (sorted[mid]?).map fun b => (a + b) / 2

def mean (py : Python) (values : List Int) : Option Int :=
  if values = [] then none else some (py.roundedRatio values.sum values.length)

/-- What `_Bucket.add` is given. -/
structure Sample where
  minPrice : Option Int
  medianPrice : Option Int
  listingCount : Option Int
  totalQty : Option Int
  samples : Nat
  deriving DecidableEq, Repr

/-- What `_Bucket.fold` gives. -/
structure Folded where
  minPrice : Option Int
  medianPrice : Option Int
  avgListingCount : Option Int
  avgTotalQty : Option Int
  samples : Nat
  deriving DecidableEq, Repr

/-- A `_Bucket` to which the samples were added, folded. -/
def fold (py : Python) (xs : List Sample) : Folded where
  minPrice := (xs.filterMap Sample.minPrice).min?
  medianPrice := median ((xs.filterMap Sample.medianPrice).insertionSort (· ≤ ·))
  avgListingCount := mean py (xs.filterMap Sample.listingCount)
  avgTotalQty := mean py (xs.filterMap Sample.totalQty)
  samples := (xs.map Sample.samples).sum

/-! ## The tiers -/

/-- A row of `mph_raw`. -/
structure Point where
  tpl : Nat
  ts : Nat
  minPrice : Option Int
  medianPrice : Option Int
  listingCount : Option Int
  totalQty : Option Int
  deriving DecidableEq, Repr

/-- A row of `mph_hourly` or `mph_daily`: `start` is `hour_ts` or `day_ts`. -/
structure Row extends Folded where
  tpl : Nat
  start : Nat
  deriving DecidableEq, Repr

abbrev Raw := Table Point (fun p => (p.tpl, p.ts))

abbrev Tier := Table Row (fun r => (r.tpl, r.start))

structure Store where
  raw : Raw
  hourly : Tier
  daily : Tier
  lastRollupHour : Option Nat

def Store.empty : Store := ⟨Table.empty, Table.empty, Table.empty, none⟩

def Point.sample (p : Point) : Sample :=
  ⟨p.minPrice, p.medianPrice, p.listingCount, p.totalQty, 1⟩

def Row.sample (r : Row) : Sample :=
  ⟨r.minPrice, r.medianPrice, r.avgListingCount, r.avgTotalQty, r.samples⟩

def Point.hour (p : Point) : Nat × Nat := (p.tpl, floor p.ts HOUR)

def Row.day (r : Row) : Nat × Nat := (r.tpl, floor r.start DAY)

section Bucket

variable {α : Type} (py : Python) (key : α → Nat × Nat) (sample : α → Sample)

/-- The row of the bucket `k`. -/
def bucketRow (xs : List α) (k : Nat × Nat) : Row where
  toFolded := fold py ((xs.filter (fun x => key x = k)).map sample)
  tpl := k.1
  start := k.2

def bucketRows (xs : List α) : List Row :=
  (xs.map key).dedup.map (bucketRow py key sample xs)

end Bucket

def hourRows (py : Python) : List Point → List Row := bucketRows py Point.hour Point.sample

def dayRows (py : Python) : List Row → List Row := bucketRows py Row.day Row.sample

/-- An element of `aggregate_listings`. -/
structure Quote where
  tpl : Nat
  minPrice : Option Int
  medianPrice : Option Int
  listingCount : Option Int
  totalQty : Option Int
  deriving DecidableEq, Repr

/-- The loop that fills `payload`: `seen` are the templates that are left out. -/
def payload (stamp : Nat) : List Quote → List Nat → List Point
  | [], _ => []
  | q :: qs, seen =>
    if q.tpl ∈ seen then payload stamp qs seen
    else ⟨q.tpl, stamp, q.minPrice, q.medianPrice, q.listingCount, q.totalQty⟩ ::
      payload stamp qs (q.tpl :: seen)

namespace Store

def recent (stamp : Nat) (s : Store) : List Nat :=
  (s.raw.rows.filter (fun p => stamp ≤ p.ts + MIN_INTERVAL_SECONDS)).map Point.tpl

/-- The points that `capture` writes. -/
def captured (stamp : Nat) (quotes : List Quote) (s : Store) : List Point :=
  payload stamp quotes (s.recent stamp)

def rawFloor (sinceHour : Option Nat) : Nat :=
  match sinceHour with
  | some (h + 1) => h * HOUR
  | some 0 | none => 0

/-- The hourly rows of `rollup`. -/
def recomputed (py : Python) (sinceHour : Option Nat) (s : Store) : List Row :=
  hourRows py (s.raw.rows.filter (fun p => rawFloor sinceHour ≤ p.ts))

def dayFloor (hourly : List Row) : Nat := floor ((hourly.map Row.start).min?.getD 0) DAY

def rollup (py : Python) (sinceHour : Option Nat) (s : Store) : Store :=
  let hourly := s.recomputed py sinceHour
  if hourly = [] then s
  else
    let s := { s with hourly := s.hourly.putAll hourly }
    let daily := dayRows py (s.hourly.rows.filter (fun r => dayFloor hourly ≤ r.start))
    { s with daily := s.daily.putAll daily }

def prune (now : Nat) (s : Store) : Store :=
  { s with raw := s.raw.filter (fun p => now ≤ p.ts + RAW_RETENTION),
           hourly := s.hourly.filter (fun r => now ≤ r.start + HOURLY_RETENTION),
           daily := s.daily.filter (fun r => now ≤ r.start + DAILY_RETENTION) }

/-- The gate of `maybe_rollup`. -/
def rollsUp (now : Nat) (s : Store) : Bool := s.lastRollupHour ≠ some (now / HOUR)

def maybeRollup (py : Python) (now : Nat) (s : Store) : Store :=
  if s.rollsUp now then
    { (s.rollup py s.lastRollupHour).prune now with lastRollupHour := some (now / HOUR) }
  else s

def capture (py : Python) (stamp : Nat) (quotes : List Quote) (s : Store) : Store :=
  { s with raw := s.raw.putAll (s.captured stamp quotes) }.maybeRollup py stamp

end Store

def foldedHours (py : Python) (now : Nat) (legacy : List Point) : List Row :=
  hourRows py (legacy.filter (fun p => now ≤ p.ts + DAILY_RETENTION))

/-- `backfill_from` into an empty file. The templates are gone through one by one there, and each
writes only rows of its own. -/
def backfill (py : Python) (now : Nat) (legacy : List Point) : Store where
  raw := Table.empty.putAll (legacy.filter (fun p => now ≤ p.ts + RAW_RETENTION))
  hourly := Table.empty.putAll
    ((foldedHours py now legacy).filter (fun r => now ≤ r.start + HOURLY_RETENTION))
  daily := Table.empty.putAll (dayRows py (foldedHours py now legacy))
  lastRollupHour := none

/-! ## The order of what is folded -/

variable {xs ys : List Int}

theorem min?_perm (h : xs.Perm ys) : xs.min? = ys.min? := by
  cases hx : xs.min? with
  | none =>
    rw [List.min?_eq_none_iff] at hx
    subst hx
    rw [List.nil_perm.mp h]
    rfl
  | some a =>
    obtain ⟨ha, hle⟩ := List.min?_eq_some_iff.mp hx
    exact (List.min?_eq_some_iff.mpr ⟨h.mem_iff.mp ha, fun b hb => hle b (h.mem_iff.mpr hb)⟩).symm

theorem insertionSort_perm (h : xs.Perm ys) :
    xs.insertionSort (· ≤ ·) = ys.insertionSort (· ≤ ·) := by
  refine List.Perm.eq_of_pairwise (fun a b _ _ hab hba => le_antisymm hab hba)
    (List.pairwise_insertionSort _ xs) (List.pairwise_insertionSort _ ys) ?_
  exact ((List.perm_insertionSort _ xs).trans h).trans (List.perm_insertionSort _ ys).symm

theorem mean_perm (py : Python) (h : xs.Perm ys) : mean py xs = mean py ys := by
  unfold mean
  rw [h.sum_eq, h.length_eq]
  by_cases hx : xs = []
  · subst hx
    rw [List.nil_perm.mp h]
  · have hy : ys ≠ [] := by
      rintro rfl
      exact hx (List.perm_nil.mp h)
    rw [if_neg hx, if_neg hy]

theorem fold_perm (py : Python) {xs ys : List Sample} (h : xs.Perm ys) :
    fold py xs = fold py ys := by
  unfold fold
  rw [min?_perm (h.filterMap _), insertionSort_perm (h.filterMap _), mean_perm py (h.filterMap _),
    mean_perm py (h.filterMap _), (h.map _).sum_eq]

section Bucket

variable {α : Type} {py : Python} {key : α → Nat × Nat} {sample : α → Sample}

theorem bucketRow_perm {xs ys : List α} {k : Nat × Nat}
    (h : (xs.filter (fun x => key x = k)).Perm (ys.filter (fun x => key x = k))) :
    bucketRow py key sample xs k = bucketRow py key sample ys k := by
  unfold bucketRow
  rw [fold_perm py (h.map sample)]

theorem mem_bucketRows {xs : List α} {r : Row} : r ∈ bucketRows py key sample xs ↔
    ∃ x ∈ xs, r = bucketRow py key sample xs (key x) := by
  unfold bucketRows
  simp only [List.mem_map, List.mem_dedup]
  constructor
  · rintro ⟨k, ⟨x, hx, rfl⟩, rfl⟩
    exact ⟨x, hx, rfl⟩
  · rintro ⟨x, hx, rfl⟩
    exact ⟨_, ⟨x, hx, rfl⟩, rfl⟩

theorem bucketRows_nodup (xs : List α) :
    ((bucketRows py key sample xs).map (fun r => (r.tpl, r.start))).Nodup := by
  unfold bucketRows
  rw [List.map_map]
  exact (List.map_id _).symm ▸ List.nodup_dedup _

end Bucket

end LastSietch.Prices
