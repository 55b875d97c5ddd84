import Mathlib.Data.List.Perm.Subperm
import LastSietch.Lib.Runs
import LastSietch.Prices.Tiers

/-!
# Incremental rollup

Runs of captures on a file that may have been backfilled first. A process keeps nothing between two
captures, so that a restart changes nothing.

The hour in which the raw tier of a backfill begins is cut in two: the backfill folds all of it, and
stores its second part in `mph_raw`. The first capture folds that part alone.

* `Inv`: what holds between the tiers and the points that were ever captured or backfilled.
* `torn_hour`: an hour with a point on either side of the cut.
-/

namespace LastSietch.Prices

open Runs (exec Along)

/-! ## The system -/

/-- The file, with what becomes of it: `ever` are all points, `written` the hourly rows as they were
last folded, pruned or not, `rolled` is the time of the last rollup, and `now` that of the last
event. -/
structure Sys where
  store : Store
  ever : List Point
  written : Tier
  rolled : Option Nat
  now : Nat

abbrev Backfill := Option (Nat × List Point)

def Sys.start (py : Python) : Backfill → Sys
  | none => ⟨.empty, [], Table.empty, none, 0⟩
  | some (now, legacy) =>
    ⟨backfill py now legacy, legacy, Table.empty.putAll (foldedHours py now legacy), none, now⟩

inductive Event
  | capture (stamp : Nat) (quotes : List Quote)
  | restart

def Sys.insert (stamp : Nat) (quotes : List Quote) (s : Sys) : Sys :=
  let points := s.store.captured stamp quotes
  { s with store := { s.store with raw := s.store.raw.putAll points }, ever := points ++ s.ever,
           now := stamp }

def Sys.roll (py : Python) (s : Sys) : Sys :=
  { s with store := s.store.maybeRollup py s.now,
           written := s.written.putAll (s.store.recomputed py s.store.lastRollupHour),
           rolled := some s.now }

def step (py : Python) (s : Sys) : Event → Option Sys
  | .restart => some s
  | .capture stamp quotes =>
    let s := s.insert stamp quotes
    some (if s.store.rollsUp stamp then s.roll py else s)

def hourRow (py : Python) (ps : List Point) (k : Nat × Nat) : Row :=
  bucketRow py Point.hour Point.sample ps k

def dayRow (py : Python) (rs : List Row) (k : Nat × Nat) : Row :=
  bucketRow py Row.day Row.sample rs k

def Row.key (r : Row) : Nat × Nat := (r.tpl, r.start)

/-- An hourly row whose hour ended before the last rollup is the fold of all points of its hour, and
a daily row that of the hourly rows of its day, which are there until they are pruned. -/
structure Sys.Exact (py : Python) (s : Sys) : Prop where
  hourly : ∀ r ∈ s.store.hourly, ∀ t ∈ s.rolled, r.start + HOUR ≤ t → r = hourRow py s.ever r.key
  daily : ∀ r ∈ s.store.daily, ∀ t ∈ s.rolled, r.start < floor t DAY →
    r = dayRow py s.written.rows r.key
  kept : ∀ t ∈ s.rolled, ∀ r, r ∈ s.store.hourly ↔ r ∈ s.written ∧ t ≤ r.start + HOURLY_RETENTION

/-- `mph_raw` has points of the hour from the backfill, but not all: one is from before the raw
retention, or two are of one second. -/
def Torn (start : Backfill) (k : Nat × Nat) : Prop :=
  ∃ now legacy, start = some (now, legacy) ∧
    (∃ p ∈ legacy, p.hour = k ∧ now ≤ p.ts + RAW_RETENTION) ∧
    ¬ ((∀ p ∈ legacy, p.hour = k → now ≤ p.ts + RAW_RETENTION) ∧
      ((legacy.filter (fun p => p.hour = k)).map Point.ts).Nodup)

/-! ## The raw tier -/

section Raw

variable {py : Python} {s : Store}

theorem payload_spec (stamp : Nat) (qs : List Quote) (seen : List Nat) :
    (∀ p ∈ payload stamp qs seen, p.ts = stamp ∧ p.tpl ∉ seen) ∧
      ((payload stamp qs seen).map Point.tpl).Nodup := by
  induction qs generalizing seen with
  | nil => exact ⟨fun p hp => absurd hp List.not_mem_nil, List.nodup_nil⟩
  | cons q qs ih =>
    unfold payload
    split
    · exact ih seen
    · rename_i hnew
      obtain ⟨hrest, hnodup⟩ := ih (q.tpl :: seen)
      refine ⟨List.forall_mem_cons.mpr ⟨⟨rfl, hnew⟩, fun p hp => ?_⟩, ?_⟩
      · obtain ⟨hts, hseen⟩ := hrest p hp
        exact ⟨hts, fun h => hseen (List.mem_cons_of_mem _ h)⟩
      · refine List.nodup_cons.mpr ⟨fun h => ?_, hnodup⟩
        obtain ⟨p, hp, htpl⟩ := List.mem_map.mp h
        exact (hrest p hp).2 (htpl ▸ List.mem_cons_self ..)

theorem captured_fresh {stamp : Nat} {quotes : List Quote} {p : Point}
    (hp : p ∈ s.captured stamp quotes) :
    p.ts = stamp ∧ ∀ q ∈ s.raw, (q.tpl, q.ts) ≠ (p.tpl, p.ts) := by
  obtain ⟨hts, hrecent⟩ := (payload_spec ..).1 p hp
  refine ⟨hts, fun q hq hkey => hrecent ?_⟩
  obtain ⟨htpl, hqts⟩ := Prod.mk.inj hkey
  refine List.mem_map.mpr ⟨q, List.mem_filter.mpr ⟨hq, decide_eq_true ?_⟩, htpl⟩
  omega

theorem insert_perm (stamp : Nat) (quotes : List Quote) (s : Store) :
    (s.raw.putAll (s.captured stamp quotes)).rows.Perm (s.captured stamp quotes ++ s.raw.rows) := by
  have htpls := (payload_spec stamp quotes (s.recent stamp)).2
  have hkeys : ((s.captured stamp quotes).map (fun p => (p.tpl, p.ts))).Nodup := by
    refine List.Nodup.of_map Prod.fst ?_
    rw [List.map_map]
    exact htpls
  refine (List.perm_ext_iff_of_nodup (Table.unique _).of_map ?_).mpr (fun p => ?_)
  · refine List.nodup_append.mpr ⟨htpls.of_map _, s.raw.unique.of_map _, fun p hp q hq hpq => ?_⟩
    exact (captured_fresh hp).2 q hq (by rw [hpq])
  · rw [← Table.mem_def, Table.mem_putAll hkeys, List.mem_append]
    refine or_congr Iff.rfl ⟨And.left, fun hp => ⟨hp, fun q hq hkey => ?_⟩⟩
    exact (captured_fresh hq).2 p hp hkey.symm

variable {since : Option Nat}

theorem rawFloor_le {ts : Nat} :
    Store.rawFloor since ≤ floor ts HOUR ↔ Store.rawFloor since ≤ ts := by
  unfold Store.rawFloor floor HOUR
  split <;> omega

theorem filter_hour {ps : List Point} {k : Nat × Nat} (hk : Store.rawFloor since ≤ k.2) :
    (ps.filter (fun p => Store.rawFloor since ≤ p.ts)).filter (fun p => p.hour = k) =
      ps.filter (fun p => p.hour = k) := by
  rw [List.filter_filter]
  refine List.filter_congr (fun p _ => ?_)
  by_cases hp : p.hour = k
  · have hts : Store.rawFloor since ≤ p.ts := rawFloor_le.mp (by rw [← hp] at hk; exact hk)
    simp [hp, hts]
  · simp [hp]

theorem mem_recomputed {r : Row} : r ∈ s.recomputed py since ↔
    ∃ p ∈ s.raw, Store.rawFloor since ≤ p.hour.2 ∧ r = hourRow py s.raw.rows p.hour := by
  unfold Store.recomputed hourRows
  rw [mem_bucketRows]
  have hsame : ∀ p : Point, Store.rawFloor since ≤ p.hour.2 →
      bucketRow py Point.hour Point.sample
        (s.raw.rows.filter (fun p => Store.rawFloor since ≤ p.ts)) p.hour =
      hourRow py s.raw.rows p.hour :=
    fun p hp => bucketRow_perm (by rw [filter_hour hp])
  constructor
  · rintro ⟨p, hp, rfl⟩
    obtain ⟨hp, hfloor⟩ := List.mem_filter.mp hp
    have hfloor := rawFloor_le.mpr (of_decide_eq_true hfloor)
    exact ⟨p, hp, hfloor, hsame p hfloor⟩
  · rintro ⟨p, hp, hfloor, rfl⟩
    refine ⟨p, List.mem_filter.mpr ⟨hp, ?_⟩, (hsame p hfloor).symm⟩
    exact decide_eq_true (rawFloor_le.mp hfloor)

variable (py) in
theorem hourRow_recomputed {p : Point} (hp : p ∈ s.raw) (hfloor : Store.rawFloor since ≤ p.hour.2) :
    hourRow py s.raw.rows p.hour ∈ s.recomputed py since :=
  mem_recomputed.mpr ⟨p, hp, hfloor, rfl⟩

@[simp] theorem hourRow_key (ps : List Point) (k : Nat × Nat) : (hourRow py ps k).key = k := rfl

@[simp] theorem dayRow_key (rs : List Row) (k : Nat × Nat) : (dayRow py rs k).key = k := rfl

theorem hourRow_samples (ps : List Point) (k : Nat × Nat) :
    (hourRow py ps k).samples = (ps.filter (fun p => p.hour = k)).length := by
  show (((ps.filter (fun p => p.hour = k)).map Point.sample).map Sample.samples).sum = _
  have hone : Sample.samples ∘ Point.sample = fun _ => 1 := rfl
  rw [List.map_map, hone, List.map_const', List.sum_replicate]
  exact Nat.mul_one _

theorem recomputed_nodup (since : Option Nat) :
    ((s.recomputed py since).map (fun r => (r.tpl, r.start))).Nodup := bucketRows_nodup _

theorem rollup_hourly (since : Option Nat) :
    (s.rollup py since).hourly = s.hourly.putAll (s.recomputed py since) := by
  unfold Store.rollup
  dsimp only
  split
  · rename_i hnil
    rw [hnil]
    rfl
  · rfl

theorem rollup_raw (since : Option Nat) : (s.rollup py since).raw = s.raw := by
  unfold Store.rollup
  dsimp only
  split <;> rfl

/-! ## The daily tier -/

theorem floor_le (ts step : Nat) : floor ts step ≤ ts := Nat.div_mul_le_self ts step

theorem dayFloor_spec {hourly : List Row} (h : hourly ≠ []) :
    (∃ r ∈ hourly, Store.dayFloor hourly = floor r.start DAY) ∧
      ∀ r ∈ hourly, Store.dayFloor hourly ≤ r.start := by
  unfold Store.dayFloor
  cases hmin : (hourly.map Row.start).min? with
  | none => exact absurd (List.map_eq_nil_iff.mp (List.min?_eq_none_iff.mp hmin)) h
  | some m =>
    obtain ⟨hm, hle⟩ := List.min?_eq_some_iff.mp hmin
    obtain ⟨r, hr, rfl⟩ := List.mem_map.mp hm
    exact ⟨⟨r, hr, rfl⟩, fun q hq => (floor_le _ _).trans (hle _ (List.mem_map.mpr ⟨q, hq, rfl⟩))⟩

theorem rollup_daily (h : s.recomputed py since ≠ []) :
    (s.rollup py since).daily = s.daily.putAll (dayRows py
      ((s.rollup py since).hourly.rows.filter
        (fun r => Store.dayFloor (s.recomputed py since) ≤ r.start))) := by
  rw [rollup_hourly]
  unfold Store.rollup
  dsimp only
  rw [if_neg h]

theorem rows_nodup {α κ : Type} {key : α → κ} (t : Table α key) (p : α → Bool) :
    (t.rows.filter p).Nodup := (t.unique.of_map _).filter p

theorem rollup_daily_exact {w : Tier} {cutoff : Option Nat}
    (hwritten : ∀ r, r ∈ s.hourly ↔ r ∈ w ∧ ∀ c ∈ cutoff, c ≤ r.start + HOURLY_RETENTION)
    (hlate : ∀ r ∈ s.recomputed py since, ∀ c ∈ cutoff, c ≤ floor r.start DAY + HOURLY_RETENTION)
    (hdaily : ∀ r ∈ s.daily, r = dayRow py w.rows r.key) :
    ∀ r ∈ (s.rollup py since).daily,
      r = dayRow py (w.putAll (s.recomputed py since)).rows r.key := by
  by_cases hnil : s.recomputed py since = []
  · have hsame : s.rollup py since = s := by
      unfold Store.rollup
      dsimp only
      rw [if_pos hnil]
    rw [hsame, hnil]
    exact hdaily
  obtain ⟨⟨first, hfirst, hfloor⟩, hfrom⟩ := dayFloor_spec hnil
  have hcommon : ∀ r : Row, Store.dayFloor (s.recomputed py since) ≤ r.start →
      (r ∈ (s.rollup py since).hourly ↔ r ∈ w.putAll (s.recomputed py since)) := by
    intro r hr
    have hkept : ∀ c ∈ cutoff, c ≤ r.start + HOURLY_RETENTION := by
      intro c hc
      have hc := hlate first hfirst c hc
      rw [← hfloor] at hc
      omega
    rw [rollup_hourly, Table.mem_putAll (recomputed_nodup _), Table.mem_putAll (recomputed_nodup _)]
    refine or_congr Iff.rfl (and_congr ?_ Iff.rfl)
    rw [hwritten]
    exact ⟨And.left, fun h => ⟨h, hkept⟩⟩
  intro r hr
  rw [rollup_daily hnil, dayRows, Table.mem_putAll (bucketRows_nodup _)] at hr
  rcases hr with hr | ⟨hr, hother⟩
  · obtain ⟨x, hx, rfl⟩ := mem_bucketRows.mp hr
    have hx := of_decide_eq_true (List.mem_filter.mp hx).2
    refine bucketRow_perm ((List.perm_ext_iff_of_nodup ?_ (rows_nodup _ _)).mpr (fun y => ?_))
    · exact (rows_nodup _ _).filter _
    · show _ ↔ y ∈ List.filter (fun y => y.day = x.day) _
      simp only [List.mem_filter, decide_eq_true_iff]
      have hday : y.day = x.day → Store.dayFloor (s.recomputed py since) ≤ y.start := by
        intro hyx
        have hstart : floor y.start DAY = floor x.start DAY := (Prod.mk.inj hyx).2
        rw [hfloor] at hx ⊢
        unfold floor DAY at *
        omega
      constructor
      · rintro ⟨⟨hy, -⟩, hyx⟩
        exact ⟨(hcommon y (hday hyx)).mp hy, hyx⟩
      · rintro ⟨hy, hyx⟩
        exact ⟨⟨(hcommon y (hday hyx)).mpr hy, hday hyx⟩, hyx⟩
  · refine (hdaily r hr).trans (bucketRow_perm ?_)
    -- a recomputed hour of this day would have brought a row for the day
    have hnone : ∀ y ∈ s.recomputed py since, y.day ≠ r.key := by
      intro y hy hday
      have hmem : y ∈ (s.rollup py since).hourly := by
        rw [rollup_hourly]
        exact (Table.mem_putAll (recomputed_nodup _)).mpr (Or.inl hy)
      refine hother _ (mem_bucketRows.mpr ⟨y, ?_, rfl⟩) hday
      exact List.mem_filter.mpr ⟨hmem, decide_eq_true (hfrom y hy)⟩
    refine (List.perm_ext_iff_of_nodup (rows_nodup _ _) (rows_nodup _ _)).mpr (fun y => ?_)
    simp only [List.mem_filter, decide_eq_true_iff]
    refine and_congr_left (fun hday => ?_)
    rw [← Table.mem_def, ← Table.mem_def, Table.mem_putAll (recomputed_nodup _)]
    constructor
    · refine fun hy => Or.inr ⟨hy, fun q hq hkey => hnone q hq ?_⟩
      obtain ⟨htpl, hstart⟩ := Prod.mk.inj hkey
      rw [← hday, Row.day, Row.day, htpl, hstart]
    · rintro (hy | ⟨hy, -⟩)
      · exact absurd hday (hnone y hy)
      · exact hy

end Raw

/-- The points of the hour `k` that are in the raw tier, or ever were. -/
def rawIn (s : Sys) (k : Nat × Nat) : List Point := s.store.raw.rows.filter (fun p => p.hour = k)

def everIn (s : Sys) (k : Nat × Nat) : List Point := s.ever.filter (fun p => p.hour = k)

def Sys.cutoff (start : Backfill) (s : Sys) : Option Nat := s.rolled.or (start.map Prod.fst)

/-- `rawFloor` of the next rollup. -/
def Sys.bound (s : Sys) : Nat := Store.rawFloor s.store.lastRollupHour

structure Inv (py : Python) (start : Backfill) (s : Sys) : Prop where
  hour : s.store.lastRollupHour = s.rolled.map (fun t => t / HOUR)
  past : ∀ t ∈ s.rolled, t ≤ s.now
  begun : ∀ now legacy, start = some (now, legacy) → now ≤ s.now ∧
    (s.rolled = none → ∀ p ∈ s.store.raw, now ≤ p.ts + RAW_RETENTION)
  points : ∀ k, ¬ Torn start k → s.bound ≤ k.2 →
    (rawIn s k).Perm (everIn s k) ∨ rawIn s k = [] ∧ k.2 < floor s.now HOUR
  stale : ∀ r ∈ s.store.hourly, ¬ Torn start r.key →
    rawIn s r.key = [] ∨ r.start < s.bound → r = hourRow py s.ever r.key
  settled : ∀ r ∈ s.store.hourly, ¬ Torn start r.key → ∀ t ∈ s.rolled, r.start + HOUR ≤ t →
    r = hourRow py s.ever r.key
  torn : ∀ k, Torn start k → (rawIn s k).length < (everIn s k).length ∧
    (s.rolled = none → rawIn s k ≠ []) ∧
    ∀ t ∈ s.rolled, (∃ r ∈ s.store.hourly, r.key = k ∧ r.samples < (everIn s k).length) ∨
      k.2 + HOURLY_RETENTION < t
  written : ∀ r, r ∈ s.store.hourly ↔
    r ∈ s.written ∧ ∀ c ∈ s.cutoff start, c ≤ r.start + HOURLY_RETENTION
  daily : ∀ r ∈ s.store.daily, r = dayRow py s.written.rows r.key

/-! ## The backfill -/

theorem mem_raw_backfill {py : Python} {now : Nat} {legacy : List Point} {p : Point}
    (hp : p ∈ (backfill py now legacy).raw) : p ∈ legacy ∧ now ≤ p.ts + RAW_RETENTION := by
  have hp := (Table.of_mem_putAll hp).resolve_right (Table.not_mem_empty p)
  obtain ⟨hp, hts⟩ := List.mem_filter.mp hp
  exact ⟨hp, of_decide_eq_true hts⟩

theorem ts_nodup (t : Raw) (k : Nat × Nat) :
    ((t.rows.filter (fun p => p.hour = k)).map Point.ts).Nodup := by
  have hkeys : ((t.rows.filter (fun p => p.hour = k)).map (fun p => (p.tpl, p.ts))).Nodup :=
    t.unique.sublist (List.filter_sublist.map _)
  refine (List.nodup_map_iff_inj_on (hkeys.of_map _)).mpr (fun p hp q hq hts => ?_)
  have hhour : p.hour = q.hour :=
    (of_decide_eq_true (List.mem_filter.mp hp).2).trans
      (of_decide_eq_true (List.mem_filter.mp hq).2).symm
  exact List.inj_on_of_nodup_map hkeys hp hq (Prod.ext (Prod.mk.inj hhour).1 hts)

theorem rawIn_backfill {py : Python} {now : Nat} {legacy : List Point} {k : Nat × Nat} :
    let s := Sys.start py (some (now, legacy))
    (Torn (some (now, legacy)) k → rawIn s k ≠ [] ∧ (rawIn s k).length < (everIn s k).length) ∧
    (¬ Torn (some (now, legacy)) k → (rawIn s k).Perm (everIn s k) ∨
      rawIn s k = [] ∧ k.2 < floor s.now HOUR) := by
  intro s
  have hraw : ∀ p ∈ rawIn s k, p ∈ everIn s k ∧ now ≤ p.ts + RAW_RETENTION := by
    intro p hp
    obtain ⟨hp, hk⟩ := List.mem_filter.mp hp
    obtain ⟨hlegacy, hts⟩ := mem_raw_backfill hp
    exact ⟨List.mem_filter.mpr ⟨hlegacy, hk⟩, hts⟩
  have hever : ∀ p, p ∈ everIn s k ↔ p ∈ legacy ∧ p.hour = k := by
    intro p
    rw [everIn, List.mem_filter, decide_eq_true_iff]
    rfl
  have hstored : ∀ p ∈ legacy, now ≤ p.ts + RAW_RETENTION →
      ∃ q ∈ s.store.raw, (q.tpl, q.ts) = (p.tpl, p.ts) :=
    fun p hp hts => Table.exists_putAll (Or.inl (List.mem_filter.mpr ⟨hp, decide_eq_true hts⟩))
  have hnonempty : ∀ p ∈ legacy, p.hour = k → now ≤ p.ts + RAW_RETENTION → rawIn s k ≠ [] := by
    intro p hp hk hts hnil
    obtain ⟨q, hq, hkey⟩ := hstored p hp hts
    obtain ⟨htpl, hqts⟩ := Prod.mk.inj hkey
    have hqk : q ∈ rawIn s k := by
      refine List.mem_filter.mpr ⟨hq, decide_eq_true ?_⟩
      rw [← hk, Point.hour, Point.hour, htpl, hqts]
    exact List.not_mem_nil (hnil ▸ hqk)
  have hnodup : (rawIn s k).Nodup := (ts_nodup s.store.raw k).of_map _
  constructor
  · rintro ⟨now', legacy', heq, ⟨p, hp, hk, hts⟩, hpart⟩
    cases heq
    refine ⟨hnonempty p hp hk hts, Nat.lt_of_not_le (fun hle => hpart ?_)⟩
    have hsub : (rawIn s k).Subperm (everIn s k) :=
      hnodup.subperm (fun p hp => (hraw p hp).1)
    have hperm := hsub.perm_of_length_le hle
    refine ⟨fun p hp hk => (hraw p (hperm.mem_iff.mpr ((hever p).mpr ⟨hp, hk⟩))).2, ?_⟩
    exact ((hperm.map Point.ts).nodup_iff).mp (ts_nodup s.store.raw k)
  · intro hwhole
    by_cases hany : ∃ p ∈ legacy, p.hour = k ∧ now ≤ p.ts + RAW_RETENTION
    · obtain ⟨hall, hts⟩ : (∀ p ∈ legacy, p.hour = k → now ≤ p.ts + RAW_RETENTION) ∧
          ((legacy.filter (fun p => p.hour = k)).map Point.ts).Nodup := by
        by_contra hpart
        exact hwhole ⟨now, legacy, rfl, hany, hpart⟩
      refine Or.inl ((List.perm_ext_iff_of_nodup hnodup (hts.of_map _)).mpr (fun p => ?_))
      refine ⟨fun hp => (hraw p hp).1, fun hp => ?_⟩
      obtain ⟨hlegacy, hk⟩ := (hever p).mp hp
      refine List.mem_filter.mpr ⟨?_, decide_eq_true hk⟩
      refine Table.mem_putAll_of_sole
        (Or.inl (List.mem_filter.mpr ⟨hlegacy, decide_eq_true (hall p hlegacy hk)⟩)) ?_
      intro q hq hkey
      obtain ⟨htpl, hqts⟩ := Prod.mk.inj hkey
      have hqk : q ∈ everIn s k := by
        refine (hever q).mpr ⟨(List.mem_filter.mp hq).1, ?_⟩
        rw [← hk, Point.hour, Point.hour, htpl, hqts]
      exact List.inj_on_of_nodup_map hts hqk hp hqts
    · have hnil : rawIn s k = [] := by
        refine List.eq_nil_iff_forall_not_mem.mpr (fun p hp => hany ?_)
        obtain ⟨hp, hts⟩ := hraw p hp
        obtain ⟨hlegacy, hk⟩ := (hever p).mp hp
        exact ⟨p, hlegacy, hk, hts⟩
      cases hcase : everIn s k with
      | nil => exact Or.inl (by rw [hnil])
      | cons p ps =>
        obtain ⟨hlegacy, hk⟩ := (hever p).mp (hcase ▸ List.mem_cons_self ..)
        have hold : ¬ now ≤ p.ts + RAW_RETENTION := fun hts => hany ⟨p, hlegacy, hk, hts⟩
        refine Or.inr ⟨hnil, ?_⟩
        rw [← hk]
        show floor p.ts HOUR < floor now HOUR
        unfold RAW_RETENTION floor HOUR at *
        omega

theorem floor_mono {a b : Nat} (step : Nat) (h : a ≤ b) : floor a step ≤ floor b step :=
  Nat.mul_le_mul_right step (Nat.div_le_div_right h)

section Steps

variable {py : Python} {start : Backfill} {s : Sys}

theorem bound_eq (h : Inv py start s) : s.bound = match s.rolled with
    | none => 0
    | some t => floor t HOUR - HOUR := by
  unfold Sys.bound Store.rawFloor floor
  rw [h.hour]
  cases s.rolled with
  | none => rfl
  | some t =>
    simp only [Option.map_some]
    cases t / HOUR with
    | zero => rw [Nat.zero_mul, Nat.zero_sub]
    | succ n => rw [Nat.succ_mul, Nat.add_sub_cancel]

theorem bound_le (h : Inv py start s) : s.bound ≤ floor s.now HOUR - HOUR := by
  rw [bound_eq h]
  cases hr : s.rolled with
  | none => exact Nat.zero_le _
  | some t => exact Nat.sub_le_sub_right (floor_mono HOUR (h.past t hr)) HOUR

/-- A capture adds the same points to the file and to the points that ever were, in the hour of the
capture. -/
theorem insert_hours (stamp : Nat) (quotes : List Quote) (s : Sys) (k : Nat × Nat) :
    ∃ new, (rawIn (s.insert stamp quotes) k).Perm (new ++ rawIn s k) ∧
      everIn (s.insert stamp quotes) k = new ++ everIn s k ∧
        (new ≠ [] → k.2 = floor stamp HOUR) := by
  refine ⟨(s.store.captured stamp quotes).filter (fun p => p.hour = k), ?_, ?_, fun hnew => ?_⟩
  · have hperm := (insert_perm stamp quotes s.store).filter (fun p => p.hour = k)
    rw [List.filter_append] at hperm
    exact hperm
  · exact List.filter_append ..
  · obtain ⟨p, hp⟩ := List.exists_mem_of_ne_nil _ hnew
    obtain ⟨hp, hk⟩ := List.mem_filter.mp hp
    rw [← of_decide_eq_true hk, ← (captured_fresh hp).1]
    rfl

theorem insert_everIn {stamp : Nat} {quotes : List Quote} {k : Nat × Nat}
    (h : k.2 ≠ floor stamp HOUR) : everIn (s.insert stamp quotes) k = everIn s k ∧
      (rawIn (s.insert stamp quotes) k = [] ↔ rawIn s k = []) := by
  obtain ⟨new, hraw, hever, hnew⟩ := insert_hours stamp quotes s k
  have hnil : new = [] := by
    by_contra hne
    exact h (hnew hne)
  subst hnil
  exact ⟨hever, ⟨fun h => List.nil_perm.mp (h ▸ hraw), fun h => List.perm_nil.mp (h ▸ hraw)⟩⟩

theorem hourRow_congr {s s' : Sys} {k : Nat × Nat} (h : everIn s' k = everIn s k) :
    hourRow py s'.ever k = hourRow py s.ever k := bucketRow_perm (List.Perm.of_eq h)

theorem Inv.insert (h : Inv py start s) {stamp : Nat} {quotes : List Quote}
    (hnow : s.now ≤ stamp) : Inv py start (s.insert stamp quotes) where
  hour := h.hour
  past t ht := (h.past t ht).trans hnow
  begun now legacy hstart := by
    obtain ⟨hle, hraw⟩ := h.begun now legacy hstart
    refine ⟨hle.trans hnow, fun hrolled p hp => ?_⟩
    rcases List.mem_append.mp ((insert_perm stamp quotes s.store).mem_iff.mp hp) with hp | hp
    · rw [(captured_fresh hp).1]
      omega
    · exact hraw hrolled p hp
  points k hk hbound := by
    obtain ⟨new, hraw, hever, hnew⟩ := insert_hours stamp quotes s k
    rcases h.points k hk hbound with hperm | ⟨hnil, hlt⟩
    · exact Or.inl (hever ▸ hraw.trans (hperm.append_left new))
    · have hlt : k.2 < floor stamp HOUR := hlt.trans_le (floor_mono HOUR hnow)
      exact Or.inr ⟨(insert_everIn hlt.ne).2.mpr hnil, hlt⟩
  stale r hr hk hstale := by
    have hever : everIn (s.insert stamp quotes) r.key = everIn s r.key ∧
        (rawIn s r.key = [] ∨ r.start < s.bound) := by
      rcases hstale with hnil | hlt
      · obtain ⟨new, hraw, hever, -⟩ := insert_hours stamp quotes s r.key
        obtain ⟨rfl, hnil⟩ := List.append_eq_nil_iff.mp (List.nil_perm.mp (hnil ▸ hraw))
        exact ⟨hever, Or.inl hnil⟩
      · have hfloor := ((bound_le h).trans (Nat.sub_le _ _)).trans (floor_mono HOUR hnow)
        exact ⟨(insert_everIn (hlt.trans_le hfloor).ne).1, Or.inr hlt⟩
    exact (h.stale r hr hk hever.2).trans (hourRow_congr hever.1).symm
  settled r hr hk t ht hended := by
    have hne : r.start ≠ floor stamp HOUR := by
      have hpast := h.past t ht
      unfold floor HOUR at *
      omega
    exact (h.settled r hr hk t ht hended).trans (hourRow_congr (insert_everIn hne).1).symm
  torn k hk := by
    obtain ⟨hlt, hsome, hrow⟩ := h.torn k hk
    obtain ⟨new, hraw, hever, -⟩ := insert_hours stamp quotes s k
    have hlen := hraw.length_eq
    rw [List.length_append] at hlen
    rw [hever, List.length_append]
    refine ⟨by omega, fun hrolled hnil => hsome hrolled ?_, fun t ht => ?_⟩
    · exact (List.append_eq_nil_iff.mp (List.nil_perm.mp (hnil ▸ hraw))).2
    · refine (hrow t ht).imp_left ?_
      rintro ⟨r, hr, hkey, hsamples⟩
      exact ⟨r, hr, hkey, by omega⟩
  written := h.written
  daily := h.daily

theorem roll_store (hrolls : s.store.rollsUp s.now = true) : (s.roll py).store =
    { (s.store.rollup py s.store.lastRollupHour).prune s.now with
      lastRollupHour := some (s.now / HOUR) } := if_pos hrolls

theorem rawIn_roll (hrolls : s.store.rollsUp s.now = true) (k : Nat × Nat) :
    rawIn (s.roll py) k = (rawIn s k).filter (fun p => s.now ≤ p.ts + RAW_RETENTION) := by
  unfold rawIn
  rw [roll_store hrolls, List.filter_comm]
  exact congrArg _ (congrArg _ (congrArg Table.rows (rollup_raw _)))

theorem mem_roll_hourly (hrolls : s.store.rollsUp s.now = true) {r : Row} :
    r ∈ (s.roll py).store.hourly ↔
      (r ∈ s.store.recomputed py s.store.lastRollupHour ∨ r ∈ s.store.hourly ∧
        ∀ q ∈ s.store.recomputed py s.store.lastRollupHour, q.key ≠ r.key) ∧
      s.now ≤ r.start + HOURLY_RETENTION := by
  rw [roll_store hrolls]
  show r ∈ (s.store.rollup py s.store.lastRollupHour).hourly.filter _ ↔ _
  rw [Table.mem_filter, rollup_hourly, Table.mem_putAll (recomputed_nodup _), decide_eq_true_iff]
  rfl

theorem roll_exact (h : Inv py start s) (hrolls : s.store.rollsUp s.now = true) {r : Row}
    (hr : r ∈ (s.roll py).store.hourly) (hk : ¬ Torn start r.key) :
    r = hourRow py s.ever r.key := by
  rcases ((mem_roll_hourly hrolls).mp hr).1 with hnew | ⟨hold, hother⟩
  · obtain ⟨p, hp, hfloor, rfl⟩ := mem_recomputed.mp hnew
    rcases h.points p.hour hk hfloor with hperm | ⟨hnil, -⟩
    · exact bucketRow_perm hperm
    · have hp : p ∈ rawIn s p.hour := List.mem_filter.mpr ⟨hp, decide_eq_true rfl⟩
      exact absurd (hnil ▸ hp) List.not_mem_nil
  · refine h.stale r hold hk ?_
    by_contra hfresh
    obtain ⟨hsome, hbound⟩ := not_or.mp hfresh
    obtain ⟨p, hp⟩ := List.exists_mem_of_ne_nil _ hsome
    obtain ⟨hp, hpk⟩ := List.mem_filter.mp hp
    have hpk : p.hour = r.key := of_decide_eq_true hpk
    refine hother _ (mem_recomputed.mpr ⟨p, hp, ?_, rfl⟩) hpk
    rw [hpk]
    exact Nat.le_of_not_lt hbound

theorem point_hour (p : Point) : p.hour.2 ≤ p.ts ∧ p.ts < p.hour.2 + HOUR := by
  show floor p.ts HOUR ≤ p.ts ∧ p.ts < floor p.ts HOUR + HOUR
  unfold floor HOUR
  omega

theorem recomputed_late (h : Inv py start s) {r : Row}
    (hr : r ∈ s.store.recomputed py s.store.lastRollupHour) :
    ∀ c ∈ s.cutoff start, c ≤ floor r.start DAY + HOURLY_RETENTION := by
  obtain ⟨p, hp, hfloor, rfl⟩ := mem_recomputed.mp hr
  have hfloor : s.bound ≤ p.hour.2 := hfloor
  have hts := point_hour p
  show ∀ c ∈ s.cutoff start, c ≤ floor p.hour.2 DAY + HOURLY_RETENTION
  intro c hc
  rw [bound_eq h] at hfloor
  cases hrolled : s.rolled with
  | some t =>
    rw [Sys.cutoff, hrolled, Option.some_or, Option.mem_some_iff] at hc
    rw [hrolled] at hfloor
    subst hc
    unfold floor HOURLY_RETENTION DAY HOUR at *
    dsimp only at hfloor
    omega
  | none =>
    rw [Sys.cutoff, hrolled, Option.none_or] at hc
    obtain ⟨⟨now, legacy⟩, hstart, rfl⟩ := Option.map_eq_some_iff.mp hc
    have hraw := (h.begun now legacy hstart).2 hrolled p hp
    unfold floor HOURLY_RETENTION RAW_RETENTION DAY HOUR at *
    dsimp only
    omega

theorem cutoff_le (h : Inv py start s) : ∀ c ∈ s.cutoff start, c ≤ s.now := by
  intro c hc
  unfold Sys.cutoff at hc
  cases hrolled : s.rolled with
  | some t =>
    rw [hrolled, Option.some_or, Option.mem_some_iff] at hc
    exact hc ▸ h.past t hrolled
  | none =>
    rw [hrolled, Option.none_or] at hc
    obtain ⟨⟨now, legacy⟩, hstart, rfl⟩ := Option.map_eq_some_iff.mp hc
    exact (h.begun now legacy hstart).1

theorem Inv.roll (h : Inv py start s) (hrolls : s.store.rollsUp s.now = true) :
    Inv py start (s.roll py) where
  hour := by
    rw [roll_store hrolls]
    rfl
  past t ht := (Option.mem_some_iff.mp ht) ▸ Nat.le_refl _
  begun now legacy hstart := ⟨(h.begun now legacy hstart).1, fun hnone => absurd hnone (by nofun)⟩
  points k hk hbound := by
    have hbound : floor s.now HOUR - HOUR ≤ k.2 := by
      have heq : (s.roll py).bound = s.now / HOUR * HOUR - HOUR := by
        unfold Sys.bound Store.rawFloor
        rw [roll_store hrolls]
        dsimp only
        cases s.now / HOUR with
        | zero => rw [Nat.zero_mul, Nat.zero_sub]
        | succ n => rw [Nat.succ_mul, Nat.add_sub_cancel]
      exact heq ▸ hbound
    have hsame : rawIn (s.roll py) k = rawIn s k := by
      rw [rawIn_roll hrolls]
      refine List.filter_eq_self.mpr (fun p hp => decide_eq_true ?_)
      have hpk : p.hour = k := of_decide_eq_true (List.mem_filter.mp hp).2
      have hts := point_hour p
      rw [hpk] at hts
      unfold floor RAW_RETENTION HOUR at *
      omega
    rw [hsame]
    exact h.points k hk ((bound_le h).trans hbound)
  stale r hr hk _ := roll_exact h hrolls hr hk
  settled r hr hk _ _ _ := roll_exact h hrolls hr hk
  torn k hk := by
    obtain ⟨hlt, hsome, hrow⟩ := h.torn k hk
    have hle : (rawIn (s.roll py) k).length ≤ (rawIn s k).length := by
      rw [rawIn_roll hrolls]
      exact List.length_filter_le _ _
    refine ⟨hle.trans_lt hlt, fun hnone => absurd hnone (by nofun), fun t ht => ?_⟩
    obtain rfl : s.now = t := Option.mem_some_iff.mp ht
    by_cases hlate : k.2 + HOURLY_RETENTION < s.now
    · exact Or.inr hlate
    refine Or.inl ?_
    by_cases hnew : ∃ p ∈ s.store.raw, s.bound ≤ p.hour.2 ∧ p.hour = k
    · obtain ⟨p, hp, hfloor, rfl⟩ := hnew
      have hnew := hourRow_recomputed py hp hfloor
      refine ⟨hourRow py s.store.raw.rows p.hour, (mem_roll_hourly hrolls).mpr ?_, rfl, ?_⟩
      · exact ⟨Or.inl hnew, Nat.le_of_not_lt hlate⟩
      · rw [hourRow_samples]
        exact hlt
    · have hother : ∀ q ∈ s.store.recomputed py s.store.lastRollupHour, q.key ≠ k := by
        intro q hq hkey
        obtain ⟨p, hp, hfloor, rfl⟩ := mem_recomputed.mp hq
        exact hnew ⟨p, hp, hfloor, hkey⟩
      have hrolled : s.rolled ≠ none := by
        intro hnone
        obtain ⟨p, hp⟩ := List.exists_mem_of_ne_nil _ (hsome hnone)
        obtain ⟨hp, hpk⟩ := List.mem_filter.mp hp
        refine hnew ⟨p, hp, ?_, of_decide_eq_true hpk⟩
        rw [bound_eq h, hnone]
        exact Nat.zero_le _
      obtain ⟨t, ht⟩ := Option.ne_none_iff_exists'.mp hrolled
      rcases hrow t ht with ⟨r, hr, rfl, hsamples⟩ | hpruned
      · refine ⟨r, (mem_roll_hourly hrolls).mpr ⟨Or.inr ⟨hr, hother⟩, ?_⟩, rfl, hsamples⟩
        exact Nat.le_of_not_lt hlate
      · exact absurd (hpruned.trans_le (h.past t ht)) hlate
  written r := by
    show _ ↔ r ∈ s.written.putAll _ ∧ ∀ c ∈ some s.now, c ≤ r.start + HOURLY_RETENTION
    rw [mem_roll_hourly hrolls, Table.mem_putAll (recomputed_nodup _), h.written]
    have hcut : s.now ≤ r.start + HOURLY_RETENTION →
        ∀ c ∈ s.cutoff start, c ≤ r.start + HOURLY_RETENTION :=
      fun hnow c hc => (cutoff_le h c hc).trans hnow
    constructor
    · rintro ⟨hr, hnow⟩
      refine ⟨hr.imp_right (fun h => ⟨h.1.1, h.2⟩), fun c hc => ?_⟩
      exact Option.mem_some_iff.mp hc ▸ hnow
    · rintro ⟨hr, hnow⟩
      have hnow := hnow s.now rfl
      exact ⟨hr.imp_right (fun h => ⟨⟨h.1, hcut hnow⟩, h.2⟩), hnow⟩
  daily r hr := by
    rw [roll_store hrolls] at hr
    have hr : r ∈ (s.store.rollup py s.store.lastRollupHour).daily := (Table.mem_filter.mp hr).1
    exact rollup_daily_exact h.written (fun q hq => recomputed_late h hq) h.daily r hr

end Steps

theorem inv_start (py : Python) (start : Backfill) : Inv py start (Sys.start py start) := by
  cases start with
  | none =>
    exact {
      hour := rfl
      past := nofun
      begun := nofun
      points := fun k _ _ => Or.inl (List.Perm.refl _)
      stale := fun r hr => absurd hr (Table.not_mem_empty r)
      settled := fun r hr => absurd hr (Table.not_mem_empty r)
      torn := fun k ⟨now, legacy, heq, _⟩ => absurd heq (by nofun)
      written := fun r => iff_of_false (Table.not_mem_empty r)
        (fun h => Table.not_mem_empty r h.1)
      daily := fun r hr => absurd hr (Table.not_mem_empty r) }
  | some old =>
    obtain ⟨now, legacy⟩ := old
    have hnodup : ((foldedHours py now legacy).map (fun r => (r.tpl, r.start))).Nodup :=
      bucketRows_nodup _
    have hwritten : ∀ r, r ∈ (Sys.start py (some (now, legacy))).written ↔
        r ∈ foldedHours py now legacy := by
      intro r
      refine (Table.mem_putAll hnodup).trans (or_iff_left (fun h => ?_))
      exact Table.not_mem_empty r h.1
    have hhourly : ∀ r, r ∈ (Sys.start py (some (now, legacy))).store.hourly ↔
        r ∈ foldedHours py now legacy ∧ now ≤ r.start + HOURLY_RETENTION := by
      intro r
      refine (Table.mem_putAll (hnodup.sublist (List.filter_sublist.map _))).trans ?_
      rw [List.mem_filter, decide_eq_true_iff]
      exact or_iff_left (fun h => Table.not_mem_empty r h.1)
    exact {
      hour := rfl
      past := nofun
      begun := by
        rintro _ _ ⟨⟩
        exact ⟨Nat.le_refl now, fun _ p hp => (mem_raw_backfill hp).2⟩
      points := fun k hk _ => rawIn_backfill.2 hk
      stale := by
        intro r hr _ _
        obtain ⟨hr, hkept⟩ := (hhourly r).mp hr
        obtain ⟨p, hp, rfl⟩ := mem_bucketRows.mp hr
        refine bucketRow_perm (List.Perm.of_eq ?_)
        rw [List.filter_filter]
        refine List.filter_congr (fun q _ => ?_)
        -- an hour of the hourly tier is not cut by the daily window
        have hq : q.hour = p.hour → now ≤ q.ts + DAILY_RETENTION := by
          intro hq
          have hts := point_hour q
          rw [hq] at hts
          have hkept : now ≤ p.hour.2 + HOURLY_RETENTION := hkept
          unfold HOURLY_RETENTION DAILY_RETENTION DAY at *
          omega
        by_cases hqk : q.hour = p.hour
        · simp [hqk, hq hqk]
        · simp [hqk]
      settled := fun _ _ _ => nofun
      torn := fun k hk => ⟨(rawIn_backfill.1 hk).2, fun _ => (rawIn_backfill.1 hk).1, nofun⟩
      written := by
        intro r
        rw [hhourly, hwritten]
        refine and_congr_right (fun _ => ⟨fun h c hc => ?_, fun h => h now rfl⟩)
        exact Option.mem_some_iff.mp hc ▸ h
      daily := by
        intro r hr
        have hr := (Table.of_mem_putAll hr).resolve_right (Table.not_mem_empty r)
        obtain ⟨x, hx, rfl⟩ := mem_bucketRows.mp hr
        refine bucketRow_perm ((List.perm_ext_iff_of_nodup ?_ (rows_nodup _ _)).mpr (fun y => ?_))
        · exact (hnodup.of_map _).filter _
        · rw [List.mem_filter, List.mem_filter]
          exact and_congr (hwritten y).symm Iff.rfl }

/-! ## Runs -/

def Event.stamp : Event → Option Nat
  | .capture stamp _ => some stamp
  | .restart => none

theorem step_rolled {py : Python} {start : Backfill} {s s' : Sys} (h : Inv py start s) {stamp : Nat}
    {quotes : List Quote} (hnow : s.now ≤ stamp)
    (hstep : step py s (.capture stamp quotes) = some s') :
    Inv py start s' ∧ ∃ t ∈ s'.rolled, t ≤ stamp ∧ t / HOUR = stamp / HOUR ∧
      (s'.rolled = s.rolled ∨ t = stamp) := by
  have hins : Inv py start (s.insert stamp quotes) := h.insert hnow
  obtain rfl := Option.some.inj hstep
  split
  · rename_i hrolls
    exact ⟨hins.roll hrolls, stamp, rfl, Nat.le_refl _, rfl, Or.inr rfl⟩
  · rename_i hidle
    have hhour : s.store.lastRollupHour = some (stamp / HOUR) := by
      by_contra hne
      exact hidle (decide_eq_true hne)
    obtain ⟨t, ht, hdiv⟩ := Option.map_eq_some_iff.mp (h.hour.symm.trans hhour)
    exact ⟨hins, t, ht, (h.past t ht).trans hnow, hdiv, Or.inl rfl⟩

def Ordered (s : Sys) (e : Event) : Prop := ∀ t ∈ e.stamp, s.now ≤ t

theorem along_ordered {py : Python} {s : Sys} {events : List Event}
    (h : (s.now :: events.filterMap Event.stamp).Pairwise (· ≤ ·)) :
    Along (step py) Ordered s events := by
  induction events generalizing s with
  | nil => trivial
  | cons e es ih =>
    obtain ⟨hfirst, hrest⟩ := List.pairwise_cons.mp h
    cases e with
    | restart =>
      refine ⟨nofun, fun m hm => ?_⟩
      obtain rfl := Option.some.inj hm
      exact ih h
    | capture stamp quotes =>
      refine ⟨fun t ht => ?_, fun m hm => ih ?_⟩
      · exact Option.mem_some_iff.mp ht ▸ hfirst stamp (List.mem_cons_self ..)
      · have hnow : m.now = stamp := by
          obtain rfl := Option.some.inj hm
          split <;> rfl
        rw [hnow]
        exact hrest

theorem Inv.step {py : Python} {start : Backfill} {s s' : Sys} (h : Inv py start s) {e : Event}
    (hguard : Ordered s e) (hstep : Prices.step py s e = some s') : Inv py start s' := by
  cases e with
  | restart => exact Option.some.inj hstep ▸ h
  | capture stamp quotes => exact (step_rolled h (hguard stamp rfl) hstep).1

theorem rolled_mem {py : Python} {start : Backfill} {s s' : Sys} {events : List Event}
    (h : Inv py start s) (hg : Along (step py) Ordered s events)
    (hrun : exec (step py) s events = some s') :
    s'.rolled = s.rolled ∨ ∃ t ∈ events.filterMap Event.stamp, s'.rolled = some t := by
  induction events generalizing s with
  | nil => exact Or.inl (by rw [Runs.exec_nil.mp hrun])
  | cons e es ih =>
    obtain ⟨m, hm, hrest⟩ := Runs.exec_cons.mp hrun
    have hguard := hg.1
    rcases ih (h.step hguard hm) (hg.2 m hm) hrest with hsame | ⟨t, ht, hrolled⟩
    · cases e with
      | restart => exact Or.inl (hsame.trans (by rw [Option.some.inj hm]))
      | capture stamp quotes =>
        obtain ⟨-, t, ht, -, -, hkept | rfl⟩ := step_rolled h (hguard stamp rfl) hm
        · exact Or.inl (hsame.trans hkept)
        · exact Or.inr ⟨t, List.mem_cons_self .., hsame.trans ht⟩
    · refine Or.inr ⟨t, ?_, hrolled⟩
      obtain ⟨e', he', ht⟩ := List.mem_filterMap.mp ht
      exact List.mem_filterMap.mpr ⟨e', List.mem_cons_of_mem e he', ht⟩

theorem exec_total (py : Python) (s : Sys) (events : List Event) :
    ∃ s', exec (step py) s events = some s' := by
  induction events generalizing s with
  | nil => exact ⟨s, rfl⟩
  | cons e es ih =>
    obtain ⟨m, hm⟩ : ∃ m, step py s e = some m := by
      cases e with
      | restart => exact ⟨s, rfl⟩
      | capture stamp quotes => exact ⟨_, rfl⟩
    obtain ⟨s', hs'⟩ := ih m
    exact ⟨s', Runs.exec_cons.mpr ⟨m, hm, hs'⟩⟩

/-- The tiers are exact all through a run when no capture comes between the end of a torn hour and
the end of its retention, and only then. -/
theorem rollup_exact_iff (py : Python) (start : Backfill) (events : List Event)
    (hordered : ((start.map Prod.fst).toList ++ events.filterMap Event.stamp).Pairwise (· ≤ ·)) :
    (∀ before s, before <+: events → exec (step py) (Sys.start py start) before = some s →
      s.Exact py) ↔
      ∀ k, Torn start k → ∀ t ∈ events.filterMap Event.stamp,
        ¬ (k.2 + HOUR ≤ t ∧ t ≤ k.2 + HOURLY_RETENTION) := by
  have halong : Along (step py) Ordered (Sys.start py start) events := by
    refine along_ordered ?_
    cases start with
    | none => exact List.pairwise_cons.mpr ⟨fun t _ => Nat.zero_le t, hordered⟩
    | some old => exact hordered
  have hinv := inv_start py start
  constructor
  · intro hexact k hk t ht
    rintro ⟨hended, hkept⟩
    obtain ⟨e, he, hte⟩ := List.mem_filterMap.mp ht
    obtain ⟨before, after, rfl⟩ := List.append_of_mem he
    cases e with
    | restart => cases hte
    | capture stamp quotes =>
      obtain rfl := Option.some.inj hte
      obtain ⟨m, hm⟩ := exec_total py (Sys.start py start) before
      have hm' := Runs.exec_invariant (fun _ _ _ h hg hs => h.step hg hs) hinv
        (Runs.along_append.mp halong).1 hm
      have hnow : m.now ≤ stamp := ((Runs.along_append.mp halong).2 m hm).1 stamp rfl
      obtain ⟨s, hstep⟩ : ∃ s, step py m (.capture stamp quotes) = some s := ⟨_, rfl⟩
      have hs := Runs.exec_cons.mpr ⟨s, hstep, Runs.exec_nil.mpr rfl⟩
      obtain ⟨hs', t, ht, hle, hdiv, -⟩ := step_rolled hm' hnow hstep
      obtain ⟨-, -, hrow⟩ := hs'.torn k hk
      have hend : k.2 + HOUR ≤ t := by
        obtain ⟨now, legacy, -, ⟨p, -, rfl, -⟩, -⟩ := hk
        have hhour : p.hour.2 = p.ts / HOUR * HOUR := rfl
        rw [hhour] at hended ⊢
        unfold HOUR at *
        omega
      rcases hrow t ht with ⟨r, hr, rfl, hsamples⟩ | hpruned
      · have hrow := (hexact _ s ⟨after, by simp⟩ (Runs.exec_append.mpr ⟨m, hm, hs⟩)).hourly r hr
          t ht hend
        rw [hrow, hourRow_key, hourRow_samples] at hsamples
        exact Nat.lt_irrefl _ hsamples
      · omega
  · rintro hwhole before s ⟨after, rfl⟩ hrun
    have halong := (Runs.along_append.mp halong).1
    have hs := Runs.exec_invariant (fun _ _ _ h hg hs => h.step hg hs) hinv halong hrun
    refine ⟨fun r hr t ht hended => ?_, fun r hr _ _ _ => hs.daily r hr, fun t ht r => ?_⟩
    · by_cases hk : Torn start r.key
      · rcases rolled_mem hinv halong hrun with hnone | ⟨t', ht', hrolled⟩
        · have hnone : s.rolled = none := by
            cases start <;> exact hnone
          rw [hnone] at ht
          cases ht
        · obtain rfl : t' = t := Option.some.inj (hrolled.symm.trans ht)
          have hkept := ((hs.written r).mp hr).2 t' (by rw [Sys.cutoff, hrolled]; rfl)
          refine absurd ⟨hended, hkept⟩ (hwhole r.key hk t' ?_)
          rw [List.filterMap_append]
          exact List.mem_append_left _ ht'
      · exact hs.settled r hr hk t ht hended
    · rw [hs.written, Sys.cutoff, ht]
      refine and_congr_right (fun _ => ⟨fun h => h t rfl, fun h c hc => ?_⟩)
      exact Option.mem_some_iff.mp hc ▸ h

def whole : Python := ⟨fun total n => total / n⟩

/-- The hour turns between two captures, with a restart before it does. -/
theorem exact_after_turn : ∃ s, exec (step whole) (Sys.start whole none)
    [.capture 100 [⟨1, some 7, some 9, some 2, some 3⟩], .restart, .capture 4000 []] = some s ∧
      s.Exact whole := by
  obtain ⟨s, hs⟩ := exec_total whole (Sys.start whole none)
    [.capture 100 [⟨1, some 7, some 9, some 2, some 3⟩], .restart, .capture 4000 []]
  have hwhole := (rollup_exact_iff whole none
    [.capture 100 [⟨1, some 7, some 9, some 2, some 3⟩], .restart, .capture 4000 []]
    (by decide)).mpr (fun _ ⟨_, _, heq, _⟩ => absurd heq (by nofun))
  exact ⟨s, hs, hwhole _ s (List.prefix_refl _) hs⟩

def twoPoints : List Point :=
  [⟨1, 4000, some 10, some 10, some 1, some 1⟩, ⟨1, 6000, some 20, some 20, some 1, some 1⟩]

theorem torn_hour : ¬ ∀ (py : Python) (start : Backfill) (events : List Event),
    ((start.map Prod.fst).toList ++ events.filterMap Event.stamp).Pairwise (· ≤ ·) →
    ∀ before s, before <+: events → exec (step py) (Sys.start py start) before = some s →
      s.Exact py := by
  intro h
  obtain ⟨s, hrun, hrolled, r, hr, hended, hne⟩ : ∃ s,
      exec (step whole) (Sys.start whole (some (177000, twoPoints))) [.capture 177100 []] = some s ∧
        s.rolled = some 177100 ∧ ∃ r ∈ s.store.hourly.rows, r.start + HOUR ≤ 177100 ∧
          r ≠ hourRow whole s.ever r.key := Runs.exec_shows (by decide)
  exact hne ((h whole _ _ (by decide) _ s (List.prefix_refl _) hrun).hourly r hr 177100 hrolled
    hended)

end LastSietch.Prices
