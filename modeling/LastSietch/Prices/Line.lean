import LastSietch.Prices.Rollups

/-!
# The price line

`history` draws one line from the three tiers: days up to a midnight about 60 days ago, hours up to
a full hour about 48 hours ago, and points from there on. The boundaries are of the time of the
read. What the tiers hold is of the time of the last rollup: it prunes the points from exactly 48
hours before it, and the hours it folds are those that captures have brought by then.
-/

namespace LastSietch.Prices

def RETENTION_DAYS : Int := 21
def SEVEN_DAYS_SECONDS : Nat := 7 * DAY

inductive Resolution
  | day | hour | point
  deriving DecidableEq, Repr

/-- An element of `points`, with the tier it is from. -/
structure Spot where
  resolution : Resolution
  t : Nat
  minPrice : Option Int
  medianPrice : Option Int
  listingCount : Option Int
  deriving DecidableEq, Repr

def Point.spot (p : Point) : Spot := ⟨.point, p.ts, p.minPrice, p.medianPrice, p.listingCount⟩

def Row.spot (resolution : Resolution) (r : Row) : Spot :=
  ⟨resolution, r.start, r.minPrice, r.medianPrice, r.avgListingCount⟩

structure Series where
  points : List Spot
  low7d : Option Int
  calibrating : Bool

def since (days : Option Int) (now : Nat) : Int :=
  let windowDays := if days.getD 0 = 0 then RETENTION_DAYS else days.getD 0
  now - windowDays * DAY

def handover (now : Nat) : Int := ((now : Int) - HOURLY_RETENTION) / DAY * DAY + DAY

def rawCut (now : Nat) : Int := ((now : Int) - RAW_RETENTION) / HOUR * HOUR

/-- `ORDER BY t`. -/
def ordered (spots : List Spot) : List Spot := spots.insertionSort (fun a b => a.t ≤ b.t)

/-- The rows of a tier from `lo` up to `hi`. -/
def Tier.between (resolution : Resolution) (t : Tier) (tpl : Nat) (lo hi : Int) : List Spot :=
  ordered ((t.rows.filter (fun r => r.tpl = tpl ∧ lo ≤ r.start ∧ r.start < hi)).map
    (Row.spot resolution))

def Raw.from (t : Raw) (tpl : Nat) (lo : Int) : List Spot :=
  ordered ((t.rows.filter (fun p => p.tpl = tpl ∧ lo ≤ p.ts)).map Point.spot)

def history (s : Store) (tpl : Nat) (detail : Bool) (days : Option Int) (now : Nat) : Series :=
  let since := since days now
  let hourlyTo : Int := if detail then rawCut now else now + HOUR
  let points := s.daily.between .day tpl since (handover now) ++
    s.hourly.between .hour tpl (max since (handover now)) hourlyTo ++
    if detail then s.raw.from tpl (max since (rawCut now)) else []
  let lows :=
    (s.hourly.rows.filter (fun r => r.tpl = tpl ∧ now ≤ r.start + SEVEN_DAYS_SECONDS)).filterMap
      (fun r => r.minPrice) ++
    (s.raw.rows.filter (fun p => p.tpl = tpl ∧ now ≤ p.ts + SEVEN_DAYS_SECONDS)).filterMap
      Point.minPrice
  ⟨points, lows.min?, points = []⟩

structure Turn where
  stamp : Nat
  points : List Point
  since : Option Nat

def Turn.Rolls (u : Turn) : Prop := u.since ≠ some (u.stamp / HOUR)

structure Run where
  store : Store
  log : List Turn

def Run.capture (py : Python) (r : Run) (c : Nat × List Quote) : Run where
  store := r.store.capture py c.1 c.2
  log := ⟨c.1, r.store.captured c.1 c.2, r.log.head?.map (fun u => u.stamp / HOUR)⟩ :: r.log

def captures (py : Python) (cs : List (Nat × List Quote)) : Run :=
  cs.foldl (Run.capture py) ⟨.empty, []⟩

/-- A turn of the log brought it, and from then on no rollup came after `limit`. -/
def Survives (log : List Turn) (brings : Turn → List Turn → Prop) (limit : Nat) : Prop :=
  ∃ newer turn older, log = newer ++ turn :: older ∧ brings turn older ∧
    ∀ u ∈ newer ++ [turn], u.Rolls → u.stamp ≤ limit

def Stored (log : List Turn) (p : Point) : Prop :=
  Survives log (fun turn _ => p ∈ turn.points) (p.ts + RAW_RETENTION)

/-- A rollup found a point of the bucket `k`, and no rollup from then on came after the bucket's
retention. -/
def RolledUp (bucket : Point → Nat × Nat) (retention : Nat) (log : List Turn) (k : Nat × Nat) :
    Prop :=
  Survives log
    (fun turn older => turn.Rolls ∧
      ∃ p, (p ∈ turn.points ∨ Stored older p) ∧ bucket p = k ∧ Store.rawFloor turn.since ≤ p.ts)
    (k.2 + retention)

def Point.day (p : Point) : Nat × Nat := (p.tpl, floor p.ts DAY)

def Spot.Represents (a : Spot) (p : Point) : Prop :=
  match a.resolution with
  | .point => a = p.spot
  | .hour => a.t = p.hour.2
  | .day => a.t = p.day.2

instance (a : Spot) (p : Point) : Decidable (a.Represents p) := by
  unfold Spot.Represents
  split <;> infer_instance

/-- Every captured point of the template whose day is in the window is represented by one point of
the line, and the times of the line increase. -/
def Covers (log : List Turn) (tpl : Nat) (days : Option Int) (now : Nat) (line : List Spot) :
    Prop :=
  (∀ turn ∈ log, ∀ p ∈ turn.points, p.tpl = tpl → since days now ≤ p.day.2 →
    line.countP (fun a => a.Represents p) = 1) ∧
  line.Pairwise (fun a b => a.t < b.t)

/-! ## What the tiers hold -/

theorem survives_cons {u : Turn} {log : List Turn} {brings : Turn → List Turn → Prop}
    {limit : Nat} : Survives (u :: log) brings limit ↔
      (brings u log ∨ Survives log brings limit) ∧ (u.Rolls → u.stamp ≤ limit) := by
  constructor
  · rintro ⟨newer, turn, older, hlog, hbrings, hlimit⟩
    cases newer with
    | nil =>
      obtain ⟨rfl, rfl⟩ := List.cons.inj hlog
      exact ⟨Or.inl hbrings, hlimit u (List.mem_singleton_self u)⟩
    | cons v newer =>
      obtain ⟨rfl, rfl⟩ := List.cons.inj hlog
      refine ⟨Or.inr ⟨newer, turn, older, rfl, hbrings, fun w hw => ?_⟩, ?_⟩
      · exact hlimit w (List.mem_cons_of_mem u hw)
      · exact hlimit u (List.mem_cons_self ..)
  · rintro ⟨hbrings | ⟨newer, turn, older, rfl, hbrings, hlimit⟩, hu⟩
    · refine ⟨[], u, log, rfl, hbrings, fun w hw => ?_⟩
      exact List.mem_singleton.mp hw ▸ hu
    · refine ⟨u :: newer, turn, older, rfl, hbrings, fun w hw => ?_⟩
      rcases List.mem_cons.mp hw with rfl | hw
      · exact hu
      · exact hlimit w hw

theorem not_survives_nil {brings : Turn → List Turn → Prop} {limit : Nat} :
    ¬ Survives [] brings limit := by
  rintro ⟨newer, turn, older, hlog, -⟩
  cases newer <;> cases hlog

structure Run.Tracked (r : Run) : Prop where
  hour : r.store.lastRollupHour = r.log.head?.map (fun u => u.stamp / HOUR)
  raw : ∀ p, p ∈ r.store.raw ↔ Stored r.log p
  hourly : ∀ k, (∃ row ∈ r.store.hourly, row.key = k) ↔
    RolledUp Point.hour HOURLY_RETENTION r.log k
  daily : ∀ k, (∃ row ∈ r.store.daily, row.key = k) ↔ RolledUp Point.day DAILY_RETENTION r.log k
  days : ∀ row ∈ r.store.hourly, ∃ d ∈ r.store.daily, d.key = row.day

section Rollup

variable {py : Python} {s : Store} {since : Option Nat}

theorem hour_day (p : Point) : (p.tpl, floor p.hour.2 DAY) = p.day := by
  have hfloor : floor (floor p.ts HOUR) DAY = floor p.ts DAY := by
    unfold floor HOUR DAY
    omega
  exact Prod.ext rfl hfloor

theorem rollup_hours (k : Nat × Nat) : (∃ row ∈ (s.rollup py since).hourly, row.key = k) ↔
    (∃ p ∈ s.raw, p.hour = k ∧ Store.rawFloor since ≤ p.ts) ∨ ∃ row ∈ s.hourly, row.key = k := by
  rw [rollup_hourly]
  constructor
  · rintro ⟨row, hrow, rfl⟩
    rcases Table.of_mem_putAll hrow with hnew | hold
    · obtain ⟨p, hp, hfloor, rfl⟩ := mem_recomputed.mp hnew
      exact Or.inl ⟨p, hp, rfl, rawFloor_le.mp hfloor⟩
    · exact Or.inr ⟨row, hold, rfl⟩
  · rintro (⟨p, hp, rfl, hfloor⟩ | ⟨row, hrow, rfl⟩)
    · have hnew := hourRow_recomputed py hp (rawFloor_le.mpr hfloor)
      obtain ⟨row, hrow, hkey⟩ := Table.exists_putAll (t := s.hourly) (Or.inl hnew)
      exact ⟨row, hrow, hkey⟩
    · exact Table.exists_putAll (Or.inr hrow)

theorem rollup_days (hdays : ∀ row ∈ s.hourly, ∃ d ∈ s.daily, d.key = row.day) (k : Nat × Nat) :
    (∃ row ∈ (s.rollup py since).daily, row.key = k) ↔
      (∃ p ∈ s.raw, p.day = k ∧ Store.rawFloor since ≤ p.ts) ∨ ∃ row ∈ s.daily, row.key = k := by
  by_cases hnil : s.recomputed py since = []
  · have hsame : s.rollup py since = s := if_pos hnil
    rw [hsame]
    refine (or_iff_right ?_).symm
    rintro ⟨p, hp, -, hfloor⟩
    have hnew := hourRow_recomputed py hp (rawFloor_le.mpr hfloor)
    exact List.not_mem_nil (hnil ▸ hnew)
  · rw [rollup_daily hnil]
    constructor
    · rintro ⟨row, hrow, rfl⟩
      rcases Table.of_mem_putAll hrow with hnew | hold
      · obtain ⟨x, hx, rfl⟩ := mem_bucketRows.mp hnew
        have hx := (List.mem_filter.mp hx).1
        rw [rollup_hourly] at hx
        rcases Table.of_mem_putAll hx with hx | hx
        · obtain ⟨p, hp, hfloor, rfl⟩ := mem_recomputed.mp hx
          exact Or.inl ⟨p, hp, (hour_day p).symm, rawFloor_le.mp hfloor⟩
        · exact Or.inr (hdays x hx)
      · exact Or.inr ⟨row, hold, rfl⟩
    · rintro (⟨p, hp, rfl, hfloor⟩ | ⟨row, hrow, rfl⟩)
      · have hnew := hourRow_recomputed py hp (rawFloor_le.mpr hfloor)
        have hhourly : hourRow py s.raw.rows p.hour ∈ (s.rollup py since).hourly := by
          rw [rollup_hourly]
          exact (Table.mem_putAll (recomputed_nodup _)).mpr (Or.inl hnew)
        have hlate := (dayFloor_spec hnil).2 _ hnew
        have hday : dayRow py ((s.rollup py since).hourly.rows.filter
            (fun r => Store.dayFloor (s.recomputed py since) ≤ r.start))
            (hourRow py s.raw.rows p.hour).day ∈ dayRows py ((s.rollup py since).hourly.rows.filter
              (fun r => Store.dayFloor (s.recomputed py since) ≤ r.start)) :=
          mem_bucketRows.mpr ⟨_, List.mem_filter.mpr ⟨hhourly, decide_eq_true hlate⟩, rfl⟩
        obtain ⟨row, hrow, hkey⟩ := Table.exists_putAll (t := s.daily) (Or.inl hday)
        exact ⟨row, hrow, hkey.trans (hour_day p)⟩
      · obtain ⟨row', hrow', hkey⟩ := Table.exists_putAll (Or.inr hrow)
        exact ⟨row', hrow', hkey⟩

end Rollup

/-- A file with the points of the turn `u` in it, before the gate of the rollup. -/
structure Loaded (s : Store) (u : Turn) (log : List Turn) : Prop where
  since : s.lastRollupHour = u.since
  raw : ∀ p, p ∈ s.raw ↔ p ∈ u.points ∨ Stored log p
  hourly : ∀ k, (∃ row ∈ s.hourly, row.key = k) ↔ RolledUp Point.hour HOURLY_RETENTION log k
  daily : ∀ k, (∃ row ∈ s.daily, row.key = k) ↔ RolledUp Point.day DAILY_RETENTION log k
  days : ∀ row ∈ s.hourly, ∃ d ∈ s.daily, d.key = row.day

section Capture

variable {py : Python} {s : Store} {u : Turn} {log : List Turn}

theorem Loaded.idle (h : Loaded s u log) (hidle : ¬ u.Rolls) : Run.Tracked ⟨s, u :: log⟩ where
  hour := by
    have hsame : u.since = some (u.stamp / HOUR) := by
      by_contra hne
      exact hidle hne
    exact h.since.trans hsame
  raw p := by
    rw [Stored, survives_cons, h.raw]
    exact (and_iff_left (fun hr => absurd hr hidle)).symm
  hourly k := by
    rw [RolledUp, survives_cons, ← RolledUp, h.hourly]
    refine Iff.symm (Iff.trans (and_iff_left (fun hr => absurd hr hidle)) ?_)
    exact or_iff_right (fun hr => hidle hr.1)
  daily k := by
    rw [RolledUp, survives_cons, ← RolledUp, h.daily]
    refine Iff.symm (Iff.trans (and_iff_left (fun hr => absurd hr hidle)) ?_)
    exact or_iff_right (fun hr => hidle hr.1)
  days := h.days

theorem mem_prune_hourly {now : Nat} {row : Row} :
    row ∈ (s.prune now).hourly ↔ row ∈ s.hourly ∧ now ≤ row.start + HOURLY_RETENTION :=
  Table.mem_filter.trans (and_congr Iff.rfl (decide_eq_true_iff ..))

theorem mem_prune_daily {now : Nat} {row : Row} :
    row ∈ (s.prune now).daily ↔ row ∈ s.daily ∧ now ≤ row.start + DAILY_RETENTION :=
  Table.mem_filter.trans (and_congr Iff.rfl (decide_eq_true_iff ..))

theorem rollup_hour_day (hdays : ∀ row ∈ s.hourly, ∃ d ∈ s.daily, d.key = row.day)
    {since : Option Nat} {row : Row} (hrow : row ∈ (s.rollup py since).hourly) :
    ∃ d ∈ (s.rollup py since).daily, d.key = row.day := by
  refine (rollup_days hdays row.day).mpr ?_
  rcases (rollup_hours row.key).mp ⟨row, hrow, rfl⟩ with ⟨p, hp, hhour, hfloor⟩ | ⟨q, hq, hqk⟩
  · refine Or.inl ⟨p, hp, ?_, hfloor⟩
    rw [← hour_day, hhour]
    exact Prod.ext (Prod.mk.inj hhour).1 rfl
  · obtain ⟨d, hd, hdk⟩ := hdays q hq
    obtain ⟨htpl, hstart⟩ := Prod.mk.inj hqk
    refine Or.inr ⟨d, hd, hdk.trans ?_⟩
    rw [Row.day, Row.day, htpl, hstart]

theorem Loaded.roll (h : Loaded s u log) (hroll : u.Rolls) :
    Run.Tracked ⟨{ (s.rollup py s.lastRollupHour).prune u.stamp with
      lastRollupHour := some (u.stamp / HOUR) }, u :: log⟩ := by
  rw [h.since]
  have hfound : ∀ (bucket : Point → Nat × Nat) (k : Nat × Nat),
      (∃ p ∈ s.raw, bucket p = k ∧ Store.rawFloor u.since ≤ p.ts) ↔
        ∃ p, (p ∈ u.points ∨ Stored log p) ∧ bucket p = k ∧ Store.rawFloor u.since ≤ p.ts :=
    fun bucket k => exists_congr (fun p => and_congr_left (fun _ => h.raw p))
  refine ⟨rfl, fun p => ?_, fun k => ?_, fun k => ?_, fun row hrow => ?_⟩
  · have hkept : p ∈ ((s.rollup py u.since).prune u.stamp).raw ↔
        p ∈ s.raw ∧ u.stamp ≤ p.ts + RAW_RETENTION := by
      refine Table.mem_filter.trans (and_congr ?_ (decide_eq_true_iff ..))
      rw [rollup_raw]
    refine hkept.trans ?_
    rw [Stored, survives_cons, h.raw]
    exact and_congr Iff.rfl ⟨fun h _ => h, fun h => h hroll⟩
  · rw [RolledUp, survives_cons, ← hfound, ← RolledUp, ← h.hourly]
    constructor
    · rintro ⟨row, hrow, rfl⟩
      obtain ⟨hrow, hkept⟩ := mem_prune_hourly.mp hrow
      have hk := (rollup_hours row.key).mp ⟨row, hrow, rfl⟩
      exact ⟨hk.imp_left (fun h => ⟨hroll, h⟩), fun _ => hkept⟩
    · rintro ⟨hk, hkept⟩
      obtain ⟨row, hrow, rfl⟩ : ∃ row ∈ (s.rollup py u.since).hourly, row.key = k :=
        (rollup_hours k).mpr (hk.imp_left And.right)
      exact ⟨row, mem_prune_hourly.mpr ⟨hrow, hkept hroll⟩, rfl⟩
  · rw [RolledUp, survives_cons, ← hfound, ← RolledUp, ← h.daily]
    constructor
    · rintro ⟨row, hrow, rfl⟩
      obtain ⟨hrow, hkept⟩ := mem_prune_daily.mp hrow
      have hk := (rollup_days h.days row.key).mp ⟨row, hrow, rfl⟩
      exact ⟨hk.imp_left (fun h => ⟨hroll, h⟩), fun _ => hkept⟩
    · rintro ⟨hk, hkept⟩
      obtain ⟨row, hrow, rfl⟩ : ∃ row ∈ (s.rollup py u.since).daily, row.key = k :=
        (rollup_days h.days k).mpr (hk.imp_left And.right)
      exact ⟨row, mem_prune_daily.mpr ⟨hrow, hkept hroll⟩, rfl⟩
  · obtain ⟨hrow, hkept⟩ := mem_prune_hourly.mp hrow
    obtain ⟨d, hd, hkey⟩ := rollup_hour_day h.days hrow
    refine ⟨d, mem_prune_daily.mpr ⟨hd, ?_⟩, hkey⟩
    have hstart : d.start = floor row.start DAY := (Prod.mk.inj hkey).2
    rw [hstart]
    unfold floor HOURLY_RETENTION DAILY_RETENTION DAY at *
    omega

theorem Run.Tracked.capture {r : Run} (h : r.Tracked) (c : Nat × List Quote) :
    (r.capture py c).Tracked := by
  have hloaded : Loaded { r.store with raw := r.store.raw.putAll (r.store.captured c.1 c.2) }
      ⟨c.1, r.store.captured c.1 c.2, r.log.head?.map (fun u => u.stamp / HOUR)⟩ r.log := by
    refine ⟨h.hour, fun p => ?_, h.hourly, h.daily, h.days⟩
    rw [← h.raw]
    exact (insert_perm c.1 c.2 r.store).mem_iff.trans List.mem_append
  unfold Run.capture Store.capture Store.maybeRollup
  split
  · rename_i hrolls
    exact hloaded.roll (fun hsame => of_decide_eq_true hrolls (h.hour.trans hsame))
  · rename_i hidle
    refine hloaded.idle (fun hroll => hidle (decide_eq_true (fun hsame => hroll ?_)))
    exact h.hour.symm.trans hsame

theorem captures_tracked (py : Python) (cs : List (Nat × List Quote)) : (captures py cs).Tracked := by
  have hempty : (⟨.empty, []⟩ : Run).Tracked := by
    refine ⟨rfl, fun p => ?_, fun k => ?_, fun k => ?_, ?_⟩
    · exact iff_of_false (Table.not_mem_empty p) not_survives_nil
    · exact iff_of_false (fun ⟨row, hrow, _⟩ => Table.not_mem_empty row hrow) not_survives_nil
    · exact iff_of_false (fun ⟨row, hrow, _⟩ => Table.not_mem_empty row hrow) not_survives_nil
    · exact fun row hrow => absurd hrow (Table.not_mem_empty row)
  unfold captures
  generalize (⟨.empty, []⟩ : Run) = r at hempty
  induction cs generalizing r with
  | nil => exact hempty
  | cons c cs ih => exact ih (r.capture py c) (hempty.capture c)

end Capture

/-! ## The line -/

theorem ordered_strict {spots : List Spot} (h : (spots.map Spot.t).Nodup) :
    (ordered spots).Pairwise (fun a b => a.t < b.t) := by
  have hle : (ordered spots).Pairwise (fun a b => a.t ≤ b.t) := List.pairwise_insertionSort _ _
  have hne : (ordered spots).Pairwise (fun a b => a.t ≠ b.t) := by
    refine List.pairwise_map.mp ?_
    exact (((List.perm_insertionSort _ _).map Spot.t).nodup_iff).mpr h
  exact (hle.and hne).imp (fun h => Nat.lt_of_le_of_ne h.1 h.2)

theorem mem_ordered {spots : List Spot} {a : Spot} : a ∈ ordered spots ↔ a ∈ spots :=
  List.mem_insertionSort _

section Tiers

variable {tpl : Nat} {lo hi : Int}

theorem Tier.mem_between {resolution : Resolution} {t : Tier} {a : Spot} :
    a ∈ Tier.between resolution t tpl lo hi ↔
      ∃ r ∈ t, r.tpl = tpl ∧ lo ≤ r.start ∧ (r.start : Int) < hi ∧ a = r.spot resolution := by
  unfold Tier.between
  rw [mem_ordered, List.mem_map]
  constructor
  · rintro ⟨r, hr, rfl⟩
    obtain ⟨hr, hsel⟩ := List.mem_filter.mp hr
    obtain ⟨htpl, hlo, hhi⟩ := of_decide_eq_true hsel
    exact ⟨r, hr, htpl, hlo, hhi, rfl⟩
  · rintro ⟨r, hr, htpl, hlo, hhi, rfl⟩
    exact ⟨r, List.mem_filter.mpr ⟨hr, decide_eq_true ⟨htpl, hlo, hhi⟩⟩, rfl⟩

theorem Raw.mem_from {t : Raw} {a : Spot} :
    a ∈ Raw.from t tpl lo ↔ ∃ p ∈ t, p.tpl = tpl ∧ lo ≤ p.ts ∧ a = p.spot := by
  unfold Raw.from
  rw [mem_ordered, List.mem_map]
  constructor
  · rintro ⟨p, hp, rfl⟩
    obtain ⟨hp, hsel⟩ := List.mem_filter.mp hp
    obtain ⟨htpl, hlo⟩ := of_decide_eq_true hsel
    exact ⟨p, hp, htpl, hlo, rfl⟩
  · rintro ⟨p, hp, htpl, hlo, rfl⟩
    exact ⟨p, List.mem_filter.mpr ⟨hp, decide_eq_true ⟨htpl, hlo⟩⟩, rfl⟩

theorem nodup_times {α : Type} (tpls times : α → Nat) (t : Table α (fun x => (tpls x, times x)))
    {p : α → Bool} (hp : ∀ x, p x = true → tpls x = tpl) : ((t.rows.filter p).map times).Nodup := by
  have hkeys : ((t.rows.filter p).map (fun x => (tpls x, times x))).Nodup :=
    t.unique.sublist (List.filter_sublist.map _)
  refine (List.nodup_map_iff_inj_on (hkeys.of_map _)).mpr (fun x hx y hy htimes => ?_)
  have hx' := hp x (List.mem_filter.mp hx).2
  have hy' := hp y (List.mem_filter.mp hy).2
  exact List.inj_on_of_nodup_map hkeys hx hy (Prod.ext (hx'.trans hy'.symm) htimes)

theorem Tier.between_strict (resolution : Resolution) (t : Tier) :
    (Tier.between resolution t tpl lo hi).Pairwise (fun a b => a.t < b.t) := by
  refine ordered_strict ?_
  rw [List.map_map]
  exact nodup_times Row.tpl Row.start t (fun r hr => (of_decide_eq_true hr).1)

theorem Raw.from_strict (t : Raw) : (Raw.from t tpl lo).Pairwise (fun a b => a.t < b.t) := by
  refine ordered_strict ?_
  rw [List.map_map]
  exact nodup_times Point.tpl Point.ts t (fun p hp => (of_decide_eq_true hp).1)

end Tiers

section Read

variable {s : Store} {tpl : Nat} {days : Option Int} {now : Nat} {p : Point}

theorem history_points : (history s tpl true days now).points =
    s.daily.between .day tpl (since days now) (handover now) ++
      s.hourly.between .hour tpl (max (since days now) (handover now)) (rawCut now) ++
      s.raw.from tpl (max (since days now) (rawCut now)) := rfl

theorem handover_le_rawCut (now : Nat) : handover now ≤ rawCut now := by
  unfold handover rawCut HOURLY_RETENTION RAW_RETENTION DAY HOUR
  omega

theorem rawCut_le (now : Nat) (p : Point) : rawCut now ≤ p.hour.2 ↔ rawCut now ≤ p.ts := by
  show rawCut now ≤ (floor p.ts HOUR : Nat) ↔ _
  unfold rawCut floor RAW_RETENTION HOUR
  omega

theorem handover_le (now : Nat) (p : Point) : (handover now ≤ p.hour.2 ↔ handover now ≤ p.ts) ∧
    (handover now ≤ p.day.2 ↔ handover now ≤ p.ts) := by
  show (handover now ≤ (floor p.ts HOUR : Nat) ↔ _) ∧ (handover now ≤ (floor p.ts DAY : Nat) ↔ _)
  unfold handover floor HOURLY_RETENTION DAY HOUR
  omega

theorem history_sorted (s : Store) (tpl : Nat) (days : Option Int) (now : Nat) :
    (history s tpl true days now).points.Pairwise (fun a b => a.t < b.t) := by
  rw [history_points, List.pairwise_append, List.pairwise_append]
  refine ⟨⟨Tier.between_strict .day s.daily, Tier.between_strict .hour s.hourly, ?_⟩,
    Raw.from_strict s.raw, ?_⟩
  · intro a ha b hb
    obtain ⟨r, -, -, -, hr, rfl⟩ := Tier.mem_between.mp ha
    obtain ⟨q, -, -, hq, -, rfl⟩ := Tier.mem_between.mp hb
    have hq : handover now ≤ q.start := (le_max_right _ _).trans hq
    show r.start < q.start
    omega
  · intro a ha b hb
    obtain ⟨q, -, -, hq, rfl⟩ := Raw.mem_from.mp hb
    have hq : rawCut now ≤ q.ts := (le_max_right _ _).trans hq
    have hle := handover_le_rawCut now
    rcases List.mem_append.mp ha with ha | ha
    · obtain ⟨r, -, -, -, hr, rfl⟩ := Tier.mem_between.mp ha
      show r.start < q.ts
      omega
    · obtain ⟨r, -, -, -, hr, rfl⟩ := Tier.mem_between.mp ha
      show r.start < q.ts
      omega

theorem represents_iff (htpl : p.tpl = tpl) (hday : since days now ≤ p.day.2) {a : Spot} :
    a ∈ (history s tpl true days now).points ∧ a.Represents p ↔
      if rawCut now ≤ p.ts then a = p.spot ∧ ∃ q ∈ s.raw, q.tpl = tpl ∧ q.spot = p.spot
      else if handover now ≤ p.ts then ∃ r ∈ s.hourly, r.key = p.hour ∧ a = r.spot .hour
      else ∃ r ∈ s.daily, r.key = p.day ∧ a = r.spot .day := by
  have hle := handover_le_rawCut now
  have hcut := rawCut_le now p
  have hhand := handover_le now p
  have hhour : p.day.2 ≤ p.hour.2 ∧ p.hour.2 ≤ p.ts := by
    show floor p.ts DAY ≤ floor p.ts HOUR ∧ floor p.ts HOUR ≤ p.ts
    unfold floor DAY HOUR
    omega
  rw [history_points]
  constructor
  · rintro ⟨ha, hrep⟩
    rcases List.mem_append.mp ha with ha | ha
    · rcases List.mem_append.mp ha with ha | ha
      · obtain ⟨r, hr, hrtpl, -, hlt, rfl⟩ := Tier.mem_between.mp ha
        have hrep : r.start = p.day.2 := hrep
        rw [if_neg (by omega), if_neg (by omega)]
        exact ⟨r, hr, Prod.ext (hrtpl.trans htpl.symm) hrep, rfl⟩
      · obtain ⟨r, hr, hrtpl, hlo, hlt, rfl⟩ := Tier.mem_between.mp ha
        have hlo : handover now ≤ r.start := (le_max_right _ _).trans hlo
        have hrep : r.start = p.hour.2 := hrep
        rw [if_neg (by omega), if_pos (by omega)]
        exact ⟨r, hr, Prod.ext (hrtpl.trans htpl.symm) hrep, rfl⟩
    · obtain ⟨q, hq, hqtpl, hlo, rfl⟩ := Raw.mem_from.mp ha
      have hlo : rawCut now ≤ q.ts := (le_max_right _ _).trans hlo
      have hrep : q.spot = p.spot := hrep
      have hts : q.ts = p.ts := congrArg Spot.t hrep
      rw [if_pos (by omega)]
      exact ⟨hrep, q, hq, hqtpl, hrep⟩
  · intro h
    split at h
    · rename_i hts
      obtain ⟨rfl, q, hq, hqtpl, hspot⟩ := h
      have hqts : q.ts = p.ts := congrArg Spot.t hspot
      refine ⟨List.mem_append_right _ (Raw.mem_from.mpr ⟨q, hq, hqtpl, ?_, hspot.symm⟩), rfl⟩
      omega
    · rename_i hts
      split at h
      · rename_i hlate
        obtain ⟨r, hr, hkey, rfl⟩ := h
        obtain ⟨hrtpl, hstart⟩ := Prod.mk.inj hkey
        have hstart : r.start = p.hour.2 := hstart
        refine ⟨List.mem_append_left _ (List.mem_append_right _ (Tier.mem_between.mpr ?_)), hstart⟩
        exact ⟨r, hr, hrtpl.trans htpl, by omega, by omega, rfl⟩
      · rename_i hearly
        obtain ⟨r, hr, hkey, rfl⟩ := h
        obtain ⟨hrtpl, hstart⟩ := Prod.mk.inj hkey
        have hstart : r.start = p.day.2 := hstart
        refine ⟨List.mem_append_left _ (List.mem_append_left _ (Tier.mem_between.mpr ?_)), hstart⟩
        exact ⟨r, hr, hrtpl.trans htpl, by omega, by omega, rfl⟩

theorem countP_eq_one {line : List Spot} (hstrict : line.Pairwise (fun a b => a.t < b.t))
    {P : Spot → Bool} {t : Nat} (ht : ∀ a ∈ line, P a = true → a.t = t) :
    line.countP P = 1 ↔ ∃ a ∈ line, P a = true := by
  rw [← List.countP_pos_iff, List.countP_eq_length_filter]
  have hsub : (line.filter P).Pairwise (fun a b => a.t < b.t) :=
    hstrict.sublist List.filter_sublist
  have htimes : ∀ a ∈ line.filter P, a.t = t := fun a ha =>
    ht a (List.mem_filter.mp ha).1 (List.mem_filter.mp ha).2
  match hcase : line.filter P with
  | [] => simp
  | [a] => simp
  | a :: b :: rest =>
    rw [hcase] at hsub htimes
    have hlt : a.t < b.t := (List.pairwise_cons.mp hsub).1 b (List.mem_cons_self ..)
    have ha := htimes a (List.mem_cons_self ..)
    have hb := htimes b (List.mem_cons_of_mem a (List.mem_cons_self ..))
    omega

/-- A point of the window is on the line once when the tier of its time has it, and else not. -/
theorem covered_iff (htpl : p.tpl = tpl) (hday : since days now ≤ p.day.2) :
    (history s tpl true days now).points.countP (fun a => a.Represents p) = 1 ↔
      if rawCut now ≤ p.ts then ∃ q ∈ s.raw, q.tpl = tpl ∧ q.spot = p.spot
      else if handover now ≤ p.ts then ∃ r ∈ s.hourly, r.key = p.hour
      else ∃ r ∈ s.daily, r.key = p.day := by
  have hrep := fun a => represents_iff (s := s) htpl hday (a := a)
  have htime : ∀ a ∈ (history s tpl true days now).points, decide (a.Represents p) = true →
      a.t = if rawCut now ≤ p.ts then p.ts else if handover now ≤ p.ts then p.hour.2
        else p.day.2 := by
    intro a ha hap
    have h := (hrep a).mp ⟨ha, of_decide_eq_true hap⟩
    split at h
    · rw [if_pos ‹_›, h.1]
      rfl
    · rw [if_neg ‹_›]
      split at h
      · obtain ⟨r, -, hkey, rfl⟩ := h
        rw [if_pos ‹_›]
        exact (Prod.mk.inj hkey).2
      · obtain ⟨r, -, hkey, rfl⟩ := h
        rw [if_neg ‹_›]
        exact (Prod.mk.inj hkey).2
  rw [countP_eq_one (history_sorted s tpl days now) htime]
  have hiff := exists_congr hrep
  simp only [decide_eq_true_iff]
  refine hiff.trans ?_
  split
  · simp
  · split
    · exact ⟨fun ⟨_, r, hr, hkey, _⟩ => ⟨r, hr, hkey⟩, fun ⟨r, hr, hkey⟩ => ⟨_, r, hr, hkey, rfl⟩⟩
    · exact ⟨fun ⟨_, r, hr, hkey, _⟩ => ⟨r, hr, hkey⟩, fun ⟨r, hr, hkey⟩ => ⟨_, r, hr, hkey, rfl⟩⟩

end Read

/-- The captures that leave every point of the window on the line: each is kept, or was rolled up,
in the tier of its time. -/
theorem history_covers_iff (py : Python) (cs : List (Nat × List Quote)) (tpl : Nat)
    (days : Option Int) (now : Nat) :
    Covers (captures py cs).log tpl days now
        (history (captures py cs).store tpl true days now).points ↔
      ∀ turn ∈ (captures py cs).log, ∀ p ∈ turn.points, p.tpl = tpl →
        since days now ≤ p.day.2 →
        if rawCut now ≤ p.ts then
          ∃ q, Stored (captures py cs).log q ∧ q.tpl = tpl ∧ q.spot = p.spot
        else if handover now ≤ p.ts then
          RolledUp Point.hour HOURLY_RETENTION (captures py cs).log p.hour
        else RolledUp Point.day DAILY_RETENTION (captures py cs).log p.day := by
  have htracked := captures_tracked py cs
  refine (and_iff_left (history_sorted _ _ _ _)).trans ?_
  refine forall₂_congr (fun turn _ => forall₂_congr (fun p _ => ?_))
  refine forall₂_congr (fun htpl hday => ?_)
  rw [covered_iff htpl hday]
  simp only [htracked.raw, htracked.hourly, htracked.daily]

/-- The rollup at half past prunes the point of 48 hours and a half ago, and the line begins its
points at the full hour before. -/
theorem gap_before_prune : ¬ ∀ (py : Python) (cs : List (Nat × List Quote)) (tpl : Nat)
    (days : Option Int) (now : Nat), Covers (captures py cs).log tpl days now
      (history (captures py cs).store tpl true days now).points := by
  intro h
  obtain ⟨hcovered, -⟩ := h whole
    [(1699999260, [⟨1, some 7, some 9, some 2, some 3⟩]), (1700173800, [])] 1 none 1700173800
  have hgap : ∃ turn ∈ (captures whole [(1699999260, [⟨1, some 7, some 9, some 2, some 3⟩]),
      (1700173800, [])]).log, ∃ p ∈ turn.points, p.tpl = 1 ∧ since none 1700173800 ≤ p.day.2 ∧
        (history (captures whole [(1699999260, [⟨1, some 7, some 9, some 2, some 3⟩]),
          (1700173800, [])]).store 1 true none 1700173800).points.countP
            (fun a => a.Represents p) ≠ 1 := by
    decide
  obtain ⟨turn, hturn, p, hp, htpl, hday, hne⟩ := hgap
  exact hne (hcovered turn hturn p hp htpl hday)

end LastSietch.Prices
