import LastSietch.Lib.Copies
import LastSietch.Lib.Json
import LastSietch.Lib.Runs
import Mathlib.Data.List.Sort

/-!
# The harvest of combat events

`streams/combat.py` reads the events after a cursor that it moves back by an overlap, and takes for
one event what has one `dedup_key`, which is made of four of the columns.

* `Inv.lt_of_newer`: what is newer than the overlap is read.
* `combat_stored_once`: so it is stored, and once.
-/

namespace LastSietch.Combat

open Runs (exec Along)

/-- A row of `game_events`; times are in microseconds. -/
structure Event where
  actorId : Option Int
  universeTime : Int
  map : Option String
  partitionId : Option Int
  eventType : Option Int
  x : Option ℚ
  y : Option ℚ
  z : Option ℚ
  customData : Option Json
  deriving DecidableEq

/-- A row of `combat_events`, without the columns that are resolved. -/
structure CombatEvent where
  dedupKey : String
  occurredAt : String
  occurredEpoch : Int
  map : Option String
  partitionId : Option Int
  eventType : Option Int
  actorId : Option Int
  x : Option ℚ
  y : Option ℚ
  z : Option ℚ
  raw : String
  harvestedAt : Int
  deriving DecidableEq

/-- What is not of the program: `isoformat` with the session's offset, the cast of its text, `str`,
`json.dumps` and `md5`. `epoch` is `_to_epoch`. -/
structure Formats where
  iso : Int → String
  cast : String → Int
  epoch : String → Int
  str : Json → String
  dumps : Json → String
  md5 : String → String

/-- `_EPOCH_START`. -/
def epochStart : String := "1970-01-01T00:00:00+00:00"

/-- `fromisoformat` reads what `isoformat` has written, and `int` drops the fraction. -/
structure Formats.Lawful (F : Formats) : Prop where
  epoch_iso : ∀ t, F.epoch (F.iso t) = t.tdiv 1000000
  epoch_start : F.epoch epochStart = 0

section Rows

variable (F : Formats)

/-- `_custom_data_text`. -/
def customDataText : Option Json → String
  | none | some .null => ""
  | some (.arr l) => F.dumps (.arr l)
  | some (.obj fields) => F.dumps (.obj fields)
  | some (.str s) => s
  | some j => F.str j

/-- `%s` of a number. -/
def numberText (n : Option Int) : String := n.elim "None" toString

def Event.dedupKey (e : Event) : String :=
  "|".intercalate [F.iso e.universeTime, numberText e.actorId, numberText e.eventType,
    F.md5 (customDataText F e.customData)]

def Event.row (harvestedAt : Int) (e : Event) : CombatEvent where
  dedupKey := e.dedupKey F
  occurredAt := F.iso e.universeTime
  occurredEpoch := F.epoch (F.iso e.universeTime)
  map := e.map
  partitionId := e.partitionId
  eventType := e.eventType
  actorId := e.actorId
  x := e.x
  y := e.y
  z := e.z
  raw := customDataText F e.customData
  harvestedAt

end Rows

structure State where
  store : Table CombatEvent (·.dedupKey)
  cursor : Option String
  seen : List Event
  due : List Event

variable (F : Formats) (overlap : Int)

def State.mark (s : State) : String := (s.cursor.filter (· ≠ "")).getD epochStart

/-- The time of `query_cursor`; whole seconds are cast back as they are. -/
def State.queryTime (s : State) : Int :=
  if 0 < F.epoch s.mark then max 0 (F.epoch s.mark - overlap) * 1000000 else F.cast s.mark

/-- `HARVEST_QUERY`. -/
def State.rows (s : State) (table : List Event) : List Event :=
  (table.filter (s.queryTime F overlap < ·.universeTime)).insertionSort
    (·.universeTime ≤ ·.universeTime)

/-- `max_universe_time`. -/
def maxTime (isos : List String) : Option String :=
  isos.foldl (fun m iso => if m.all (· < iso) then some iso else m) none

def State.Newer (s : State) (e : Event) : Prop :=
  ∀ q ∈ s.seen, q.universeTime - overlap * 1000000 < e.universeTime

instance (s : State) (e : Event) : Decidable (s.Newer overlap e) :=
  inferInstanceAs (Decidable (∀ q ∈ s.seen, _))

/-- `run`. `OR IGNORE` also skips a row without an `event_type`. -/
def State.sweep (now : Int) (table : List Event) (s : State) : State :=
  let rows := s.rows F overlap table
  { store := s.store.ignoreAll ((rows.filter (·.eventType.isSome)).map (·.row F now))
    cursor := (maxTime (rows.map (F.iso ·.universeTime))).or s.cursor
    seen := s.seen ++ rows
    due := s.due ++ table.filter (s.Newer overlap ·) }

inductive Act
  | sweep (now : Int) (table : List Event)
  | failed

def step (s : State) : Act → Option State
  | .sweep now table => some (s.sweep F overlap now table)
  | .failed => some s

def start : State := ⟨Table.empty, none, [], []⟩

def State.Stored (s : State) : Prop :=
  ∀ e ∈ s.due, ∃ t, s.store.rows.filter (·.dedupKey = e.dedupKey F) = [e.row F t]

/-- Every event that is newer than the overlap has a type and a time after the epoch, comes after a
cursor in the first second of it, and has the key of no other event that was read or is read now. -/
def Kept (s : State) : Act → Prop
  | .sweep _ table => ∀ e ∈ table, s.Newer overlap e → e.eventType ≠ none ∧ 0 < e.universeTime ∧
      (F.epoch s.mark ≤ 0 → F.cast s.mark < e.universeTime) ∧
      ∀ q ∈ s.seen ++ s.rows F overlap table, q.dedupKey F = e.dedupKey F → q = e
  | .failed => True

instance (s : State) (a : Act) : Decidable (Kept F overlap s a) := by
  cases a <;> (unfold Kept; infer_instance)

structure Inv (s : State) : Prop where
  marked : s.mark = epochStart ∨ ∃ q ∈ s.seen, s.mark = F.iso q.universeTime
  held : ∀ r ∈ s.store, ∃ q ∈ s.seen, r = q.row F r.harvestedAt
  stored : s.Stored F

variable {F overlap} {s s' : State}

theorem mem_of_maxTime {isos : List String} {c : String} (h : maxTime isos = some c) :
    c ∈ isos := by
  have hfold : ∀ (isos : List String) (m : Option String), (isos.foldl (fun m iso =>
      if m.all (· < iso) then some iso else m) m = some c) → m = some c ∨ c ∈ isos := by
    intro isos
    induction isos with
    | nil => exact fun m hm => Or.inl hm
    | cons iso isos ih =>
      intro m hm
      rcases ih _ hm with hnow | hlater
      · dsimp only at hnow
        split at hnow
        · exact Or.inr (Option.some.inj hnow ▸ List.mem_cons_self ..)
        · exact Or.inl hnow
      · exact Or.inr (List.mem_cons_of_mem iso hlater)
  exact (hfold isos none h).resolve_left (by simp)

theorem mem_rows {table : List Event} {e : Event} : e ∈ s.rows F overlap table ↔
    e ∈ table ∧ s.queryTime F overlap < e.universeTime := by
  unfold State.rows
  rw [List.mem_insertionSort, List.mem_filter, decide_eq_true_eq]

theorem Inv.lt_of_newer (hF : F.Lawful) (h : Inv F s) {e : Event} (hnewer : s.Newer overlap e)
    (htime : 0 < e.universeTime)
    (hfirst : F.epoch s.mark ≤ 0 → F.cast s.mark < e.universeTime) :
    s.queryTime F overlap < e.universeTime := by
  unfold State.queryTime
  split
  case isFalse hepoch => exact hfirst (not_lt.mp hepoch)
  case isTrue hepoch =>
    rcases h.marked with hmark | ⟨q, hq, hmark⟩
    · rw [hmark, hF.epoch_start] at hepoch
      exact absurd hepoch (lt_irrefl 0)
    · have hafter := hnewer q hq
      rw [hmark, hF.epoch_iso] at hepoch ⊢
      have hfloor : q.universeTime.tdiv 1000000 * 1000000 ≤ q.universeTime := by
        have hpos : 0 ≤ q.universeTime := by
          by_contra hneg
          have hback : 0 ≤ (-q.universeTime).tdiv 1000000 := Int.tdiv_nonneg (by omega) (by decide)
          rw [Int.neg_tdiv] at hback
          omega
        rw [Int.tdiv_eq_ediv_of_nonneg hpos]
        exact Int.ediv_mul_le _ (by decide)
      omega

theorem Inv.sweep (hF : F.Lawful) (h : Inv F s) {now : Int} {table : List Event}
    (hkept : Kept F overlap s (.sweep now table)) : Inv F (s.sweep F overlap now table) := by
  have hfrom : ∀ r, r ∈ s.store ∨
      r ∈ ((s.rows F overlap table).filter (·.eventType.isSome)).map (·.row F now) →
      ∃ q ∈ s.seen ++ s.rows F overlap table, r = q.row F r.harvestedAt := by
    rintro r (hr | hr)
    · obtain ⟨q, hq, heq⟩ := h.held r hr
      exact ⟨q, List.mem_append_left _ hq, heq⟩
    · obtain ⟨q, hq, rfl⟩ := List.mem_map.mp hr
      exact ⟨q, List.mem_append_right _ (List.mem_of_mem_filter hq), rfl⟩
  refine ⟨?_, fun r hr => hfrom r (Table.of_mem_ignoreAll hr), fun e he => ?_⟩
  · have hcursor : (s.sweep F overlap now table).cursor =
        (maxTime ((s.rows F overlap table).map (F.iso ·.universeTime))).or s.cursor := rfl
    unfold State.mark
    rw [hcursor]
    cases hmax : maxTime ((s.rows F overlap table).map (F.iso ·.universeTime)) with
    | none =>
      rw [Option.none_or]
      exact h.marked.imp_right (fun ⟨q, hq, hmark⟩ => ⟨q, List.mem_append_left _ hq, hmark⟩)
    | some c =>
      obtain ⟨q, hq, rfl⟩ := List.mem_map.mp (mem_of_maxTime hmax)
      rw [Option.some_or]
      by_cases hempty : F.iso q.universeTime = ""
      · exact Or.inl (by simp [Option.filter, hempty])
      · exact Or.inr ⟨q, List.mem_append_right _ hq, by simp [Option.filter, hempty]⟩
  · rcases List.mem_append.mp he with hold | hnew
    · obtain ⟨t, ht⟩ := h.stored e hold
      rw [Table.filter_key_eq_singleton] at ht
      exact ⟨t, Table.filter_key_eq_singleton.mpr (Table.get?_ignoreAll_keeps ht)⟩
    · obtain ⟨hmem, hnewer⟩ := List.mem_filter.mp hnew
      have hnewer := of_decide_eq_true hnewer
      obtain ⟨htype, htime, hfirst, hsole⟩ := hkept e hmem hnewer
      have hread : e ∈ s.rows F overlap table :=
        mem_rows.mpr ⟨hmem, h.lt_of_newer hF hnewer htime hfirst⟩
      have hrow : e.row F now ∈
          ((s.rows F overlap table).filter (·.eventType.isSome)).map (·.row F now) :=
        List.mem_map_of_mem (List.mem_filter.mpr ⟨hread, Option.isSome_iff_ne_none.mpr htype⟩)
      obtain ⟨r, hr, hcome, hkey⟩ := Table.get?_ignoreAll_of_mem (t := s.store) (Or.inr hrow)
      obtain ⟨q, hq, heq⟩ := hfrom r hcome
      have hsame : q.dedupKey F = e.dedupKey F :=
        (congrArg CombatEvent.dedupKey heq).symm.trans hkey
      obtain rfl := hsole q hq hsame
      exact ⟨r.harvestedAt, Table.filter_key_eq_singleton.mpr (hr.trans (congrArg some heq))⟩

theorem Inv.step (hF : F.Lawful) {a : Act} (h : Inv F s) (hkept : Kept F overlap s a)
    (hstep : Combat.step F overlap s a = some s') : Inv F s' := by
  cases a with
  | failed => exact Option.some.inj hstep ▸ h
  | sweep now table => exact Option.some.inj hstep ▸ h.sweep hF hkept

theorem inv_start : Inv F start where
  marked := Or.inl rfl
  held r hr := absurd hr (Table.not_mem_empty r)
  stored e he := by cases he

/-- Over every run in which no other event has the key of one that is newer than the overlap, each
of these is stored once. -/
theorem combat_stored_once (hF : F.Lawful) {as : List Act}
    (hkept : Along (Combat.step F overlap) (Kept F overlap) start as)
    (hrun : exec (Combat.step F overlap) start as = some s) : s.Stored F :=
  (Runs.exec_invariant (fun _ _ _ h hk hs => Inv.step hF h hk hs) inv_start hkept hrun).stored

def firstHour : Formats where
  iso t := if t = 3600000000 then "1970-01-01T01:00:00+00:00"
    else String.ofList ((if t < 0 then '-' else '+') :: List.replicate t.natAbs '1')
  cast _ := 0
  epoch s := if s = "1970-01-01T01:00:00+00:00" then 3600
    else match s.toList with
      | '-' :: l => (-(l.length : Int)).tdiv 1000000
      | l => (l.tail.length : Int).tdiv 1000000
  str _ := ""
  dumps _ := ""
  md5 _ := "d41d8cd98f00b204e9800998ecf8427e"

theorem lawful_firstHour : firstHour.Lawful := by
  refine ⟨fun t => ?_, rfl⟩
  by_cases ht : t = 3600000000
  · subst ht
    rfl
  · have hne : String.ofList ((if t < 0 then '-' else '+') :: List.replicate t.natAbs '1') ≠
        "1970-01-01T01:00:00+00:00" := by
      intro h
      have hhead := congrArg (fun s : String => s.toList.head?) h
      simp only [String.toList_ofList, List.head?_cons] at hhead
      split at hhead
      · exact absurd hhead (by decide)
      · exact absurd hhead (by decide)
    simp only [firstHour, if_neg ht, if_neg hne, String.toList_ofList]
    by_cases hneg : t < 0
    · rw [if_pos hneg]
      show (-((List.replicate t.natAbs '1').length : Int)).tdiv 1000000 = _
      rw [List.length_replicate]
      congr 1
      omega
    · rw [if_neg hneg]
      show ((List.replicate t.natAbs '1').length : Int).tdiv 1000000 = _
      rw [List.length_replicate]
      congr 1
      omega

def eventOf (actorId : Int) (x : ℚ) : Event :=
  ⟨some actorId, 3600000000, none, none, some 1, some x, none, none, none⟩

def reread : List Act :=
  [.sweep 1 [eventOf 5 0, eventOf 6 0], .failed, .sweep 2 [eventOf 6 0, eventOf 7 0]]

theorem combat_stored_once_reread : ∃ s, exec (Combat.step firstHour 60) start reread = some s ∧
    s.Stored firstHour ∧ s.store.rows.length = 3 := by
  obtain ⟨s, hs, hlength⟩ : ∃ s, exec (Combat.step firstHour 60) start reread = some s ∧
      s.store.rows.length = 3 := Runs.exec_shows (by decide)
  have hkept : Along (Combat.step firstHour 60) (Kept firstHour 60) start reread := by
    decide
  exact ⟨s, hs, combat_stored_once lawful_firstHour hkept hs, hlength⟩

/-- Two events at one time, of one actor at two places. -/
theorem nearby_event_lost : ¬ ∀ (F : Formats) (overlap : Int) (as : List Act) s, F.Lawful →
    exec (Combat.step F overlap) start as = some s → s.Stored F := by
  intro h
  obtain ⟨s, hs, hrows, hdue⟩ : ∃ s, exec (Combat.step firstHour 60) start
      [.sweep 1 [eventOf 5 0, eventOf 5 1]] = some s ∧
        s.store.rows.map (·.x) = [some 0] ∧ eventOf 5 1 ∈ s.due := Runs.exec_shows (by decide)
  obtain ⟨t, ht⟩ := h firstHour 60 _ s lawful_firstHour hs (eventOf 5 1) hdue
  have hmem : (eventOf 5 1).row firstHour t ∈ s.store.rows :=
    List.mem_of_mem_filter (ht ▸ List.mem_singleton_self _)
  have hx : some (1 : ℚ) ∈ s.store.rows.map (·.x) := List.mem_map_of_mem (f := (·.x)) hmem
  rw [hrows] at hx
  exact absurd hx (by decide)

end LastSietch.Combat
