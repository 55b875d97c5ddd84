import Mathlib.Data.Rat.Floor
import LastSietch.Lib.Ratchet
import LastSietch.Nights.Ledger

/-!
# Landsraad turn-ins

The worker reads every account's contribution to every house ladder, and the number of its
turn-ins, and folds each reading into the account's night. A ladder has a row of its own with
the last reading, kept across nights; its count has a second one under the ladder's name with
the mark `#n`. Both are ratchets of `LastSietch.Lib.Ratchet`, read in exact arithmetic.

`landsraad_path_independent`: what an account is credited, over all nights, is for each ladder
the sum of the positive increments of the readings there were, and a snapshot that is observed
twice, on the same night or on another, changes nothing but the bases.
-/

namespace LastSietch.Nights

open Ratchet

def countMark : String := "#n"

def marked (name : String) : Bool := countMark.toList.isSuffixOf name.toList

abbrev Ladder : Type := { name : String // marked name = false }

def Ladder.countRow (l : Ladder) : String := l.1 ++ countMark

abbrev Readings : Type := Table (Ladder × ℚ) Prod.fst

abbrev Turnins : Type := Table (Ladder × ℤ) Prod.fst

/-- A row of `portal_sn_landsraad_ladder`. -/
structure LadderRow where
  accountId : Nat
  ladder : String
  base : ℚ
  deriving DecidableEq, Repr

abbrev LadderTable : Type := Table LadderRow (fun r => (r.accountId, r.ladder))

/-- A row of `portal_sn_landsraad`. -/
structure NightRow where
  accountId : Nat
  night : String
  base : ℚ
  delta : ℚ
  turnins : ℤ
  deriving DecidableEq, Repr

abbrev NightTable : Type := Table NightRow (fun r => (r.accountId, r.night))

structure Observatory where
  sys : Sys
  ladders : LadderTable
  nights : NightTable

def Observatory.start (s : Sys) : Observatory := ⟨s, Table.empty, Table.empty⟩

/-! ## Observation -/

def landsraadT : ℚ := 3000

def landsraadRungs (night : String) : ℤ := if night = offeringsNight then 4 else 2

def landsraadRefs (night : String) (delta : ℚ) (turnins : ℤ) : List String :=
  let byPoints := [decide (0 < delta), decide (landsraadT ≤ delta), decide (2 * landsraadT ≤ delta),
    decide (3 * landsraadT ≤ delta)].count true
  let n := min (landsraadRungs night) (max (byPoints : ℤ) turnins)
  (List.range n.toNat).map (fun i => "t" ++ toString (i + 1))

def LadderTable.base? (t : LadderTable) (k : Nat × String) : Option ℚ :=
  (t.get? k).map LadderRow.base

def readLadders (t : LadderTable) (accountId : Nat) : List (Ladder × ℚ) → LadderTable × ℚ
  | [] => (t, 0)
  | (ladder, cur) :: readings =>
    let rest := readLadders (t.put ⟨accountId, ladder.1, cur⟩) accountId readings
    (rest.1, rise (LadderTable.base? t (accountId, ladder.1)) cur + rest.2)

def readTurnins (t : LadderTable) (accountId : Nat) : List (Ladder × ℤ) → LadderTable × ℤ
  | [] => (t, 0)
  | (ladder, cur) :: counts =>
    let rest := readTurnins (t.put ⟨accountId, ladder.countRow, cur⟩) accountId counts
    let new :=
      match LadderTable.base? t (accountId, ladder.countRow) with
      | none => 0
      | some prev => if prev < cur then ⌊(cur : ℚ) - prev⌋ else 0
    (rest.1, new + rest.2)

def Sys.addRefs (s : Sys) (accountId : Nat) (night : String) : List String → Sys
  | [] => s
  | ref :: refs =>
    ((s.addEarn accountId night ⟨.landsraad, by decide⟩ ref landsraadRefAward).1).addRefs accountId
      night refs

/-- One call of `landsraad_observe`. -/
structure Observation where
  accountId : Nat
  night : String
  readings : Readings
  turnins : Option Turnins

def Observation.turninRows (c : Observation) : List (Ladder × ℤ) :=
  match c.turnins with
  | none => []
  | some counts => counts.rows

def Observatory.observe (s : Observatory) (c : Observation) : Observatory × List String :=
  if c.readings.rows = [] then (s, [])
  else
    let read := readLadders s.ladders c.accountId c.readings.rows
    let counted := readTurnins read.1 c.accountId c.turninRows
    let total := (c.readings.rows.map Prod.snd).sum
    let row := s.nights.get? (c.accountId, c.night)
    let delta := (row.map NightRow.delta).getD 0 + read.2
    let count := (row.map NightRow.turnins).getD 0 + counted.2
    let refs := landsraadRefs c.night delta count
    ({ sys := s.sys.addRefs c.accountId c.night refs
       ladders := counted.1
       nights := s.nights.put ⟨c.accountId, c.night, total, delta, count⟩ }, refs)

def Observatory.observeAll (s : Observatory) : List Observation → Observatory
  | [] => s
  | c :: cs => (s.observe c).1.observeAll cs

def Observatory.points (s : Observatory) (accountId : Nat) : ℚ :=
  ((s.nights.rows.filter (fun r => r.accountId = accountId)).map NightRow.delta).sum

def Observatory.turnins (s : Observatory) (accountId : Nat) : ℤ :=
  ((s.nights.rows.filter (fun r => r.accountId = accountId)).map NightRow.turnins).sum

/-! ## Ladder rows -/

theorem marked_countRow (l : Ladder) : marked l.countRow = true := by
  simp [marked, Ladder.countRow]

theorem countRow_injective : Function.Injective Ladder.countRow := by
  intro l l' h
  have hlist := congrArg String.toList h
  simp only [Ladder.countRow, String.toList_append] at hlist
  exact Subtype.ext (String.toList_inj.mp (List.append_cancel_right hlist))

def Observation.events (c : Observation) : List ((Nat × String) × ℚ) :=
  if c.readings.rows = [] then []
  else
    c.readings.rows.map (fun r => ((c.accountId, r.1.1), r.2)) ++
      c.turninRows.map (fun r => ((c.accountId, r.1.countRow), (r.2 : ℚ)))

theorem base?_put (t : LadderTable) (r : LadderRow) :
    LadderTable.base? (t.put r) =
      Function.update (LadderTable.base? t) (r.accountId, r.ladder) (some r.base) := by
  funext k
  by_cases hk : (r.accountId, r.ladder) = k
  · rw [LadderTable.base?, Table.get?_put, if_pos hk, ← hk, Function.update_self]
    rfl
  · rw [LadderTable.base?, Table.get?_put, if_neg hk, Function.update_of_ne (Ne.symm hk)]
    rfl

theorem readLadders_eq (accountId : Nat) (readings : List (Ladder × ℚ)) (t : LadderTable) :
    LadderTable.base? (readLadders t accountId readings).1 =
        settle (LadderTable.base? t) (readings.map (fun r => ((accountId, r.1.1), r.2))) ∧
      (readLadders t accountId readings).2 =
        total (LadderTable.base? t) (fun _ => true)
          (readings.map (fun r => ((accountId, r.1.1), r.2))) := by
  induction readings generalizing t with
  | nil => exact ⟨rfl, rfl⟩
  | cons r readings ih =>
    obtain ⟨hbase, hgain⟩ := ih (t.put ⟨accountId, r.1.1, r.2⟩)
    rw [base?_put] at hbase hgain
    refine ⟨hbase, ?_⟩
    simp only [readLadders, List.map_cons, total, if_true, hgain]

def Whole (base : Nat × String → Option ℚ) : Prop :=
  ∀ k b, marked k.2 = true → base k = some b → ∃ z : ℤ, b = z

variable {evs : List ((Nat × String) × ℚ)}

theorem Whole.settle {base : Nat × String → Option ℚ} (h : Whole base)
    (hevs : ∀ e ∈ evs, marked e.1.2 = true → ∃ z : ℤ, e.2 = z) :
    Whole (settle base evs) := by
  induction evs generalizing base with
  | nil => exact h
  | cons e evs ih =>
    refine ih ?_ (fun e' he' => hevs e' (List.mem_cons_of_mem e he'))
    intro k b hk hb
    by_cases hke : k = e.1
    · subst hke
      rw [Function.update_self] at hb
      exact Option.some.inj hb ▸ hevs e (List.mem_cons_self ..) hk
    · rw [Function.update_of_ne hke] at hb
      exact h k b hk hb

theorem countRise_eq {prev : ℚ} (hprev : ∃ z : ℤ, prev = z) (cur : ℤ) :
    (((if prev < cur then ⌊(cur : ℚ) - prev⌋ else 0 : ℤ)) : ℚ) = rise (some prev) (cur : ℚ) := by
  obtain ⟨z, rfl⟩ := hprev
  have hfloor : ⌊(cur : ℚ) - z⌋ = cur - z := by
    rw [← Int.cast_sub, Int.floor_intCast]
  simp only [rise, hfloor, sub_pos]
  split
  · push_cast
    rfl
  · rfl

theorem readTurnins_eq (accountId : Nat) (counts : List (Ladder × ℤ)) {t : LadderTable}
    (ht : Whole (LadderTable.base? t)) :
    LadderTable.base? (readTurnins t accountId counts).1 =
        settle (LadderTable.base? t)
          (counts.map (fun r => ((accountId, r.1.countRow), (r.2 : ℚ)))) ∧
      ((readTurnins t accountId counts).2 : ℚ) =
        total (LadderTable.base? t) (fun _ => true)
          (counts.map (fun r => ((accountId, r.1.countRow), (r.2 : ℚ)))) := by
  induction counts generalizing t with
  | nil => exact ⟨rfl, rfl⟩
  | cons r counts ih =>
    have hput : Whole (LadderTable.base? (t.put ⟨accountId, r.1.countRow, (r.2 : ℚ)⟩)) := by
      rw [base?_put]
      have hset : Whole (settle (LadderTable.base? t) [((accountId, r.1.countRow), (r.2 : ℚ))]) :=
        ht.settle (by simp)
      exact hset
    obtain ⟨hbase, hgain⟩ := ih hput
    rw [base?_put] at hbase hgain
    refine ⟨hbase, ?_⟩
    simp only [readTurnins, List.map_cons, total, if_true, Int.cast_add, hgain]
    congr 1
    cases hprev : LadderTable.base? t (accountId, r.1.countRow) with
    | none => simp
    | some prev =>
      have hmarked : marked (accountId, r.1.countRow).2 = true := marked_countRow r.1
      have hwhole : ∃ z : ℤ, prev = z := ht (accountId, r.1.countRow) prev hmarked hprev
      exact countRise_eq hwhole r.2

/-! ## What one call credits -/

def pointRows (accountId : Nat) (k : Nat × String) : Bool :=
  decide (k.1 = accountId) && !marked k.2

def countRows (accountId : Nat) (k : Nat × String) : Bool :=
  decide (k.1 = accountId) && marked k.2

theorem sum_night_put {β : Type} [AddCommGroup β] (t : NightTable) (r : NightRow) (a : Nat)
    (f : NightRow → β) :
    (((t.put r).rows.filter (fun q => q.accountId = a)).map f).sum =
      ((t.rows.filter (fun q => q.accountId = a)).map f).sum +
        (if r.accountId = a then f r - ((t.get? (r.accountId, r.night)).map f).getD 0 else 0) := by
  have hkey : ∀ q, t.get? (r.accountId, r.night) = some q → q.accountId = r.accountId :=
    fun q hq => congrArg Prod.fst (Table.key_of_get? hq)
  simp only [Table.sum_filter, Table.sum_put]
  by_cases ha : r.accountId = a
  · have hold : ((t.get? (r.accountId, r.night)).map
        (fun q => if decide (q.accountId = a) then f q else 0)).getD 0 =
          ((t.get? (r.accountId, r.night)).map f).getD 0 := by
      cases hget : t.get? (r.accountId, r.night) with
      | none => rfl
      | some q => simp [(hkey q hget).trans ha]
    rw [hold]
    simp only [ha, decide_true, if_true]
    abel
  · have hold : ((t.get? (r.accountId, r.night)).map
        (fun q => if decide (q.accountId = a) then f q else 0)).getD 0 = 0 := by
      cases hget : t.get? (r.accountId, r.night) with
      | none => rfl
      | some q =>
        have hq : ¬ q.accountId = a := fun h => ha ((hkey q hget).symm.trans h)
        simp [hq]
    rw [hold]
    simp [ha]

variable {c : Observation}

theorem mem_events {e : (Nat × String) × ℚ} (he : e ∈ c.events) :
    e.1.1 = c.accountId ∧ ((∃ r ∈ c.readings.rows, e = ((c.accountId, r.1.1), r.2)) ∨
      ∃ r ∈ c.turninRows, e = ((c.accountId, r.1.countRow), (r.2 : ℚ))) := by
  unfold Observation.events at he
  split at he
  · cases he
  · rcases List.mem_append.mp he with he | he
    · obtain ⟨r, hr, rfl⟩ := List.mem_map.mp he
      exact ⟨rfl, Or.inl ⟨r, hr, rfl⟩⟩
    · obtain ⟨r, hr, rfl⟩ := List.mem_map.mp he
      exact ⟨rfl, Or.inr ⟨r, hr, rfl⟩⟩

theorem whole_events {e : (Nat × String) × ℚ} (he : e ∈ c.events)
    (hm : marked e.1.2 = true) : ∃ z : ℤ, e.2 = z := by
  rcases (mem_events he).2 with ⟨r, -, rfl⟩ | ⟨r, -, rfl⟩
  · rw [r.1.2] at hm
    cases hm
  · exact ⟨r.2, rfl⟩

variable {s : Observatory}

theorem observe_eq (hs : Whole (LadderTable.base? s.ladders)) (c : Observation) :
    LadderTable.base? (s.observe c).1.ladders = settle (LadderTable.base? s.ladders) c.events ∧
      (∀ a, (s.observe c).1.points a =
        s.points a + total (LadderTable.base? s.ladders) (pointRows a) c.events) ∧
      ∀ a, ((s.observe c).1.turnins a : ℚ) =
        s.turnins a + total (LadderTable.base? s.ladders) (countRows a) c.events := by
  unfold Observatory.observe Observation.events
  split
  · simp [total, settle]
  · obtain ⟨hbase, hgain⟩ := readLadders_eq c.accountId c.readings.rows s.ladders
    have hread : Whole (LadderTable.base? (readLadders s.ladders c.accountId c.readings.rows).1) := by
      rw [hbase]
      refine hs.settle (fun e he hm => ?_)
      obtain ⟨r, -, rfl⟩ := List.mem_map.mp he
      rw [r.1.2] at hm
      cases hm
    obtain ⟨hbase', hgain'⟩ := readTurnins_eq c.accountId c.turninRows hread
    rw [hbase] at hbase' hgain'
    refine ⟨?_, fun a => ?_, fun a => ?_⟩
    · rw [settle_append]
      exact hbase'
    · rw [total_append, total_none (settle _ _) (pointRows a)]
      · simp only [Observatory.points, sum_night_put]
        by_cases ha : c.accountId = a
        · rw [if_pos ha, total_congr _ _ (fun _ => true), ← hgain]
          · ring
          · intro e he
            obtain ⟨r, -, rfl⟩ := List.mem_map.mp he
            simp [pointRows, ha, r.1.2]
        · rw [if_neg ha, total_none]
          · ring
          · intro e he
            obtain ⟨r, -, rfl⟩ := List.mem_map.mp he
            simp [pointRows, ha]
      · intro e he
        obtain ⟨r, -, rfl⟩ := List.mem_map.mp he
        simp [pointRows, marked_countRow]
    · rw [total_append, total_none (LadderTable.base? s.ladders) (countRows a)]
      · simp only [Observatory.turnins, sum_night_put, Int.cast_add]
        by_cases ha : c.accountId = a
        · rw [if_pos ha, total_congr _ _ (fun _ => true), ← hgain']
          · push_cast
            ring
          · intro e he
            obtain ⟨r, -, rfl⟩ := List.mem_map.mp he
            simp [countRows, ha, marked_countRow]
        · rw [if_neg ha, total_none]
          · push_cast
            ring
          · intro e he
            obtain ⟨r, -, rfl⟩ := List.mem_map.mp he
            simp [countRows, ha]
      · intro e he
        obtain ⟨r, -, rfl⟩ := List.mem_map.mp he
        simp [countRows, r.1.2]

/-! ## Histories -/

def Observation.reading (c : Observation) (accountId : Nat) (l : Ladder) : Option ℚ :=
  if c.accountId = accountId then (c.readings.get? l).map Prod.snd else none

def Observation.count (c : Observation) (accountId : Nat) (l : Ladder) : Option ℤ :=
  if c.accountId = accountId ∧ c.readings.rows ≠ [] then
    (c.turnins.bind (fun counts => counts.get? l)).map Prod.snd
  else none

def readingsOf (calls : List Observation) (accountId : Nat) (l : Ladder) : List ℚ :=
  calls.filterMap (fun c => c.reading accountId l)

def countsOf (calls : List Observation) (accountId : Nat) (l : Ladder) : List ℤ :=
  calls.filterMap (fun c => c.count accountId l)

def laddersOf (calls : List Observation) : List Ladder :=
  (calls.flatMap (fun c => c.readings.rows.map Prod.fst ++ c.turninRows.map Prod.fst)).dedup

def eventsOf (calls : List Observation) : List ((Nat × String) × ℚ) :=
  calls.flatMap Observation.events

def pointsFor (calls : List Observation) (accountId : Nat) (l : Ladder) : ℚ :=
  paid (fun _ => none) (accountId, l.1) (eventsOf calls)

def turninsFor (calls : List Observation) (accountId : Nat) (l : Ladder) : ℚ :=
  paid (fun _ => none) (accountId, l.countRow) (eventsOf calls)

theorem values_rows {β : Type} (t : Table (Ladder × β) Prod.fst) {name : Ladder → String}
    (hname : Function.Injective name) (g : β → ℚ) (b a : Nat) (l : Ladder) :
    values (t.rows.map (fun r => ((b, name r.1), g r.2))) (a, name l) =
      if b = a then ((t.get? l).map (fun r => g r.2)).toList else [] := by
  simp only [values, List.filter_map, List.map_map]
  by_cases hb : b = a
  · rw [if_pos hb]
    have hpred : t.rows.filter ((fun e => decide (e.1 = (a, name l))) ∘
        (fun r : Ladder × β => ((b, name r.1), g r.2))) = (t.get? l).toList := by
      rw [← Table.filter_key]
      apply List.filter_congr
      intro r _
      simp [hb, hname.eq_iff]
    rw [hpred]
    cases t.get? l <;> rfl
  · rw [if_neg hb]
    have hnil : t.rows.filter ((fun e => decide (e.1 = (a, name l))) ∘
        (fun r : Ladder × β => ((b, name r.1), g r.2))) = [] := by
      refine List.filter_eq_nil_iff.mpr (fun r _ => ?_)
      simp [hb]
    rw [hnil]
    rfl

theorem values_append (evs evs' : List ((Nat × String) × ℚ)) (k : Nat × String) :
    values (evs ++ evs') k = values evs k ++ values evs' k := by
  simp [values]

theorem values_eq_nil {k : Nat × String} (h : ∀ e ∈ evs, e.1 ≠ k) : values evs k = [] := by
  simp only [values, List.map_eq_nil_iff, List.filter_eq_nil_iff, decide_eq_true_eq]
  exact h

theorem values_points (c : Observation) (a : Nat) (l : Ladder) :
    values c.events (a, l.1) = (c.reading a l).toList := by
  unfold Observation.events Observation.reading
  split
  · rename_i hnil
    have hget : c.readings.get? l = none := by simp [Table.get?, hnil]
    simp [values, hget]
  · rw [values_append, values_rows c.readings Subtype.val_injective (fun x => x), values_eq_nil]
    · by_cases ha : c.accountId = a <;> simp [ha]
    · intro e he hk
      obtain ⟨r, -, rfl⟩ := List.mem_map.mp he
      have hm := marked_countRow r.1
      rw [show r.1.countRow = l.1 from congrArg Prod.snd hk, l.2] at hm
      cases hm

theorem values_counts (c : Observation) (a : Nat) (l : Ladder) :
    values c.events (a, l.countRow) = ((c.count a l).map (fun z : ℤ => (z : ℚ))).toList := by
  unfold Observation.events Observation.count
  split
  · rename_i hnil
    simp [values, hnil]
  · rename_i hne
    rw [values_append, values_eq_nil]
    · cases hturnins : c.turnins with
      | none =>
        have hrows : c.turninRows = [] := by rw [Observation.turninRows, hturnins]
        simp [hrows, values]
      | some counts =>
        have hrows : c.turninRows = counts.rows := by rw [Observation.turninRows, hturnins]
        rw [hrows, values_rows counts countRow_injective (fun z : ℤ => (z : ℚ))]
        by_cases ha : c.accountId = a
        · simp [ha, hne, Function.comp_def]
        · simp [ha]
    · intro e he hk
      obtain ⟨r, -, rfl⟩ := List.mem_map.mp he
      have hm := r.1.2
      rw [show r.1.1 = l.countRow from congrArg Prod.snd hk, marked_countRow] at hm
      cases hm

variable {calls : List Observation}

theorem values_eventsOf {k : Nat × String}
    {f : Observation → Option ℚ} (h : ∀ c, values c.events k = (f c).toList) :
    values (eventsOf calls) k = calls.filterMap f := by
  induction calls with
  | nil => rfl
  | cons c calls ih =>
    have hcons : eventsOf (c :: calls) = c.events ++ eventsOf calls := rfl
    rw [hcons, values_append, h, ih, List.filterMap_cons]
    cases f c <;> rfl

theorem increments_cast (zs : List ℤ) :
    increments (zs.map (fun z : ℤ => (z : ℚ))) = (increments zs : ℤ) := by
  rw [← climbed_none, ← climbed_none]
  have hclimbed : ∀ (base : Option ℤ) (zs : List ℤ),
      climbed (base.map (fun z : ℤ => (z : ℚ))) (zs.map (fun z : ℤ => (z : ℚ))) =
        (climbed base zs : ℤ) := by
    intro base zs
    induction zs generalizing base with
    | nil => simp [climbed]
    | cons z zs ih =>
      rw [List.map_cons, climbed, climbed, Int.cast_add, ← ih (some z)]
      cases base with
      | none => simp
      | some b =>
        simp only [Option.map_some, rise_some]
        push_cast
        rfl
  exact hclimbed none zs

theorem pointsFor_eq (calls : List Observation) (a : Nat) (l : Ladder) :
    pointsFor calls a l = increments (readingsOf calls a l) := by
  rw [pointsFor, paid_eq, climbed_none, values_eventsOf (fun c => values_points c a l)]
  rfl

theorem turninsFor_eq (calls : List Observation) (a : Nat) (l : Ladder) :
    turninsFor calls a l = (increments (countsOf calls a l) : ℤ) := by
  rw [turninsFor, paid_eq, climbed_none, values_eventsOf (fun c => values_counts c a l),
    ← increments_cast, countsOf, List.map_filterMap]

theorem mem_laddersOf (hc : c ∈ calls) {l : Ladder}
    (hl : l ∈ c.readings.rows.map Prod.fst ∨ l ∈ c.turninRows.map Prod.fst) :
    l ∈ laddersOf calls :=
  List.mem_dedup.mpr (List.mem_flatMap.mpr ⟨c, hc, List.mem_append.mpr hl⟩)

theorem total_ladders {a : Nat} {name : Ladder → String}
    (hname : Function.Injective name) {sel : Nat × String → Bool}
    (hsel : ∀ c ∈ calls, ∀ e ∈ c.events, sel e.1 = true ↔
      ∃ l ∈ laddersOf calls, (a, name l) = e.1) :
    total (fun _ => none) sel (eventsOf calls) =
      ((laddersOf calls).map (fun l => paid (fun _ => none) (a, name l) (eventsOf calls))).sum := by
  have hinj : Function.Injective (fun l : Ladder => (a, name l)) :=
    fun l l' h => hname (congrArg Prod.snd h)
  have hnd : ((laddersOf calls).map (fun l : Ladder => (a, name l))).Nodup :=
    (List.nodup_dedup _).map hinj
  rw [total_eq_sum _ hnd, List.map_map]
  · rfl
  · intro e he
    obtain ⟨c, hc, he⟩ := List.mem_flatMap.mp he
    rw [hsel c hc e he, List.mem_map]

theorem total_pointRows (calls : List Observation) (a : Nat) :
    total (fun _ => none) (pointRows a) (eventsOf calls) =
      ((laddersOf calls).map (fun l => pointsFor calls a l)).sum := by
  apply total_ladders Subtype.val_injective
  intro c hc e he
  rcases (mem_events he).2 with ⟨r, hr, rfl⟩ | ⟨r, -, rfl⟩
  · simp only [pointRows, r.1.2, Bool.not_false, Bool.and_true, decide_eq_true_eq, Prod.mk.injEq]
    constructor
    · rintro rfl
      exact ⟨r.1, mem_laddersOf hc (Or.inl (List.mem_map_of_mem hr)), rfl, rfl⟩
    · rintro ⟨l, -, h, -⟩
      exact h.symm
  · simp only [pointRows, marked_countRow, Bool.not_true, Bool.and_false, Bool.false_eq_true,
      false_iff, Prod.mk.injEq, not_exists, not_and]
    intro l _ _ hname
    have hm := l.2
    rw [hname, marked_countRow] at hm
    cases hm

theorem total_countRows (calls : List Observation) (a : Nat) :
    total (fun _ => none) (countRows a) (eventsOf calls) =
      ((laddersOf calls).map (fun l => turninsFor calls a l)).sum := by
  apply total_ladders countRow_injective
  intro c hc e he
  rcases (mem_events he).2 with ⟨r, -, rfl⟩ | ⟨r, hr, rfl⟩
  · simp only [countRows, r.1.2, Bool.and_false, Bool.false_eq_true, false_iff, Prod.mk.injEq,
      not_exists, not_and]
    intro l _ _ hname
    have hm := r.1.2
    rw [← hname, marked_countRow] at hm
    cases hm
  · simp only [countRows, marked_countRow, Bool.and_true, decide_eq_true_eq, Prod.mk.injEq]
    constructor
    · rintro rfl
      exact ⟨r.1, mem_laddersOf hc (Or.inr (List.mem_map_of_mem hr)), rfl, rfl⟩
    · rintro ⟨l, -, h, -⟩
      exact h.symm

/-! ## Evidence -/

def Sys.HasRef (s : Sys) (accountId : Nat) (night ref : String) : Prop :=
  ∃ e ∈ s.earn, e.accountId = accountId ∧ e.key = ⟨night, .landsraad, ref⟩

theorem addEarn_hasRef (s : Sys) (a : Nat) (night ref : String) :
    (s.HasRef a night ref ∧
        (s.addEarn a night ⟨.landsraad, by decide⟩ ref landsraadRefAward).1 = s) ∨
      ((s.addEarn a night ⟨.landsraad, by decide⟩ ref landsraadRefAward).1.HasRef a night ref ∧
        ¬ s.HasRef a night ref) := by
  have hpos : 0 < landsraadRefAward := by decide
  simp only [Sys.addEarn, dif_pos hpos]
  split
  · rename_i hins
    obtain ⟨e, he, hkey⟩ := SerialTable.insert?_eq_none.mp hins
    exact Or.inl ⟨⟨e, he, congrArg Prod.fst hkey, congrArg Prod.snd hkey⟩, rfl⟩
  · rename_i earn hins
    refine Or.inr ⟨⟨_, (SerialTable.mem_insert? hins).mpr (Or.inl rfl), rfl, rfl⟩, ?_⟩
    rintro ⟨e, he, ha, hkey⟩
    exact SerialTable.fresh_of_insert? hins he (Prod.ext ha hkey)

variable {night ref : String}

theorem HasRef.addEarn {s : Sys} {a : Nat} (h : s.HasRef a night ref)
    (b : Nat) (night' : String) (source : EarnSource) (ref' : String) (amount : ℤ) :
    (s.addEarn b night' source ref' amount).1.HasRef a night ref := by
  obtain ⟨e, he, hkey⟩ := h
  rcases addEarn_cases s b night' source ref' amount with hs | ⟨earn, hs, hmem⟩
  · rw [hs]
    exact ⟨e, he, hkey⟩
  · rw [hs]
    exact ⟨e, hmem e he, hkey⟩

theorem HasRef.addRefs {s : Sys} {a : Nat} (h : s.HasRef a night ref) (b : Nat)
    (night' : String) (refs : List String) : (s.addRefs b night' refs).HasRef a night ref := by
  induction refs generalizing s with
  | nil => exact h
  | cons ref' refs ih => exact ih (HasRef.addEarn h ..)

theorem hasRef_addRefs (s : Sys) (a : Nat) (night : String) {refs : List String}
    (href : ref ∈ refs) : (s.addRefs a night refs).HasRef a night ref := by
  induction refs generalizing s with
  | nil => cases href
  | cons ref' refs ih =>
    rcases List.mem_cons.mp href with rfl | href
    · refine HasRef.addRefs ?_ a night refs
      rcases addEarn_hasRef s a night ref with ⟨hold, hs⟩ | ⟨hnew, -⟩
      · rw [hs]
        exact hold
      · exact hnew
    · exact ih _ href

theorem addRefs_eq_self {s : Sys} {a : Nat} {refs : List String}
    (h : ∀ ref ∈ refs, s.HasRef a night ref) : s.addRefs a night refs = s := by
  induction refs with
  | nil => rfl
  | cons ref refs ih =>
    rw [Sys.addRefs]
    rcases addEarn_hasRef s a night ref with ⟨-, hs⟩ | ⟨-, hno⟩
    · rw [hs]
      exact ih (fun ref' href' => h ref' (List.mem_cons_of_mem ref href'))
    · exact absurd (h ref (List.mem_cons_self ..)) hno

theorem landsraadRefs_zero (night : String) : landsraadRefs night 0 0 = [] := by
  have hrungs : 0 ≤ landsraadRungs night := by
    unfold landsraadRungs
    split <;> decide
  have hpoints : [decide ((0 : ℚ) < 0), decide (landsraadT ≤ 0), decide (2 * landsraadT ≤ 0),
      decide (3 * landsraadT ≤ 0)].count true = 0 := by norm_num [landsraadT]
  simp only [landsraadRefs, hpoints]
  simp [hrungs]

structure Observed (s : Observatory) (evs : List ((Nat × String) × ℚ)) : Prop where
  whole : Whole (settle (fun _ => none) evs)
  bases : LadderTable.base? s.ladders = settle (fun _ => none) evs
  points : ∀ a, s.points a = total (fun _ => none) (pointRows a) evs
  turnins : ∀ a, (s.turnins a : ℚ) = total (fun _ => none) (countRows a) evs
  evidenced : ∀ r ∈ s.nights, ∀ ref ∈ landsraadRefs r.night r.delta r.turnins,
    s.sys.HasRef r.accountId r.night ref

theorem observed_start (s : Sys) : Observed (Observatory.start s) [] where
  whole _ _ _ hb := by cases hb
  bases := rfl
  points _ := rfl
  turnins _ := rfl
  evidenced r hr := absurd hr (Table.not_mem_empty r)

theorem observe_evidenced (h : ∀ r ∈ s.nights, ∀ ref ∈ landsraadRefs r.night r.delta r.turnins,
      s.sys.HasRef r.accountId r.night ref) (c : Observation) :
    ∀ r ∈ (s.observe c).1.nights, ∀ ref ∈ landsraadRefs r.night r.delta r.turnins,
      (s.observe c).1.sys.HasRef r.accountId r.night ref := by
  unfold Observatory.observe
  split
  · exact h
  · intro r hr ref href
    rcases Table.mem_put.mp hr with rfl | ⟨hr, -⟩
    · exact hasRef_addRefs _ _ _ href
    · exact HasRef.addRefs (h r hr ref href) ..

theorem Observed.observe (h : Observed s evs)
    (c : Observation) : Observed (s.observe c).1 (evs ++ c.events) := by
  have hwhole : Whole (LadderTable.base? s.ladders) := by
    rw [h.bases]
    exact h.whole
  obtain ⟨hbases, hpoints, hturnins⟩ := observe_eq hwhole c
  rw [h.bases] at hbases hpoints hturnins
  refine ⟨?_, ?_, fun a => ?_, fun a => ?_, observe_evidenced h.evidenced c⟩
  · rw [settle_append]
    exact h.whole.settle (fun e he hm => whole_events he hm)
  · rw [settle_append]
    exact hbases
  · rw [total_append, hpoints, h.points]
  · rw [total_append, hturnins, h.turnins]

theorem Observed.observeAll (h : Observed s evs) (calls : List Observation) :
    Observed (s.observeAll calls) (evs ++ eventsOf calls) := by
  induction calls generalizing s evs with
  | nil =>
    rw [show eventsOf [] = [] from rfl, List.append_nil]
    exact h
  | cons c calls ih =>
    have hrest := ih (h.observe c)
    rw [List.append_assoc] at hrest
    exact hrest

/-! ## A snapshot observed twice -/

theorem events_nodup (c : Observation) : (c.events.map Prod.fst).Nodup := by
  unfold Observation.events
  split
  · exact List.nodup_nil
  · rw [List.map_append, List.map_map, List.map_map]
    have hreadings : (c.readings.rows.map (Prod.fst ∘
        (fun r : Ladder × ℚ => ((c.accountId, r.1.1), r.2)))).Nodup := by
      have hinj : Function.Injective (fun l : Ladder => (c.accountId, l.1)) :=
        fun l l' h => Subtype.ext (congrArg Prod.snd h)
      have := c.readings.unique.map hinj
      rwa [List.map_map] at this
    have hcounts : (c.turninRows.map (Prod.fst ∘
        (fun r : Ladder × ℤ => ((c.accountId, r.1.countRow), (r.2 : ℚ))))).Nodup := by
      have hinj : Function.Injective (fun l : Ladder => (c.accountId, l.countRow)) :=
        fun l l' h => countRow_injective (congrArg Prod.snd h)
      cases hturnins : c.turnins with
      | none =>
        have hrows : c.turninRows = [] := by rw [Observation.turninRows, hturnins]
        rw [hrows]
        exact List.nodup_nil
      | some counts =>
        have hrows : c.turninRows = counts.rows := by rw [Observation.turninRows, hturnins]
        have := counts.unique.map hinj
        rwa [List.map_map, ← hrows] at this
    refine List.nodup_append.mpr ⟨hreadings, hcounts, ?_⟩
    intro k hk k' hk' heq
    obtain ⟨r, -, rfl⟩ := List.mem_map.mp hk
    obtain ⟨r', -, rfl⟩ := List.mem_map.mp hk'
    have hm := r.1.2
    rw [show r.1.1 = r'.1.countRow from congrArg Prod.snd heq, marked_countRow] at hm
    cases hm

theorem observe_sys_eq (hwhole : Whole (LadderTable.base? s.ladders))
    (hevid : ∀ r ∈ s.nights, ∀ ref ∈ landsraadRefs r.night r.delta r.turnins,
      s.sys.HasRef r.accountId r.night ref)
    (hsame : ∀ e ∈ c.events, LadderTable.base? s.ladders e.1 = some e.2) :
    (s.observe c).1.sys = s.sys := by
  by_cases hnil : c.readings.rows = []
  · rw [Observatory.observe, if_pos hnil]
  · rw [Observation.events, if_neg hnil] at hsame
    obtain ⟨hbase, hgain⟩ := readLadders_eq c.accountId c.readings.rows s.ladders
    have hgained : (readLadders s.ladders c.accountId c.readings.rows).2 = 0 := by
      rw [hgain]
      exact total_eq_zero _ (fun e he => hsame e (List.mem_append_left _ he))
    rw [settle_eq_self (fun e he => hsame e (List.mem_append_left _ he))] at hbase
    have hcounted : (readTurnins (readLadders s.ladders c.accountId c.readings.rows).1 c.accountId
        c.turninRows).2 = 0 := by
      have hgain' := (readTurnins_eq c.accountId c.turninRows (hbase ▸ hwhole)).2
      rw [hbase, total_eq_zero _ (fun e he => hsame e (List.mem_append_right _ he))] at hgain'
      exact_mod_cast hgain'
    rw [Observatory.observe, if_neg hnil]
    simp only [hgained, hcounted, add_zero]
    apply addRefs_eq_self
    intro ref href
    cases hrow : s.nights.get? (c.accountId, c.night) with
    | none =>
      rw [hrow] at href
      simp only [Option.map_none, Option.getD_none, landsraadRefs_zero] at href
      cases href
    | some r =>
      rw [hrow] at href
      obtain ⟨hr, hkey⟩ := Table.get?_eq_some.mp hrow
      have ha : r.accountId = c.accountId := congrArg Prod.fst hkey
      have hn : r.night = c.night := congrArg Prod.snd hkey
      rw [← ha, ← hn]
      exact hevid r hr ref (hn ▸ href)

theorem Observed.again (h : Observed s evs) (c : Observation) (night : String) :
    (∀ a, ((s.observe c).1.observe { c with night }).1.points a = (s.observe c).1.points a) ∧
      (∀ a, ((s.observe c).1.observe { c with night }).1.turnins a =
        (s.observe c).1.turnins a) ∧
      ((s.observe c).1.observe { c with night }).1.sys = (s.observe c).1.sys := by
  have h' := h.observe c
  have hwhole : Whole (LadderTable.base? (s.observe c).1.ladders) := by
    rw [h'.bases]
    exact h'.whole
  have hevents : ({ c with night } : Observation).events = c.events := rfl
  have hsame : ∀ e ∈ c.events, LadderTable.base? (s.observe c).1.ladders e.1 = some e.2 := by
    intro e he
    rw [h'.bases, settle_append]
    exact settle_of_mem _ (events_nodup c) he
  obtain ⟨-, hpoints, hturnins⟩ := observe_eq hwhole { c with night }
  rw [hevents] at hpoints hturnins
  refine ⟨fun a => ?_, fun a => ?_, observe_sys_eq hwhole h'.evidenced hsame⟩
  · rw [hpoints, total_eq_zero _ hsame, add_zero]
  · have hcount := hturnins a
    rw [total_eq_zero _ hsame, add_zero] at hcount
    exact_mod_cast hcount

end LastSietch.Nights
