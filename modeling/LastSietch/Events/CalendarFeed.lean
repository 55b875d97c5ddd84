import LastSietch.Events.Calendar

/-!
# The calendar feed, read back

A reader of the feed finds in it the lines that were written, none of them too wide, and the events
that have a start, each with the texts that it has.
-/

namespace LastSietch.Calendar

open Folding

variable {site : Site} {events : List PublicEvent} {ev : PublicEvent}

/-! ## Lines -/

theorem intercalate_crlf {ls : List (List Char)} (hls : ls ≠ []) :
    crlf.intercalate ls ++ crlf = terminated '\r' '\n' ls := by
  induction ls with
  | nil => exact absurd rfl hls
  | cons l ls ih =>
    cases ls with
    | nil => simp [List.intercalate, terminated, crlf]
    | cons m ls =>
      have hrest := ih (List.cons_ne_nil m ls)
      have hcut : crlf.intercalate (l :: m :: ls) = l ++ (crlf ++ crlf.intercalate (m :: ls)) := by
        simp [List.intercalate]
      rw [hcut, List.append_assoc, List.append_assoc, hrest]
      simp [terminated, crlf]

theorem icsFold_crlf (l : List Char) :
    icsFold l ++ crlf = terminated '\r' '\n' (fold Char.utf8Size ICS_FOLD_OCTETS ' ' l) :=
  intercalate_crlf (fold_ne_nil l)

variable {l : List Char}

theorem logical_of_plain (hall : l.all (fun c => decide (InLine c)) = true)
    (hhead : l.head?.any (· ≠ ' ') = true) : Logical l := by
  refine ⟨fun _ => inLine_of_all hall, ?_⟩
  cases l with
  | nil => cases hhead
  | cons c t => exact ⟨c, t, rfl, of_decide_eq_true hhead⟩

theorem logical_begin : Logical "BEGIN:VCALENDAR".toList :=
  logical_of_plain (by decide) (by decide)

theorem logical_end : Logical "END:VCALENDAR".toList :=
  logical_of_plain (by decide) (by decide)

theorem logical_of_mem_eventLines (hl : l ∈ eventLines site ev) : Logical l := by
  unfold eventLines at hl
  cases hps : eventProperties site ev with
  | none =>
    rw [hps] at hl
    cases hl
  | some ps =>
    rw [hps] at hl
    rcases List.mem_append.mp hl with hl | hl
    · rcases List.mem_append.mp hl with hl | hl
      · rw [List.mem_singleton.mp hl]
        exact logical_of_plain (by decide) (by decide)
      · obtain ⟨p, hp, rfl⟩ := List.mem_map.mp hl
        exact (writable_of_mem hps hp).logical
    · rw [List.mem_singleton.mp hl]
      exact logical_of_plain (by decide) (by decide)

theorem logical_of_mem (hl : l ∈ icsLines site events) : Logical l := by
  rcases List.mem_append.mp hl with hl | hl
  · rcases List.mem_append.mp hl with hl | hl
    · rcases List.mem_append.mp hl with hl | hl
      · rw [List.mem_singleton.mp hl]
        exact logical_begin
      · obtain ⟨p, hp, rfl⟩ := List.mem_map.mp hl
        exact (writable_calendar hp).logical
    · obtain ⟨ev, _, hl⟩ := List.mem_flatMap.mp hl
      exact logical_of_mem_eventLines hl
  · rw [List.mem_singleton.mp hl]
    exact logical_end

theorem eventsIcs_eq : eventsIcs site events =
    (icsLines site events).flatMap fun l =>
      terminated '\r' '\n' (fold Char.utf8Size ICS_FOLD_OCTETS ' ' l) :=
  List.flatMap_congr fun l _ => icsFold_crlf l

theorem splitLines_eventsIcs : splitLines '\r' '\n' (eventsIcs site events) =
    (icsLines site events).flatMap (fold Char.utf8Size ICS_FOLD_OCTETS ' ') ++ [[]] := by
  have htext : eventsIcs site events = terminated '\r' '\n'
      ((icsLines site events).flatMap (fold Char.utf8Size ICS_FOLD_OCTETS ' ')) := by
    rw [eventsIcs_eq]
    exact List.flatMap_assoc.symm
  rw [htext]
  refine splitLines_terminated fun l hl => ?_
  obtain ⟨line, hline, hl⟩ := List.mem_flatMap.mp hl
  intro hcr
  rcases mem_of_mem_fold hl hcr with hcr | hcr
  · exact ((logical_of_mem hline).inLine '\r' hcr).1 rfl
  · revert hcr
    decide

theorem octets_le (hl : l ∈ splitLines '\r' '\n' (eventsIcs site events)) :
    octets l ≤ ICS_FOLD_OCTETS := by
  rw [splitLines_eventsIcs] at hl
  rcases List.mem_append.mp hl with hl | hl
  · obtain ⟨line, _, hl⟩ := List.mem_flatMap.mp hl
    refine width_le_of_mem_fold (by decide) (fun c _ => ?_) l hl
    have hsize := Char.utf8Size_le_four c
    unfold ICS_FOLD_OCTETS
    omega
  · rw [List.mem_singleton.mp hl]
    exact Nat.zero_le _

theorem unfoldedLines_eventsIcs :
    unfoldedLines (eventsIcs site events) = icsLines site events ++ [[]] := by
  have hcr : ∀ l ∈ icsLines site events, '\r' ∉ l :=
    fun l hl h => ((logical_of_mem hl).inLine '\r' h).1 rfl
  unfold unfoldedLines
  rw [eventsIcs_eq, unfold_fold hcr (by decide) (fun l hl => (logical_of_mem hl).head) (by decide)]
  exact splitLines_terminated hcr

/-! ## Components -/

def asRead (p : String × List Char) : Property := (p.1.toList, p.2)

theorem Writable.readProperty {p : String × List Char} (h : Writable p) :
    Calendar.readProperty (property p.1 p.2) = asRead p :=
  readProperty_property fun _ hc => (Named.inLine (named_of_mem p.1 h.name) hc).2

variable {ps : List (String × List Char)}

theorem map_readProperty (h : ∀ p ∈ ps, Writable p) :
    (ps.map fun p => property p.1 p.2).map readProperty = ps.map asRead := by
  rw [List.map_map]
  exact List.map_congr_left fun p hp => (h p hp).readProperty

def Inner (p : Property) : Prop := p.1 ≠ "BEGIN".toList ∧ p.1 ≠ "END".toList

theorem Writable.inner {p : String × List Char} (h : Writable p) : Inner (asRead p) :=
  ⟨(named_of_mem p.1 h.name).2.1, (named_of_mem p.1 h.name).2.2.1⟩

theorem readFrom_some {ps : List Property} (hps : ∀ p ∈ ps, Inner p) (e rest : List Property) :
    readFrom (some e) (ps ++ rest) = readFrom (some (e ++ ps)) rest := by
  induction ps generalizing e with
  | nil => rw [List.append_nil, List.nil_append]
  | cons p ps ih =>
    obtain ⟨hbegin, hend⟩ := hps p List.mem_cons_self
    have hclose : p ≠ ("END".toList, "VEVENT".toList) := fun h => hend (congrArg Prod.fst h)
    rw [List.cons_append, readFrom_open, if_neg hclose, if_neg (not_or.mpr ⟨hbegin, hend⟩),
      ih fun q hq => hps q (List.mem_cons_of_mem p hq), List.append_assoc]
    rfl

theorem readFrom_none {ps : List Property} (hps : ∀ p ∈ ps, Inner p) (rest : List Property) :
    readFrom none (ps ++ rest) = (readFrom none rest).map fun q => (ps ++ q.1, q.2) := by
  induction ps with
  | nil =>
    rw [List.nil_append]
    cases readFrom none rest <;> rfl
  | cons p ps ih =>
    obtain ⟨hbegin, hend⟩ := hps p List.mem_cons_self
    have hclose : p ≠ ("END".toList, "VCALENDAR".toList) := fun h => hend (congrArg Prod.fst h)
    have hopen : p ≠ ("BEGIN".toList, "VEVENT".toList) := fun h => hbegin (congrArg Prod.fst h)
    rw [List.cons_append, readFrom_closed, if_neg hclose, if_neg hopen,
      if_neg (not_or.mpr ⟨hbegin, hend⟩), ih fun q hq => hps q (List.mem_cons_of_mem p hq),
      Option.map_map]
    rfl

theorem readFrom_event {ps : List Property} (hps : ∀ p ∈ ps, Inner p) (rest : List Property) :
    readFrom none (("BEGIN".toList, "VEVENT".toList) :: ps ++
      ("END".toList, "VEVENT".toList) :: rest) =
      (readFrom none rest).map fun q => (q.1, ps :: q.2) := by
  have hopen : (("BEGIN".toList, "VEVENT".toList) : Property) ≠
      ("END".toList, "VCALENDAR".toList) := by decide
  rw [List.cons_append, readFrom_closed, if_neg hopen, if_pos rfl, readFrom_some hps,
    readFrom_open, if_pos rfl, List.nil_append]

theorem map_eventLines (h : eventProperties site ev = some ps) :
    (eventLines site ev).map readProperty =
      ("BEGIN".toList, "VEVENT".toList) :: ps.map asRead ++ [("END".toList, "VEVENT".toList)] := by
  have hopen : readProperty "BEGIN:VEVENT".toList = ("BEGIN".toList, "VEVENT".toList) := by
    decide
  have hclose : readProperty "END:VEVENT".toList = ("END".toList, "VEVENT".toList) := by
    decide
  unfold eventLines
  rw [h]
  dsimp only
  rw [List.map_append, List.map_append, map_readProperty fun p hp => writable_of_mem h hp,
    List.map_singleton, List.map_singleton, hopen, hclose]
  rfl

theorem readFrom_events (rest : List Property) :
    readFrom none ((events.flatMap (eventLines site)).map readProperty ++ rest) =
      (readFrom none rest).map fun q =>
        (q.1, (events.filterMap (eventProperties site)).map (·.map asRead) ++ q.2) := by
  induction events with
  | nil =>
    rw [List.flatMap_nil, List.map_nil, List.nil_append]
    cases readFrom none rest <;> rfl
  | cons ev events ih =>
    rw [List.flatMap_cons, List.map_append, List.append_assoc]
    cases hps : eventProperties site ev with
    | none =>
      have hlines : eventLines site ev = [] := by
        unfold eventLines
        rw [hps]
      rw [hlines, List.filterMap_cons_none hps]
      exact ih
    | some ps =>
      have hinner : ∀ p ∈ ps.map asRead, Inner p := by
        intro p hp
        obtain ⟨q, hq, rfl⟩ := List.mem_map.mp hp
        exact (writable_of_mem hps hq).inner
      rw [map_eventLines hps, List.filterMap_cons_some hps, List.append_assoc,
        List.singleton_append, readFrom_event hinner, ih, Option.map_map]
      rfl

theorem readCalendar_eventsIcs : readCalendar (eventsIcs site events) =
    some (calendarProperties.map asRead,
      (events.filterMap (eventProperties site)).map (·.map asRead)) := by
  have hclose : readProperty "END:VCALENDAR".toList = ("END".toList, "VCALENDAR".toList) := by
    decide
  have hend : readFrom none [(("END".toList, "VCALENDAR".toList) : Property)] = some ([], []) := by
    rw [readFrom_closed, if_pos rfl, if_pos rfl]
  have hinner : ∀ p ∈ calendarProperties.map asRead, Inner p := by
    intro p hp
    obtain ⟨q, hq, rfl⟩ := List.mem_map.mp hp
    exact (writable_calendar hq).inner
  have hlines : icsLines site events ++ [[]] = "BEGIN:VCALENDAR".toList ::
      ((calendarProperties.map (fun p => property p.1 p.2) ++
        (events.flatMap (eventLines site) ++ ["END:VCALENDAR".toList])) ++ [[]]) := by
    unfold icsLines
    rw [List.append_assoc, List.append_assoc, List.append_assoc, List.append_assoc,
      List.append_assoc]
    rfl
  unfold readCalendar
  rw [unfoldedLines_eventsIcs, hlines]
  dsimp only
  rw [if_pos ⟨rfl, List.getLast?_concat⟩, List.dropLast_concat, List.map_append, List.map_append,
    map_readProperty fun p hp => writable_calendar hp, readFrom_none hinner, readFrom_events,
    List.map_singleton, hclose, hend]
  simp

theorem lookup_optionalProperty (key name : String) (value : Option (List Char)) :
    (optionalProperty name value).lookup key = if key = name then value else none := by
  cases value with
  | none => exact (ite_self none).symm
  | some text => by_cases h : key = name <;> simp [optionalProperty, h]

theorem texts_of_eventProperties (h : eventProperties site ev = some ps) :
    (ps.lookup "SUMMARY").map unescape = some (shown ev.title) ∧
      (ps.lookup "DESCRIPTION").map unescape = (given ev.description).map shown ∧
      (ps.lookup "LOCATION").map unescape = (ev.map.bind given).map shown := by
  obtain ⟨start, _, rfl⟩ := Option.map_eq_some_iff.mp h
  simp only [List.lookup_append, lookup_optionalProperty]
  generalize given ev.description = description
  generalize ev.map.bind given = map
  refine ⟨?_, ?_, ?_⟩
  · simp [List.lookup_cons, unescape_icsText]
  · cases description <;> simp [List.lookup_cons, unescape_icsText]
  · cases map <;> simp [List.lookup_cons, unescape_icsText]

/-- The feed, read back: no physical line is wider than 75 octets, the logical lines are those that
were written, and the components are the events that have a start, with their texts. -/
theorem feed_round_trip (site : Site) (events : List PublicEvent) :
    (∀ l ∈ splitLines '\r' '\n' (eventsIcs site events), octets l ≤ 75) ∧
      unfoldedLines (eventsIcs site events) = icsLines site events ++ [[]] ∧
      readCalendar (eventsIcs site events) =
        some (calendarProperties.map asRead,
          (events.filterMap (eventProperties site)).map (·.map asRead)) ∧
      ∀ ev ∈ events, ∀ ps, eventProperties site ev = some ps →
        (ps.lookup "SUMMARY").map unescape = some (shown ev.title) ∧
          (ps.lookup "DESCRIPTION").map unescape = (given ev.description).map shown ∧
          (ps.lookup "LOCATION").map unescape = (ev.map.bind given).map shown :=
  ⟨fun _ => octets_le, unfoldedLines_eventsIcs, readCalendar_eventsIcs,
    fun _ _ _ => texts_of_eventProperties⟩

end LastSietch.Calendar
