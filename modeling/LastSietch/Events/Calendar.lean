import LastSietch.Lib.Folding

/-!
# The calendar feed

`events_ics`: the public events as an iCalendar file. `ics_text` escapes what a visitor has written,
`ics_fold` keeps every line at 75 octets. `readCalendar` is a reader of such a file: it unfolds it,
splits it into lines, and puts the properties of the events together; `feed_round_trip` says that it
finds the events, and in them their texts.
-/

namespace LastSietch.Calendar

open Folding

/-- What the feed reads of a `public_event`. -/
structure PublicEvent where
  id : Int
  title : List Char
  startsUtc : List Char
  endsUtc : Option (List Char)
  updatedAt : Option (List Char)
  map : Option (List Char)
  description : List Char

structure DateTime where
  year : Nat
  month : Nat
  day : Nat
  hour : Nat
  minute : Nat
  second : Nat

/-- `LASTSIETCH_ICS_UID_DOMAIN`, a host name. -/
structure Domain where
  text : List Char
  host : ∀ c ∈ text, c.isAlphanum = true ∨ c = '.' ∨ c = '-'

structure Site where
  domain : Domain
  /-- `datetime.strptime(text, "%Y-%m-%d %H:%M:%S")`, where it does not raise. -/
  strptime : List Char → Option DateTime

/-- `text.replace(c, by)`. -/
def replaceChar (c : Char) (new text : List Char) : List Char :=
  text.flatMap fun d => if d = c then new else [d]

/-- `text.replace("\r\n", "\n")`. -/
def replaceCrLf : List Char → List Char
  | [] => []
  | a :: t =>
    match t with
    | [] => [a]
    | b :: rest =>
      if a = '\r' ∧ b = '\n' then '\n' :: replaceCrLf rest else a :: replaceCrLf (b :: rest)

/-- `_ICS_CONTROL_RE`. -/
def isControl (c : Char) : Bool :=
  c.toNat ≤ 8 || (11 ≤ c.toNat && c.toNat ≤ 31) || c.toNat = 127

def icsText (value : List Char) : List Char :=
  let text := replaceChar '\r' ['\n'] (replaceCrLf value)
  let text := text.filter fun c => !isControl c
  replaceChar '\n' ['\\', 'n'] (replaceChar ',' ['\\', ','] (replaceChar ';' ['\\', ';']
    (replaceChar '\\' ['\\', '\\'] text)))

/-! ## Lines -/

def ICS_FOLD_OCTETS : Nat := 75

def crlf : List Char := ['\r', '\n']

/-- `len(line.encode("utf-8"))`. -/
def octets (line : List Char) : Nat := lineWidth Char.utf8Size line

def icsFold (line : List Char) : List Char :=
  crlf.intercalate (fold Char.utf8Size ICS_FOLD_OCTETS ' ' line)

/-- `'%d' % n`. -/
def decimal : Int → List Char
  | .ofNat n => Nat.toDigits 10 n
  | .negSucc n => '-' :: Nat.toDigits 10 (n + 1)

/-- `'%02d' % n`. -/
def twoDigits (n : Nat) : List Char :=
  if n < 10 then '0' :: Nat.toDigits 10 n else Nat.toDigits 10 n

variable (site : Site)

/-- `ics_stamp`, with `_stamp`. -/
def icsStamp (text : Option (List Char)) : Option (List Char) :=
  (site.strptime ((text.getD []).take 19)).map fun d =>
    Nat.toDigits 10 d.year ++ (twoDigits d.month ++ (twoDigits d.day ++ 'T' ::
      (twoDigits d.hour ++ (twoDigits d.minute ++ (twoDigits d.second ++ ['Z'])))))

def property (name : String) (value : List Char) : List Char := name.toList ++ ':' :: value

def portalEventUrl (id : Int) : List Char :=
  "https://portal.lastsietch.com/events/".toList ++ decimal id

def icsUid (id : Int) : List Char :=
  "event-".toList ++ (decimal id ++ '@' :: site.domain.text)

def given (text : List Char) : Option (List Char) := if text = [] then none else some text

def optionalProperty (name : String) (value : Option (List Char)) : List (String × List Char) :=
  match value with
  | some text => [(name, text)]
  | none => []

def eventProperties (ev : PublicEvent) : Option (List (String × List Char)) :=
  (icsStamp site (some ev.startsUtc)).map fun start =>
    [("UID", icsUid site ev.id), ("DTSTAMP", (icsStamp site ev.updatedAt).getD start),
      ("DTSTART", start)] ++
    optionalProperty "DTEND" (icsStamp site ev.endsUtc) ++
    [("SUMMARY", icsText ev.title)] ++
    optionalProperty "DESCRIPTION" ((given ev.description).map icsText) ++
    optionalProperty "LOCATION" ((ev.map.bind given).map icsText) ++
    [("URL", portalEventUrl ev.id)]

def eventLines (ev : PublicEvent) : List (List Char) :=
  match eventProperties site ev with
  | none => []
  | some ps => ["BEGIN:VEVENT".toList] ++ ps.map (fun p => property p.1 p.2) ++
      ["END:VEVENT".toList]

def calendarProperties : List (String × List Char) :=
  [("VERSION", "2.0".toList), ("PRODID", "-//Last Sietch//Portal Events//EN".toList),
    ("CALSCALE", "GREGORIAN".toList), ("X-WR-CALNAME", icsText "Last Sietch events".toList)]

def icsLines (events : List PublicEvent) : List (List Char) :=
  ["BEGIN:VCALENDAR".toList] ++ calendarProperties.map (fun p => property p.1 p.2) ++
    events.flatMap (eventLines site) ++ ["END:VCALENDAR".toList]

def eventsIcs (events : List PublicEvent) : List Char :=
  (icsLines site events).flatMap fun line => icsFold line ++ crlf

/-! ## A reader -/

def unescape : List Char → List Char
  | [] => []
  | a :: t =>
    match t with
    | [] => [a]
    | b :: rest =>
      if a = '\\' then (if b = 'n' ∨ b = 'N' then '\n' else b) :: unescape rest
      else a :: unescape (b :: rest)

def oneNewline : List Char → List Char
  | [] => []
  | a :: t =>
    match t with
    | [] => if a = '\r' then ['\n'] else [a]
    | b :: rest =>
      if a = '\r' ∧ b = '\n' then '\n' :: oneNewline rest
      else if a = '\r' then '\n' :: oneNewline (b :: rest)
      else a :: oneNewline (b :: rest)

def shown (text : List Char) : List Char := (oneNewline text).filter fun c => !isControl c

abbrev Property := List Char × List Char

def readProperty (line : List Char) : Property :=
  (line.takeWhile (· ≠ ':'), (line.dropWhile (· ≠ ':')).drop 1)

/-- Lines as a calendar: its own properties and those of its events. `ev` is the event that is
open. -/
def readFrom :
    Option (List Property) → List Property → Option (List Property × List (List Property))
  | _, [] => none
  | none, p :: rest =>
    if p = ("END".toList, "VCALENDAR".toList) then if rest = [] then some ([], []) else none
    else if p = ("BEGIN".toList, "VEVENT".toList) then readFrom (some []) rest
    else if p.1 = "BEGIN".toList ∨ p.1 = "END".toList then none
    else (readFrom none rest).map fun q => (p :: q.1, q.2)
  | some ev, p :: rest =>
    if p = ("END".toList, "VEVENT".toList) then (readFrom none rest).map fun q => (q.1, ev :: q.2)
    else if p.1 = "BEGIN".toList ∨ p.1 = "END".toList then none
    else readFrom (some (ev ++ [p])) rest

theorem readFrom_closed (p : Property) (rest : List Property) : readFrom none (p :: rest) =
    if p = ("END".toList, "VCALENDAR".toList) then if rest = [] then some ([], []) else none
    else if p = ("BEGIN".toList, "VEVENT".toList) then readFrom (some []) rest
    else if p.1 = "BEGIN".toList ∨ p.1 = "END".toList then none
    else (readFrom none rest).map fun q => (p :: q.1, q.2) := rfl

theorem readFrom_open (ev : List Property) (p : Property) (rest : List Property) :
    readFrom (some ev) (p :: rest) =
      if p = ("END".toList, "VEVENT".toList) then (readFrom none rest).map fun q => (q.1, ev :: q.2)
      else if p.1 = "BEGIN".toList ∨ p.1 = "END".toList then none
      else readFrom (some (ev ++ [p])) rest := rfl

def unfoldedLines (text : List Char) : List (List Char) :=
  splitLines '\r' '\n' (unfold '\r' '\n' ' ' text)

def readCalendar (text : List Char) : Option (List Property × List (List Property)) :=
  match unfoldedLines text with
  | [] => none
  | first :: rest =>
    if first = "BEGIN:VCALENDAR".toList ∧ rest.getLast? = some [] then
      readFrom none (rest.dropLast.map readProperty)
    else none

/-! ## Escaping -/

def escapeChar (c : Char) : List Char :=
  if c = '\\' then ['\\', '\\']
  else if c = ';' then ['\\', ';']
  else if c = ',' then ['\\', ',']
  else if c = '\n' then ['\\', 'n']
  else [c]

theorem replaceChar_flatMap (c : Char) (new : List Char) (f : Char → List Char) (t : List Char) :
    replaceChar c new (t.flatMap f) = t.flatMap fun d => replaceChar c new (f d) :=
  List.flatMap_assoc

theorem replaceChar_oneNewline (t : List Char) :
    replaceChar '\r' ['\n'] (replaceCrLf t) = oneNewline t := by
  induction t using replaceCrLf.induct with
  | case1 => rfl
  | case2 a => by_cases ha : a = '\r' <;> simp [replaceCrLf, replaceChar, oneNewline, ha]
  | case3 a b rest h ih =>
    obtain ⟨rfl, rfl⟩ := h
    simp only [replaceCrLf, oneNewline, and_self, if_true]
    exact congrArg ('\n' :: ·) ih
  | case4 a b rest h ih =>
    rw [replaceCrLf, if_neg h, oneNewline, if_neg h]
    by_cases ha : a = '\r'
    · rw [if_pos ha, ← ih, ha]
      rfl
    · rw [if_neg ha, ← ih, replaceChar, List.flatMap_cons, if_neg ha]
      rfl

theorem icsText_eq (t : List Char) : icsText t = (shown t).flatMap escapeChar := by
  have hchar (c : Char) : replaceChar '\n' ['\\', 'n'] (replaceChar ',' ['\\', ',']
      (replaceChar ';' ['\\', ';'] (if c = '\\' then ['\\', '\\'] else [c]))) = escapeChar c := by
    unfold escapeChar
    by_cases hslash : c = '\\'
    · subst hslash
      decide
    by_cases hsemi : c = ';'
    · subst hsemi
      decide
    by_cases hcomma : c = ','
    · subst hcomma
      decide
    by_cases hline : c = '\n'
    · subst hline
      decide
    simp [replaceChar, hslash, hsemi, hcomma, hline]
  unfold icsText
  dsimp only
  rw [replaceChar_oneNewline, replaceChar.eq_def '\\', replaceChar_flatMap, replaceChar_flatMap,
    replaceChar_flatMap]
  exact List.flatMap_congr fun c _ => hchar c

theorem unescape_cons {c : Char} (hc : c ≠ '\\') (t : List Char) :
    unescape (c :: t) = c :: unescape t := by
  cases t with
  | nil => rfl
  | cons b rest => exact if_neg hc

theorem unescape_escapeChar (c : Char) (t : List Char) :
    unescape (escapeChar c ++ t) = c :: unescape t := by
  unfold escapeChar
  split
  · subst c
    rfl
  split
  · subst c
    rfl
  split
  · subst c
    rfl
  split
  · subst c
    rfl
  · rename_i hslash _ _ _
    exact unescape_cons hslash t

theorem unescape_icsText (t : List Char) : unescape (icsText t) = shown t := by
  rw [icsText_eq]
  induction shown t with
  | nil => rfl
  | cons c s ih => rw [List.flatMap_cons, unescape_escapeChar, ih]

def InLine (c : Char) : Prop := c ≠ '\r' ∧ c ≠ '\n'

instance (c : Char) : Decidable (InLine c) := inferInstanceAs (Decidable (_ ∧ _))

/-- The text is gone through once; a search for every character would go through all of Unicode. -/
theorem inLine_of_all {text : List Char} (h : text.all (fun c => decide (InLine c)) = true)
    (hc : c ∈ text) : InLine c :=
  of_decide_eq_true (List.all_eq_true.mp h c hc)

theorem inLine_of_mem_escapeChar {c d : Char} (hc : c ≠ '\r') (hd : d ∈ escapeChar c) :
    InLine d := by
  unfold escapeChar at hd
  split at hd
  · simp only [List.mem_cons, List.not_mem_nil, or_false, or_self] at hd
    subst hd
    exact ⟨by decide, by decide⟩
  split at hd
  · simp only [List.mem_cons, List.not_mem_nil, or_false] at hd
    rcases hd with rfl | rfl <;> exact ⟨by decide, by decide⟩
  split at hd
  · simp only [List.mem_cons, List.not_mem_nil, or_false] at hd
    rcases hd with rfl | rfl <;> exact ⟨by decide, by decide⟩
  split at hd
  · simp only [List.mem_cons, List.not_mem_nil, or_false] at hd
    rcases hd with rfl | rfl <;> exact ⟨by decide, by decide⟩
  · rename_i hline
    rw [List.mem_singleton] at hd
    subst hd
    exact ⟨hc, hline⟩

theorem inLine_of_mem_icsText {t : List Char} {c : Char} (hc : c ∈ icsText t) : InLine c := by
  rw [icsText_eq] at hc
  obtain ⟨d, hd, hc⟩ := List.mem_flatMap.mp hc
  refine inLine_of_mem_escapeChar ?_ hc
  rintro rfl
  have hcontrol := (List.mem_filter.mp hd).2
  revert hcontrol
  decide

/-! ## The lines of the feed -/

theorem inLine_of_isAlphanum {c : Char} (hc : c.isAlphanum = true) : InLine c := by
  refine ⟨?_, ?_⟩ <;> rintro rfl <;> cases hc

theorem inLine_of_mem_digits {n : Nat} {c : Char} (hc : c ∈ Nat.toDigits 10 n) : InLine c := by
  have hdigit := Nat.isDigit_of_mem_toDigits (by decide) (by decide) hc
  refine inLine_of_isAlphanum ?_
  rw [Char.isAlphanum, hdigit, Bool.or_true]

theorem inLine_of_mem_decimal {z : Int} {c : Char} (hc : c ∈ decimal z) : InLine c := by
  cases z with
  | ofNat n => exact inLine_of_mem_digits hc
  | negSucc n =>
    rcases List.mem_cons.mp hc with rfl | hc
    · exact ⟨by decide, by decide⟩
    · exact inLine_of_mem_digits hc

theorem inLine_of_mem_twoDigits {n : Nat} {c : Char} (hc : c ∈ twoDigits n) : InLine c := by
  unfold twoDigits at hc
  split at hc
  · rcases List.mem_cons.mp hc with rfl | hc
    · exact ⟨by decide, by decide⟩
    · exact inLine_of_mem_digits hc
  · exact inLine_of_mem_digits hc

variable {site} {ev : PublicEvent} {c : Char}

theorem inLine_of_mem_stamp {text : Option (List Char)} {stamp : List Char}
    (h : icsStamp site text = some stamp) (hc : c ∈ stamp) : InLine c := by
  obtain ⟨d, _, rfl⟩ := Option.map_eq_some_iff.mp h
  simp only [List.mem_append, List.mem_cons, List.not_mem_nil, or_false] at hc
  rcases hc with hc | hc | hc | rfl | hc | hc | hc | rfl
  · exact inLine_of_mem_digits hc
  · exact inLine_of_mem_twoDigits hc
  · exact inLine_of_mem_twoDigits hc
  · exact ⟨by decide, by decide⟩
  · exact inLine_of_mem_twoDigits hc
  · exact inLine_of_mem_twoDigits hc
  · exact inLine_of_mem_twoDigits hc
  · exact ⟨by decide, by decide⟩

theorem inLine_of_mem_uid {id : Int} (hc : c ∈ icsUid site id) : InLine c := by
  rcases List.mem_append.mp hc with hc | hc
  · exact inLine_of_all (by decide) hc
  rcases List.mem_append.mp hc with hc | hc
  · exact inLine_of_mem_decimal hc
  rcases List.mem_cons.mp hc with rfl | hc
  · exact ⟨by decide, by decide⟩
  · rcases site.domain.host c hc with hc | rfl | rfl
    · exact inLine_of_isAlphanum hc
    · exact ⟨by decide, by decide⟩
    · exact ⟨by decide, by decide⟩

theorem inLine_of_mem_url {id : Int} (hc : c ∈ portalEventUrl id) : InLine c := by
  rcases List.mem_append.mp hc with hc | hc
  · exact inLine_of_all (by decide) hc
  · exact inLine_of_mem_decimal hc

def NAMES : List String :=
  ["VERSION", "PRODID", "CALSCALE", "X-WR-CALNAME", "UID", "DTSTAMP", "DTSTART", "DTEND", "SUMMARY",
    "DESCRIPTION", "LOCATION", "URL"]

def Named (name : List Char) : Prop :=
  (name.all fun c => decide (InLine c) && c ≠ ':') = true ∧ name ≠ "BEGIN".toList ∧ name ≠ "END".toList ∧
    name ≠ [] ∧ name.head? ≠ some ' '

instance (name : List Char) : Decidable (Named name) := inferInstanceAs (Decidable (_ ∧ _))

theorem Named.inLine {name : List Char} (h : Named name) (hc : c ∈ name) : InLine c ∧ c ≠ ':' := by
  have hchar := List.all_eq_true.mp h.1 c hc
  simp only [Bool.and_eq_true, decide_eq_true_eq] at hchar
  exact hchar

theorem named_of_mem : ∀ name ∈ NAMES, Named name.toList := by decide

structure Writable (p : String × List Char) : Prop where
  name : p.1 ∈ NAMES
  value : ∀ c ∈ p.2, InLine c

theorem writable {name : String} {value : List Char} (hname : name ∈ NAMES)
    (hvalue : ∀ c ∈ value, InLine c) : Writable (name, value) := ⟨hname, hvalue⟩

variable {p : String × List Char}

theorem writable_optional {name : String} {value : Option (List Char)} (hname : name ∈ NAMES)
    (hvalue : ∀ text, value = some text → ∀ c ∈ text, InLine c)
    (hp : p ∈ optionalProperty name value) : Writable p := by
  cases value with
  | none => cases hp
  | some text =>
    rw [List.mem_singleton.mp hp]
    exact writable hname (hvalue text rfl)

theorem inLine_of_map_icsText {text : Option (List Char)} :
    ∀ t, text.map icsText = some t → ∀ c ∈ t, InLine c := by
  intro t ht c hc
  obtain ⟨s, _, rfl⟩ := Option.map_eq_some_iff.mp ht
  exact inLine_of_mem_icsText hc

theorem writable_of_mem {ps : List (String × List Char)} (h : eventProperties site ev = some ps) (hp : p ∈ ps) : Writable p := by
  obtain ⟨start, hstart, rfl⟩ := Option.map_eq_some_iff.mp h
  simp only [List.mem_append, List.mem_cons, List.not_mem_nil, or_false] at hp
  rcases hp with (((((rfl | rfl | rfl) | hend) | rfl) | hdescription) | hlocation) | rfl
  · exact writable (by decide) fun c => inLine_of_mem_uid
  · refine writable (by decide) fun c hc => ?_
    cases hstamp : icsStamp site ev.updatedAt with
    | none =>
      rw [hstamp] at hc
      exact inLine_of_mem_stamp hstart hc
    | some stamp =>
      rw [hstamp] at hc
      exact inLine_of_mem_stamp hstamp hc
  · exact writable (by decide) fun c => inLine_of_mem_stamp hstart
  · exact writable_optional (by decide) (fun _ ht _ hc => inLine_of_mem_stamp ht hc) hend
  · exact writable (by decide) fun c => inLine_of_mem_icsText
  · exact writable_optional (by decide) inLine_of_map_icsText hdescription
  · exact writable_optional (by decide) inLine_of_map_icsText hlocation
  · exact writable (by decide) fun c => inLine_of_mem_url

theorem writable_calendar (hp : p ∈ calendarProperties) : Writable p := by
  have hplain : ∀ p ∈ calendarProperties,
      p.1 ∈ NAMES ∧ p.2.all (fun c => decide (InLine c)) = true := by decide
  exact ⟨(hplain p hp).1, fun c hc => inLine_of_all (hplain p hp).2 hc⟩

structure Logical (l : List Char) : Prop where
  inLine : ∀ c ∈ l, InLine c
  head : ∃ c t, l = c :: t ∧ c ≠ ' '

theorem Writable.logical (h : Writable p) :
    Logical (property p.1 p.2) := by
  obtain ⟨_, _, _, hne, hhead⟩ := named_of_mem p.1 h.name
  refine ⟨fun c hc => ?_, ?_⟩
  · rcases List.mem_append.mp hc with hc | hc
    · exact (Named.inLine (named_of_mem p.1 h.name) hc).1
    · rcases List.mem_cons.mp hc with rfl | hc
      · exact ⟨by decide, by decide⟩
      · exact h.value c hc
  · unfold property
    cases hp : p.1.toList with
    | nil => exact absurd hp hne
    | cons c t =>
      rw [hp] at hhead
      exact ⟨c, t ++ ':' :: p.2, rfl, fun h => hhead (congrArg some h)⟩

theorem readProperty_property {name value : List Char} (hname : ∀ c ∈ name, c ≠ ':') :
    readProperty (name ++ ':' :: value) = (name, value) := by
  have hall : ∀ c ∈ name, (decide (c ≠ ':')) = true := fun c hc => decide_eq_true (hname c hc)
  unfold readProperty
  rw [List.takeWhile_append_of_pos hall, List.dropWhile_append_of_pos hall]
  simp

end LastSietch.Calendar
