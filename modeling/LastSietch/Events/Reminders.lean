import LastSietch.Events.Store
import LastSietch.Lib.Json
import Mathlib.Data.List.Sort

/-!
# Event reminders

`event_reminders` and the reminder writes of `portal_events`: the rows that a player sets and drops,
the rows that the weekend opt-in adds, the batch that a tick reads and the message that it makes of
a row. `notified_at` is the ledger of what has been sent.
-/

namespace LastSietch.Events.Reminders

structure Reminder where
  eventId : Nat
  account : Nat
  createdAt : Nat
  /-- `NULL` is still due. -/
  notifiedAt : Option Nat
  deriving DecidableEq

def Reminder.key (r : Reminder) : Nat × Nat := (r.eventId, r.account)

abbrev Book := Table Reminder Reminder.key

def Book.has (book : Book) (k : Nat × Nat) : Bool := (book.get? k).isSome

/-- `INSERT OR IGNORE`, with the `CHECK` of the table. -/
def Book.insertOrIgnore (book : Book) (r : Reminder) : Book :=
  if 0 < r.account then (book.insert? r).getD book else book

/-- `UPDATE ... SET notified_at`. -/
def Book.setNotified (book : Book) (p : Reminder → Bool) (at_ : Option Nat) : Book :=
  book.update p fun r => { r with notifiedAt := at_ }

/-- A row of `portal_prefs`; a document that does not parse is `none`. -/
structure Pref where
  discordId : String
  scope : String
  prefs : Option Json

/-- A row of `ls_account_links`. -/
structure Link where
  discordId : String
  account : Nat
  revoked : Bool

/-- A row of `portal_messages`, as far as a reminder sets it. -/
structure Message where
  recipient : Nat
  subject : Option String
  body : Option String
  eventId : Nat

/-! ## Text -/

/-- A `re` pattern: text in any case, `\s` at least so many times, `\b`, `|` and sequence. -/
inductive Pattern
  | word (text : List Char)
  | spaces (least : Nat)
  | boundary
  | either (p q : Pattern)
  | andThen (p q : Pattern)

/-- Python's text functions, the classes of `re` and `strftime`. -/
structure Python extends Events.Python where
  isSpace : Char → Bool
  isWord : Char → Bool
  /-- Equality of characters under `re.I`. -/
  sameLetter : Char → Char → Bool
  stamp : Nat → String

def plainPython : Python where
  toPython := Events.plainPython
  isSpace := Char.isWhitespace
  isWord c := c.isAlphanum || c = '_'
  sameLetter c d := c.toLower = d.toLower
  stamp n := n.repr

abbrev Place := Option Char × List Char

variable (py : Python)

def dropWord : List Char → Place → List Place
  | [], at_ => [at_]
  | _ :: _, (_, []) => []
  | c :: word, (_, d :: rest) => if py.sameLetter c d then dropWord word (some d, rest) else []

def dropSpaces (before : Option Char) : Nat → List Char → List Place
  | 0, [] => [(before, [])]
  | _ + 1, [] => []
  | least, c :: rest =>
    (if least = 0 then [(before, c :: rest)] else []) ++
      if py.isSpace c then dropSpaces (some c) (least - 1) rest else []

def Pattern.ends : Pattern → Place → List Place
  | word text, at_ => dropWord py text at_
  | spaces least, at_ => dropSpaces py at_.1 least at_.2
  | boundary, at_ => if at_.1.any py.isWord ≠ at_.2.head?.any py.isWord then [at_] else []
  | either p q, at_ => p.ends at_ ++ q.ends at_
  | andThen p q, at_ => (p.ends at_).flatMap q.ends

def Pattern.searchFrom (p : Pattern) (before : Option Char) : List Char → Bool
  | [] => (p.ends py (before, [])) ≠ []
  | c :: rest => (p.ends py (before, c :: rest)) ≠ [] || p.searchFrom (some c) rest

/-- `rule.search(text)`. -/
def Pattern.search (p : Pattern) (text : String) : Bool := p.searchFrom py none text.toList

def Pattern.text (text : String) : Pattern := .word text.toList

/-- `(?:double|2x)`. -/
def DOUBLE : Pattern := .either (.text "double") (.text "2x")

/-- `_TITLE_RULES`. -/
def TITLE_RULES : List (Pattern × Effect) :=
  [(.either (.andThen DOUBLE (.andThen (.spaces 1) (.text "landsraad")))
      (.either (.andThen (.text "landsraad") (.andThen (.spaces 1) (.text "weekend")))
        (.andThen (.text "spec") (.andThen (.either (.text "ialization") (.text ""))
          (.andThen (.spaces 1) (.text "xp"))))), .specXp),
    (.andThen (.text "craft") (.andThen (.either (.text "ing") (.text ""))
      (.andThen (.spaces 1) (.text "weekend"))), .crafting),
    (.either (.andThen DOUBLE (.andThen (.spaces 1) (.text "harvest")))
      (.andThen (.text "harvest") (.andThen (.spaces 1) (.text "weekend"))), .harvest),
    (.either (.andThen DOUBLE (.andThen (.spaces 0) (.text "xp")))
      (.andThen .boundary (.andThen (.text "xp") (.andThen (.spaces 1) (.text "weekend")))), .xp)]

/-- `weekend_effect`: every effect but `none` is one of `WEEKEND_EFFECTS`. -/
def weekendEffect (effect : Option Effect) (title : String) : Option Effect :=
  match effect.getD .none_ with
  | .none_ => (TITLE_RULES.find? fun rule => rule.1.search py title).map (·.2)
  | effect => some effect

def isWeekendEvent (e : Event) : Bool := (weekendEffect py e.effect e.title).isSome

def RESTART_LINE : String :=
  "All maps restart for about 20 minutes at the start and again at the end."

def eventUrl (id : Nat) : String := "https://portal.lastsietch.com/events/" ++ id.repr

def kindText : Kind → String
  | .community => "community"
  | .factionWar => "faction_war"
  | .maintenance => "maintenance"
  | .other => "other"

/-! ## What a tick reads -/

def LEAD_SECONDS : Nat := 3600
def TICK_LIMIT : Nat := 200

def inWindow (now : Nat) (e : Event) : Bool :=
  e.status = .published && now < e.startsUtc && e.startsUtc ≤ now + LEAD_SECONDS

/-- A row that `_DUE_SQL` gives. -/
structure Due where
  eventId : Nat
  account : Nat
  title : String
  kind : Kind
  startsUtc : Nat
  mapName : Option String
  effect : Option Effect
  deriving DecidableEq

def Due.key (d : Due) : Nat × Nat := (d.eventId, d.account)

/-- `ORDER BY e.starts_utc, r.event_id, r.account_id`. -/
def Due.before (a b : Due) : Prop :=
  a.startsUtc < b.startsUtc ∨ a.startsUtc = b.startsUtc ∧
    (a.eventId < b.eventId ∨ a.eventId = b.eventId ∧ a.account ≤ b.account)

instance : DecidableRel Due.before := fun _ _ => inferInstanceAs (Decidable (_ ∨ _))

def dueRow (now : Nat) (events : Rows) (r : Reminder) : Option Due := do
  let e ← events.byId? r.eventId
  if r.notifiedAt = none ∧ inWindow now e = true then
    some ⟨r.eventId, r.account, e.title, e.kind, e.startsUtc, e.mapName, e.effect⟩
  else none

/-- `_DUE_SQL`. -/
def due (now : Nat) (events : Rows) (book : Book) : List Due :=
  ((book.rows.filterMap (dueRow now events)).insertionSort Due.before).take TICK_LIMIT

variable {now : Nat} {book : Book}

theorem mem_due {events : Rows} {d : Due} (hd : d ∈ due now events book) :
    ∃ r ∈ book, ∃ e ∈ events, r.key = d.key ∧ e.id = d.eventId ∧ r.notifiedAt = none ∧
      e.status = .published := by
  have hjoin := (List.mem_insertionSort _).mp (List.mem_of_mem_take hd)
  obtain ⟨r, hr, hrow⟩ := List.mem_filterMap.mp hjoin
  obtain ⟨e, he, hsome⟩ := Option.bind_eq_some_iff.mp hrow
  obtain ⟨hmem, hid⟩ := SerialTable.byId?_eq_some.mp he
  split at hsome
  · rename_i hdue
    obtain rfl := Option.some.inj hsome
    have hwindow : e.status = .published := by
      have := hdue.2
      simp only [inWindow, Bool.and_eq_true, decide_eq_true_eq] at this
      exact this.1.1
    exact ⟨r, hr, e, hmem, rfl, hid, hdue.1, hwindow⟩
  · cases hsome

variable {r q : Reminder}

theorem key_of_dueRow {events : Rows} {d : Due}
    (h : dueRow now events r = some d) : d.key = r.key := by
  obtain ⟨e, -, hsome⟩ := Option.bind_eq_some_iff.mp h
  split at hsome
  · exact Option.some.inj hsome ▸ rfl
  · cases hsome

theorem due_nodup (now : Nat) (events : Rows) (book : Book) :
    ((due now events book).map Due.key).Nodup := by
  have hrows : (book.rows.filterMap (dueRow now events)).Pairwise fun a b => a.key ≠ b.key := by
    refine List.pairwise_filterMap.mpr ((List.pairwise_map.mp book.unique).imp ?_)
    intro a b hab d hd d' hd'
    rw [key_of_dueRow hd, key_of_dueRow hd']
    exact hab
  have hsorted : (((book.rows.filterMap (dueRow now events)).insertionSort Due.before).map
      Due.key).Nodup :=
    ((List.perm_insertionSort Due.before _).map Due.key).nodup_iff.mpr (List.pairwise_map.mpr hrows)
  exact hsorted.sublist ((List.take_sublist _ _).map _)

/-- `_body`. -/
def messageBody (d : Due) : String :=
  let title := py.strip d.title
  let mapName := py.strip (d.mapName.getD "")
  "\n".intercalate
    ([if title = "" then "Event" else title, "Kind: " ++ kindText d.kind,
        "Starts: " ++ py.stamp d.startsUtc ++ " UTC"] ++
      (if mapName = "" then [] else ["Map: " ++ mapName]) ++
      (if (weekendEffect py d.effect d.title).any (·.restart) then [RESTART_LINE] else []) ++
      [eventUrl d.eventId])

def SUBJECT_MAX : Nat := 200
def BODY_MAX : Nat := 4000

/-- `(text or "").strip()[:width] or None`. -/
def capped (width : Nat) (text : String) : Option String :=
  orNone (String.ofList ((py.strip text).toList.take width))

/-- The row that `mailbox.post` writes; its `recipient_id` must be positive. -/
def message (d : Due) : Option Message :=
  if 0 < d.account then
    some ⟨d.account, capped py SUBJECT_MAX ("Starts in an hour: " ++ py.strip d.title),
      capped py BODY_MAX (messageBody py d), d.eventId⟩
  else none

/-- `json_extract(prefs, '$.weekend_remind') = 1`. -/
def Pref.weekendRemind (p : Pref) : Bool :=
  match p.prefs.bind (·.get? "weekend_remind") with
  | some (.bool b) => b
  | some (.int z) => z = 1
  | some (.dec q) => q = 1
  | _ => false

/-- `_OPTED_IN_SQL`. -/
def optedIn (prefs : List Pref) (links : List Link) : List Nat :=
  (prefs.flatMap fun p =>
    if p.scope = "" ∧ p.weekendRemind = true then
      (links.filter fun l => l.discordId = p.discordId && !l.revoked).map (·.account)
    else []).dedup

/-- The pairs that `enrol_weekend` inserts, in its order. -/
def enrolled (now : Nat) (events : Rows) (prefs : List Pref) (links : List Link) :
    List (Nat × Nat) :=
  (events.rows.filter fun e => inWindow now e && isWeekendEvent py e).flatMap fun e =>
    (optedIn prefs links).map fun account => (e.id, account)

def insertAll (now : Nat) (book : Book) (keys : List (Nat × Nat)) : Book :=
  keys.foldl (fun book k => book.insertOrIgnore ⟨k.1, k.2, now, none⟩) book

/-- `enrol_weekend`: the rows after it, and how many it added. -/
def enrolWeekend (now : Nat) (events : Rows) (prefs : List Pref) (links : List Link)
    (book : Book) : Book × Nat :=
  let book' := insertAll now book (enrolled py now events prefs links)
  (book', book'.rows.length - book.rows.length)

def EVENT_REMINDER_CAP : Nat := 500
def PLAYER_REMINDER_CAP : Nat := 20
def TOGGLES_PER_HOUR : Nat := 60
def REARM_MINUTES : Nat := 15

structure Toggle where
  account : Nat
  at_ : Nat

/-- A press between its checks and its write; `already` is what `has_reminder` gave. -/
structure Press where
  eventId : Nat
  account : Nat
  on : Bool
  already : Bool

def Press.key (p : Press) : Nat × Nat := (p.eventId, p.account)

inductive PressRefusal
  | notFound | throttled | eventStarted | eventCap | playerCap
  deriving DecidableEq

def togglesInWindow (now : Nat) (toggles : List Toggle) (account : Nat) : Nat :=
  toggles.countP fun t => t.account = account && now ≤ t.at_ + 3600

def eventReminderCount (book : Book) (eventId : Nat) : Nat :=
  book.rows.countP fun r => r.eventId = eventId

def playerReminderCount (now : Nat) (events : Rows) (book : Book) (account : Nat) : Nat :=
  book.rows.countP fun r => r.account = account && (events.byId? r.eventId).any fun e =>
    e.status = .published && now < e.startsUtc

/-- `_toggle` up to its write. -/
def press (now : Nat) (events : Rows) (book : Book) (toggles : List Toggle)
    (eventId account : Nat) (on : Bool) : Except PressRefusal Press := do
  let e ← orRaise (events.byId? eventId) .notFound
  require (on = true → e.status = .published) .notFound
  require (togglesInWindow now toggles account < TOGGLES_PER_HOUR) .throttled
  let already := book.has (eventId, account)
  if on = true ∧ already = false then
    require (now < e.startsUtc) .eventStarted
    require (eventReminderCount book eventId < EVENT_REMINDER_CAP) .eventCap
    require (playerReminderCount now events book account < PLAYER_REMINDER_CAP) .playerCap
  .ok ⟨eventId, account, on, already⟩

/-- `add_reminder` and `remove_reminder`, where the press makes one of them. -/
def Press.write (now : Nat) (p : Press) (book : Book) : Book :=
  match p.on, p.already with
  | true, false => book.insertOrIgnore ⟨p.eventId, p.account, now, none⟩
  | false, true => book.filter fun r => r.key ≠ p.key
  | true, true | false, false => book

def rearmNeeded (now old new : Nat) : Bool :=
  now < new && REARM_MINUTES * 60 < ((new : Int) - old).natAbs

/-! ## What the writes leave -/

theorem mem_of_mem_insertOrIgnore
    (h : q ∈ book.insertOrIgnore r) : q ∈ book ∨ q = r ∧ book.has r.key = false := by
  unfold Book.insertOrIgnore at h
  split at h
  · cases hins : book.insert? r with
    | none =>
      rw [hins] at h
      exact Or.inl h
    | some book' =>
      rw [hins] at h
      rcases (Table.mem_insert? hins).mp h with rfl | hq
      · refine Or.inr ⟨rfl, ?_⟩
        rw [Book.has, Table.get?_eq_none.mpr fun s hs => Table.fresh_of_insert? hins hs]
        rfl
      · exact Or.inl hq
  · exact Or.inl h

theorem mem_insertOrIgnore (h : q ∈ book) :
    q ∈ book.insertOrIgnore r := by
  unfold Book.insertOrIgnore
  split
  · cases hins : book.insert? r with
    | none => exact h
    | some book' => exact (Table.mem_insert? hins).mpr (Or.inr h)
  · exact h

theorem has_of_mem (h : r ∈ book) : book.has r.key = true :=
  Option.isSome_iff_exists.mpr ⟨r, Table.get?_eq_some.mpr ⟨h, rfl⟩⟩

theorem mem_of_mem_insertAll {keys : List (Nat × Nat)}
    (h : q ∈ insertAll now book keys) : q ∈ book ∨ q.key ∈ keys ∧ book.has q.key = false ∧
      q.notifiedAt = none := by
  induction keys generalizing book with
  | nil => exact Or.inl h
  | cons k keys ih =>
    rcases ih h with hq | ⟨hk, hnew, hdue⟩
    · rcases mem_of_mem_insertOrIgnore hq with hq | ⟨rfl, hnew⟩
      · exact Or.inl hq
      · exact Or.inr ⟨List.mem_cons_self .., hnew, rfl⟩
    · refine Or.inr ⟨List.mem_cons_of_mem k hk, ?_, hdue⟩
      by_contra hhas
      obtain ⟨r, hr⟩ := Option.isSome_iff_exists.mp (Bool.eq_true_of_not_eq_false hhas)
      obtain ⟨hmem, hkey⟩ := Table.get?_eq_some.mp hr
      have hstays : r ∈ book.insertOrIgnore ⟨k.1, k.2, now, none⟩ := mem_insertOrIgnore hmem
      rw [← hkey, has_of_mem hstays] at hnew
      cases hnew

theorem mem_of_mem_write {p : Press} (h : q ∈ p.write now book) :
    q ∈ book ∧ (p.on = false → p.already = true → q.key ≠ p.key) ∨
      p.on = true ∧ p.already = false ∧ q.key = p.key ∧ book.has p.key = false := by
  unfold Press.write at h
  split at h
  · rename_i hon halready
    rcases mem_of_mem_insertOrIgnore h with hq | ⟨rfl, hnew⟩
    · refine Or.inl ⟨hq, fun hoff => ?_⟩
      rw [hon] at hoff
      cases hoff
    · exact Or.inr ⟨hon, halready, rfl, hnew⟩
  · obtain ⟨hq, hkey⟩ := Table.mem_filter.mp h
    exact Or.inl ⟨hq, fun _ _ => of_decide_eq_true hkey⟩
  · rename_i hon _
    refine Or.inl ⟨h, fun hoff => ?_⟩
    rw [hon] at hoff
    cases hoff
  · rename_i _ halready
    refine Or.inl ⟨h, fun _ hseen => ?_⟩
    rw [halready] at hseen
    cases hseen

theorem mem_setNotified {p : Reminder → Bool} {at_ : Option Nat} :
    q ∈ book.setNotified p at_ ↔ ∃ r ∈ book, q = if p r then { r with notifiedAt := at_ } else r :=
  Table.mem_update

end LastSietch.Events.Reminders
