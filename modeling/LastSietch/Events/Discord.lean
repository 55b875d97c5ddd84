import LastSietch.Events.Store
import Mathlib.Data.List.Sort

/-!
# What Discord should show

`event_discord`: the status that an event should have on Discord, the list that `pending` hands out
to the bot, and what `ack` records of the bot's answers.
-/

namespace LastSietch.Events

/-- `DEFAULT_LENGTH`. -/
def DEFAULT_LENGTH : Nat := 2 * 3600
def NAME_MAX : Nat := 100
def DISCORD_DESCRIPTION_MAX : Nat := 1000
def LOCATION_MAX : Nat := 100
def DEFAULT_LOCATION : String := "The Last Sietch"

/-- `window`'s end: an event with an open end runs two hours. -/
def Event.windowEnd (e : Event) : Nat := e.endsUtc.getD (e.startsUtc + DEFAULT_LENGTH)

def desiredStatus (e : Event) (now : Nat) : Option DiscordStatus :=
  if e.status ≠ .published ∨ e.discordSync = false then
    if e.discordEventId.isSome then some .canceled else none
  else if e.windowEnd ≤ now then some .completed
  else if e.startsUtc ≤ now then some .active
  else some .scheduled

/-! ## What is handed out -/

/-- One event for the bot. `rev` is the row's `updated_at`. -/
structure Item where
  id : Nat
  rev : Nat
  desired : DiscordStatus
  discordEventId : Option String
  discordStatus : Option DiscordStatus
  name : String
  description : String
  location : String
  startsUtc : Nat
  endsUtc : Nat
  banner : Option String
  marker : String

def portalEventUrl (id : Nat) : String := "https://portal.lastsietch.com/events/" ++ toString id

variable (py : Python)

def trim (text : String) (limit : Nat) : String :=
  let text := py.strip text
  if text.length ≤ limit then text
  else py.rstrip (String.ofList (text.toList.take (limit - 3))) ++ "..."

def Event.discordText (e : Event) : String :=
  let link := portalEventUrl e.id
  let body := trim py (e.description.getD "") (DISCORD_DESCRIPTION_MAX - link.length - 2)
  if body = "" then link else body ++ "\n\n" ++ link

def item (e : Event) (desired : DiscordStatus) : Item where
  id := e.id
  rev := e.updatedAt
  desired := desired
  discordEventId := e.discordEventId
  discordStatus := e.discordStatus
  name := trim py e.title NAME_MAX
  description := e.discordText py
  location := trim py (e.mapName.getD DEFAULT_LOCATION) LOCATION_MAX
  startsUtc := e.startsUtc
  endsUtc := e.windowEnd
  banner := e.banner
  marker := portalEventUrl e.id

def Event.Shows (now : Nat) (e : Event) : Prop :=
  ∃ desired, desiredStatus e now = some desired ∧ (e.discordEventId ≠ none ∨ desired = .scheduled)

/-- The rows that `pending` reads. -/
def Event.onDiscord (e : Event) : Bool :=
  (e.discordSync || e.discordEventId.isSome) && !e.discordStatus.any (·.final)

def Event.needsWork (desired : DiscordStatus) (e : Event) : Bool :=
  e.discordState = some .pending || e.discordState = some .failed || some desired ≠ e.discordStatus

def addWork (row : Event) (desired : DiscordStatus) (out : List (Event × DiscordStatus)) :
    List (Event × DiscordStatus) :=
  if row.needsWork desired then out ++ [(row, desired)] else out

/-- The loop of `pending`. -/
def handOut (now limit : Nat) : List Event → List (Event × DiscordStatus) →
    List (Event × DiscordStatus)
  | [], out => out
  | row :: rest, out =>
    match desiredStatus row now with
    | none => handOut now limit rest out
    | some desired =>
      if row.discordEventId = none ∧ desired ≠ .scheduled then handOut now limit rest out
      else if limit ≤ (addWork row desired out).length then addWork row desired out
      else handOut now limit rest (addWork row desired out)

/-- The rows that `pending` hands out, each with the status it should have. -/
def pendingRows (limit now : Nat) (events : Rows) : List (Event × DiscordStatus) :=
  handOut now limit
    ((events.rows.filter (·.onDiscord)).insertionSort fun a b => a.startsUtc ≤ b.startsUtc) []

def pending (limit now : Nat) (events : Rows) : List Item :=
  (pendingRows limit now events).map fun p => item py p.1 p.2

section HandOut

variable {now limit : Nat} {rows : List Event} {out : List (Event × DiscordStatus)}
  {p : Event × DiscordStatus} {row : Event} {desired : DiscordStatus}

theorem mem_addWork : p ∈ addWork row desired out ↔
    p ∈ out ∨ p = (row, desired) ∧ row.needsWork desired = true := by
  unfold addWork
  split
  · rename_i hwork
    rw [List.mem_append, List.mem_singleton]
    exact ⟨fun h => h.imp_right fun h => ⟨h, hwork⟩, fun h => h.imp_right fun h => h.1⟩
  · rename_i hwork
    exact ⟨Or.inl, fun h => h.elim id fun h => absurd h.2 hwork⟩

theorem length_addWork_le : (addWork row desired out).length ≤ out.length + 1 := by
  unfold addWork
  split
  · rw [List.length_append, List.length_singleton]
  · omega

theorem of_mem_handOut (h : p ∈ handOut now limit rows out) :
    p ∈ out ∨ p.1 ∈ rows ∧ desiredStatus p.1 now = some p.2 := by
  induction rows generalizing out with
  | nil => exact Or.inl h
  | cons row rest ih =>
    have hrest : ∀ {out'}, p ∈ handOut now limit rest out' →
        p ∈ out' ∨ p.1 ∈ row :: rest ∧ desiredStatus p.1 now = some p.2 := fun h' =>
      (ih h').imp_right fun h' => ⟨List.mem_cons_of_mem row h'.1, h'.2⟩
    unfold handOut at h
    split at h
    · exact hrest h
    · rename_i desired hdesired
      have hnew : p ∈ addWork row desired out →
          p ∈ out ∨ p.1 ∈ row :: rest ∧ desiredStatus p.1 now = some p.2 := by
        intro h'
        rcases mem_addWork.mp h' with h' | ⟨rfl, -⟩
        · exact Or.inl h'
        · exact Or.inr ⟨List.mem_cons_self, hdesired⟩
      split at h
      · exact hrest h
      · split at h
        · exact hnew h
        · exact (hrest h).elim hnew Or.inr

theorem mem_handOut_of_mem (h : p ∈ out) : p ∈ handOut now limit rows out := by
  induction rows generalizing out with
  | nil => exact h
  | cons row rest ih =>
    unfold handOut
    split
    · exact ih h
    · split
      · exact ih h
      · split
        · exact mem_addWork.mpr (Or.inl h)
        · exact ih (mem_addWork.mpr (Or.inl h))

theorem mem_handOut (hrow : row ∈ rows) (hdesired : desiredStatus row now = some desired)
    (hshow : row.discordEventId ≠ none ∨ desired = .scheduled)
    (hwork : row.needsWork desired = true) (hlimit : out.length + rows.length ≤ limit) :
    (row, desired) ∈ handOut now limit rows out := by
  induction rows generalizing out with
  | nil => cases hrow
  | cons first rest ih =>
    rw [List.length_cons] at hlimit
    unfold handOut
    rcases List.mem_cons.mp hrow with rfl | hrow
    · have hgo : ¬(row.discordEventId = none ∧ desired ≠ .scheduled) := by
        rintro ⟨hnone, hne⟩
        exact hshow.elim (fun h => h hnone) hne
      have hnew : (row, desired) ∈ addWork row desired out := mem_addWork.mpr (Or.inr ⟨rfl, hwork⟩)
      simp only [hdesired, if_neg hgo]
      split
      · exact hnew
      · exact mem_handOut_of_mem hnew
    · have hpos : 0 < rest.length := List.length_pos_of_mem hrow
      split
      · exact ih hrow (by omega)
      · rename_i other _
        have hlength : (addWork first other out).length ≤ out.length + 1 := length_addWork_le
        split
        · exact ih hrow (by omega)
        · rw [if_neg (by omega)]
          exact ih hrow (by omega)

end HandOut

theorem of_mem_pendingRows {limit now : Nat} {events : Rows} {p : Event × DiscordStatus}
    (h : p ∈ pendingRows limit now events) :
    p.1 ∈ events ∧ p.1.onDiscord = true ∧ desiredStatus p.1 now = some p.2 := by
  rcases of_mem_handOut h with h | ⟨hmem, hdesired⟩
  · cases h
  · obtain ⟨hrow, hon⟩ := List.mem_filter.mp ((List.mem_insertionSort _).mp hmem)
    exact ⟨hrow, hon, hdesired⟩

theorem mem_pendingRows {limit now : Nat} {events : Rows} {row : Event} {desired : DiscordStatus}
    (hrow : row ∈ events) (hon : row.onDiscord = true) (hdesired : desiredStatus row now = some desired)
    (hshow : row.discordEventId ≠ none ∨ desired = .scheduled)
    (hwork : row.needsWork desired = true) (hlimit : events.rows.length ≤ limit) :
    (row, desired) ∈ pendingRows limit now events := by
  refine mem_handOut ((List.mem_insertionSort _).mpr (List.mem_filter.mpr ⟨hrow, hon⟩)) hdesired hshow
    hwork ?_
  have hfilter := List.length_filter_le (·.onDiscord) events.rows
  rw [List.length_insertionSort, List.length_nil]
  omega

/-- The bot's answer to an item. A status that is none of the four is `none`. -/
inductive Outcome
  | ok (discordEventId : Option String) (status : Option DiscordStatus)
  | failed
  deriving DecidableEq

structure Result where
  id : Nat
  rev : Nat
  outcome : Outcome

/-- The row of one `UPDATE` of `ack`. -/
def Event.acked (r : Result) (e : Event) : Event :=
  match r.outcome with
  | .failed => { e with discordState := some .failed }
  | .ok _ none => e
  | .ok discordEventId (some status) =>
    { e with
      discordEventId := discordEventId.filter (· ≠ "")
      discordStatus := some status
      discordState := if e.updatedAt = r.rev then some .synced else some .pending }

theorem Event.acked_id (r : Result) (e : Event) : (e.acked r).id = e.id := by
  unfold Event.acked
  split <;> rfl

def ackOne (events : Rows) (r : Result) : Rows :=
  events.update (fun e => e.id = r.id) (Event.acked r) (Event.acked_id r) (Event.acked_id r)

def ack (results : List Result) (events : Rows) : Rows := results.foldl ackOne events

end LastSietch.Events
