import LastSietch.Chat.Commands
import LastSietch.Lib.Runs
import LastSietch.Lib.Spaced

/-!
# The brakes of a send

`guarded_send` of `routers/portal_chat`, with the windows of `portal_chat_filters`. A call holds the
write lock, so that it is one step, and it reads the clock four times in it: with microseconds where
it compares with the clock, as a stamp where it compares with a column. `clean_body` is the parameter
`clean`.

* `retryAfter_eq_zero`: what the ten newest stamps say of a send that is let through.
-/

namespace LastSietch.Chat

open Runs (exec Along exec_invariant)

def rateWindowS : Int := 30

def rateMaxInWindow : Nat := 10

def minIntervalS : Int := 1

def duplicateWindowS : Int := 10

namespace Messages

def recentSendTimes (accountId : Nat) (messages : Messages) : List Int :=
  ((messages.rows.filter fun m => m.accountId = accountId).map (·.createdUtc)).take rateMaxInWindow

end Messages

/-- The seconds of a wait, `math.ceil`. -/
def ceilSeconds (wait : Int) : Int := (wait + 999999) / 1000000

/-- The wait for `MIN_INTERVAL_S`. -/
def spacingWait (now newest : Int) : Int :=
  let sinceLast := now - microseconds newest
  if sinceLast < microseconds minIntervalS then max 0 (microseconds minIntervalS - sinceLast) else 0

/-- The wait for `RATE_MAX_IN_WINDOW`. -/
def windowWait (now : Int) (times : List Int) : Int :=
  let inWindow := times.filter fun t => now - microseconds t < microseconds rateWindowS
  if rateMaxInWindow ≤ inWindow.length then
    microseconds rateWindowS - (now - microseconds (inWindow.min?.getD 0))
  else 0

/-- `retry_after` for the times that `recent_send_times` gives. -/
def retryAfterTimes (now : Int) (times : List Int) : Int :=
  match times with
  | [] => 0
  | newest :: _ =>
    let wait := max (spacingWait now newest) (windowWait now times)
    if 0 < wait then max 1 (ceilSeconds wait) else 0

namespace Messages

def retryAfter (accountId : Nat) (now : Int) (messages : Messages) : Int :=
  retryAfterTimes now (messages.recentSendTimes accountId)

def isDuplicate (accountId : Nat) (cleaned : String) (now : Int) (messages : Messages) : Bool :=
  messages.rows.any fun m => m.accountId = accountId && m.body = cleaned &&
    stamp (now - microseconds duplicateWindowS) ≤ m.createdUtc

end Messages

/-! ## `guarded_send` -/

structure SendArgs (β : Type) where
  channel : String
  accountId : Nat
  controllerId : Option Nat
  charName : String
  rawBody : β
  clientKey : Option String
  deriving DecidableEq, Repr

structure Clock where
  mute : Int
  rate : Int
  duplicate : Int
  insert : Int
  deriving DecidableEq, Repr

/-- What a call answers; `raised` is the `IntegrityError` that has no row to replay. -/
inductive SendAnswer
  | ok (row : Message)
  | replay (row : Message)
  | muted (mute : Mute)
  | rateLimited (seconds : Int)
  | duplicate
  | refused (token : SendToken)
  | raised
  deriving DecidableEq, Repr

/-- What is outside: `clean_body`, and the characters of Unicode. -/
structure Filters (β : Type) where
  clean : β → Except SendToken String
  unicode : Unicode

namespace SendArgs

variable {β : Type}

/-- The row that `message_by_client_key` finds, `if client_key`. -/
def stored? (args : SendArgs β) (messages : Messages) : Option Message :=
  (args.clientKey.filter (fun key => key ≠ "")).bind fun key =>
    messages.byClientKey? args.accountId key

def message (args : SendArgs β) (kind : Kind) (body : String) : MessageArgs :=
  ⟨args.channel, args.accountId, args.controllerId, args.charName, body, kind, args.clientKey⟩

end SendArgs

/-- The transaction of `guarded_send` from its brakes on. -/
def Tables.brakedInsert {β : Type} (args : SendArgs β) (clock : Clock) (kind : Kind) (body : String)
    (t : Tables) : SendAnswer × Tables :=
  let wait := t.messages.retryAfter args.accountId clock.rate
  if wait ≠ 0 then
    (.rateLimited wait, t)
  else if t.messages.isDuplicate args.accountId body clock.duplicate then
    (.duplicate, t)
  else
    match t.messages.insertMessage (args.message kind body) clock.insert with
    | some (row, messages) => (.ok row, { t with messages })
    | none =>
      match args.stored? t.messages with
      | some existing => (.replay existing, t)
      | none => (.raised, t)

def Tables.guardedSend {β : Type} (filters : Filters β) (args : SendArgs β) (clock : Clock)
    (randbelow : Nat → Nat) (t : Tables) : SendAnswer × Tables :=
  match args.stored? t.messages with
  | some existing => (.replay existing, t)
  | none =>
    match t.mutes.activeMute args.accountId (some args.channel) clock.mute with
    | some mute => (.muted mute, t)
    | none =>
      match (filters.clean args.rawBody).bind (filters.unicode.parse randbelow) with
      | .error token => (.refused token, t)
      | .ok (kind, body) => t.brakedInsert args clock kind body

/-! ## The brakes -/

structure Messages.Braked (messages : Messages) : Prop where
  keys : Serial.UniqueWhere (fun m => m.clientKey ≠ none) (fun m => (m.accountId, m.clientKey))
    messages
  burst : ∀ accountId t, messages.rows.countP (fun m => m.accountId = accountId ∧
    t ≤ m.createdUtc ∧ m.createdUtc < t + rateWindowS) ≤ rateMaxInWindow
  interval : ∀ m ∈ messages, ∀ n ∈ messages, m.accountId = n.accountId → m.id < n.id →
    m.createdUtc + minIntervalS ≤ n.createdUtc
  duplicate : ∀ m ∈ messages, ∀ n ∈ messages, m.accountId = n.accountId → m.body = n.body →
    m.id < n.id → m.createdUtc + duplicateWindowS < n.createdUtc

theorem le_of_spacingWait {now newest : Int} (h : spacingWait now newest ≤ 0) :
    microseconds minIntervalS ≤ now - microseconds newest := by
  unfold spacingWait at h
  simp only at h
  split at h <;> omega

theorem length_lt_of_windowWait {now : Int} {times : List Int} (h : windowWait now times ≤ 0) :
    (times.filter fun t => now - microseconds t < microseconds rateWindowS).length <
      rateMaxInWindow := by
  by_contra hlong
  have hlong := Nat.not_lt.mp hlong
  unfold windowWait at h
  simp only [if_pos hlong] at h
  cases hmin : (times.filter fun t => now - microseconds t < microseconds rateWindowS).min? with
  | none =>
    rw [List.min?_eq_none_iff.mp hmin] at hlong
    exact absurd hlong (by decide)
  | some oldest =>
    have hmem := (List.mem_filter.mp (List.min?_mem hmin)).2
    rw [decide_eq_true_eq] at hmem
    rw [hmin, Option.getD_some] at h
    omega

/-- A send that is let through is a second after the newest one, and fewer than ten of the last ten
are in the window. -/
theorem retryAfterTimes_eq_zero {now : Int} {times : List Int} (h : retryAfterTimes now times = 0) :
    (∀ newest, times[0]? = some newest → microseconds minIntervalS ≤ now - microseconds newest) ∧
      (times.filter fun t => now - microseconds t < microseconds rateWindowS).length <
        rateMaxInWindow := by
  cases times with
  | nil => exact ⟨fun newest hnewest => by simp at hnewest, Nat.zero_lt_succ 9⟩
  | cons newest times =>
    unfold retryAfterTimes at h
    simp only at h
    have hwait : ¬ 0 < max (spacingWait now newest) (windowWait now (newest :: times)) := by
      intro hpos
      rw [if_pos hpos] at h
      omega
    refine ⟨fun first hfirst => ?_, length_lt_of_windowWait (by omega)⟩
    rw [List.getElem?_cons_zero, Option.some_inj] at hfirst
    exact hfirst ▸ le_of_spacingWait (by omega)

theorem le_of_retryAfterTimes {now tenth : Int} {times : List Int}
    (h : retryAfterTimes now (times.take rateMaxInWindow) = 0)
    (htenth : times[9]? = some tenth) (hs : times.Pairwise (fun a b => b ≤ a)) :
    microseconds rateWindowS ≤ now - microseconds tenth := by
  by_contra hin
  have hshort := (retryAfterTimes_eq_zero h).2
  have hlen : 9 < times.length := (List.getElem?_eq_some_iff.mp htenth).1
  have hall : ∀ t ∈ times.take rateMaxInWindow,
      decide (now - microseconds t < microseconds rateWindowS) = true := by
    intro t ht
    obtain ⟨i, hi⟩ := List.mem_iff_getElem?.mp ht
    obtain ⟨hlt, hi⟩ := List.getElem?_eq_some_iff.mp hi
    have hi10 : i < 10 := Nat.lt_of_lt_of_le hlt (List.length_take_le rateMaxInWindow times)
    have hle : tenth ≤ t := by
      rw [← hi, List.getElem_take]
      obtain ⟨hlt9, rfl⟩ := List.getElem?_eq_some_iff.mp htenth
      rcases Nat.lt_or_ge i 9 with h9 | h9
      · exact List.pairwise_iff_getElem.mp hs i 9 _ hlt9 h9
      · have : i = 9 := by omega
        subst this
        exact Int.le_refl _
    rw [decide_eq_true_eq]
    unfold microseconds at hin ⊢
    omega
  rw [List.filter_eq_self.mpr hall, List.length_take] at hshort
  unfold rateMaxInWindow at hshort
  omega

/-! ## The invariant -/

structure Sent where
  accountId : Nat
  body : String
  clientKey : Option String
  createdUtc : Int
  deriving DecidableEq, Repr

def Message.sent (m : Message) : Sent := ⟨m.accountId, m.body, m.clientKey, m.createdUtc⟩

def Messages.sends (messages : Messages) : List Sent := messages.rows.map Message.sent

def times (accountId : Nat) (sends : List Sent) : List Int :=
  (sends.filter fun m => m.accountId = accountId).map (·.createdUtc)

structure Sent.Apart (m n : Sent) : Prop where
  order : n.createdUtc ≤ m.createdUtc
  key : m.accountId = n.accountId → m.clientKey = n.clientKey → m.clientKey = none
  interval : m.accountId = n.accountId → n.createdUtc + minIntervalS ≤ m.createdUtc
  duplicate : m.accountId = n.accountId → m.body = n.body →
    n.createdUtc + duplicateWindowS < m.createdUtc

structure Inv (clock : Int) (sends : List Sent) : Prop where
  keyed : ∀ m ∈ sends, m.clientKey ≠ some ""
  late : ∀ m ∈ sends, m.createdUtc ≤ stamp clock
  apart : sends.Pairwise Sent.Apart
  burst : ∀ accountId, Spaced rateMaxInWindow rateWindowS (times accountId sends)

theorem times_sorted {sends : List Sent} (h : sends.Pairwise Sent.Apart) (accountId : Nat) :
    (times accountId sends).Pairwise (fun a b => b ≤ a) :=
  List.pairwise_map.mpr ((h.filter _).imp (fun hapart => hapart.order))

theorem Messages.recentSendTimes_eq (accountId : Nat) (messages : Messages) :
    messages.recentSendTimes accountId = (times accountId messages.sends).take rateMaxInWindow := by
  unfold recentSendTimes times sends
  rw [List.filter_map, List.map_map]
  rfl

theorem Inv.mono {clock later : Int} {sends : List Sent} (h : Inv clock sends) (hle : clock ≤ later) :
    Inv later sends :=
  ⟨h.keyed, fun m hm => Int.le_trans (h.late m hm) (stamp_le_stamp hle), h.apart, h.burst⟩

theorem Inv.cons {clock now : Int} {sends : List Sent} {m : Sent} (h : Inv clock sends)
    (hnow : clock ≤ now) (hstamp : m.createdUtc = stamp now) (hkey : m.clientKey ≠ some "")
    (hapart : ∀ n ∈ sends, m.Apart n) (hburst : ∀ tenth, (times m.accountId sends)[9]? = some tenth →
      tenth + rateWindowS ≤ m.createdUtc) : Inv now (m :: sends) := by
  refine ⟨fun n hn => ?_, fun n hn => ?_, List.pairwise_cons.mpr ⟨hapart, h.apart⟩, fun accountId => ?_⟩
  · rcases List.mem_cons.mp hn with rfl | hn
    · exact hkey
    · exact h.keyed n hn
  · rcases List.mem_cons.mp hn with rfl | hn
    · exact Int.le_of_eq hstamp
    · exact Int.le_trans (h.late n hn) (stamp_le_stamp hnow)
  · unfold times
    by_cases haccount : m.accountId = accountId
    · subst haccount
      rw [List.filter_cons_of_pos (by simp), List.map_cons]
      exact Spaced.cons (h.burst m.accountId) hburst
    · rw [List.filter_cons_of_neg (by simpa using haccount)]
      exact h.burst accountId

/-! ## A call -/

def Clock.After (clock : Int) (c : Clock) : Prop :=
  clock ≤ c.mute ∧ c.mute ≤ c.rate ∧ c.rate ≤ c.duplicate ∧ c.duplicate ≤ c.insert

def Tables.Silent (t : Tables) (row : Message) : Prop :=
  ∀ m ∈ t.mutes, m.accountId = row.accountId → m.covers row.channel = true →
    m.inForce row.createdUtc = false

instance (clock : Int) (c : Clock) : Decidable (c.After clock) := inferInstanceAs (Decidable (_ ∧ _))

structure Served {β : Type} (args : SendArgs β) (t : Tables) (r : SendAnswer × Tables) : Prop where
  stored : ∀ row, r.1 = .ok row → row.id = t.messages.next ∧ t.Silent row ∧
    ∃ messages : Messages, r.2 = { t with messages } ∧ messages.rows = row :: t.messages.rows
  refused : (∀ row, r.1 ≠ .ok row) → r.2 = t
  raised : r.1 ≠ .raised
  replayed : ∀ m ∈ t.messages, m.accountId = args.accountId → m.clientKey = args.clientKey →
    m.clientKey ≠ none → r.1 = .replay m

section Call

variable {β : Type} {args : SendArgs β} {t : Tables} {c : Clock} {clock : Int}

theorem inForce_mono {m : Mute} {now later : Int} (hle : now ≤ later)
    (h : m.inForce now = false) : m.inForce later = false := by
  unfold Mute.inForce at h ⊢
  cases hunlifted : m.isUnlifted with
  | false => rfl
  | true =>
    rw [hunlifted, Bool.true_and] at h
    rw [Bool.true_and]
    cases huntil : m.untilUtc with
    | none =>
      rw [huntil] at h
      cases h
    | some until_ =>
      rw [huntil, Option.all_some, decide_eq_false_iff_not] at h
      rw [Option.all_some, decide_eq_false_iff_not]
      omega

theorem silent_of_activeMute {row : Message}
    (h : t.mutes.activeMute args.accountId (some args.channel) c.mute = none)
    (haccount : row.accountId = args.accountId) (hchannel : row.channel = args.channel)
    (hle : stamp c.mute ≤ row.createdUtc) : t.Silent row := by
  intro m hm hsame hcovers
  refine inForce_mono hle ?_
  by_contra hforce
  have hmem : m ∈ t.mutes.rows.filter fun m => m.accountId = args.accountId &&
      m.inForce (stamp c.mute) && (some args.channel).all (fun c => m.covers c) := by
    refine List.mem_filter.mpr ⟨hm, ?_⟩
    rw [haccount] at hsame
    rw [hchannel] at hcovers
    rw [Bool.not_eq_false] at hforce
    simp [hsame, hcovers, hforce]
  rw [pick_eq_none.mp h] at hmem
  exact List.not_mem_nil hmem

theorem Inv.apart_of_brakes {sends : List Sent} {m : Sent} (h : Inv clock sends)
    (hc : c.After clock) (hstamp : m.createdUtc = stamp c.insert)
    (hkey : ∀ n ∈ sends, m.accountId = n.accountId → m.clientKey = n.clientKey → m.clientKey = none)
    (hwait : retryAfterTimes c.rate ((times m.accountId sends).take rateMaxInWindow) = 0)
    (hduplicate : ∀ n ∈ sends, m.accountId = n.accountId → m.body = n.body →
      n.createdUtc < stamp (c.duplicate - microseconds duplicateWindowS)) :
    ∀ n ∈ sends, m.Apart n := by
  obtain ⟨hmute, hrate, hdup, hinsert⟩ := hc
  intro n hn
  refine ⟨?_, hkey n hn, fun haccount => ?_, fun haccount hbody => ?_⟩
  · rw [hstamp]
    exact Int.le_trans (h.late n hn) (stamp_le_stamp (by omega))
  · -- the newest stamp of the account is no earlier than this one
    have hmem : n.createdUtc ∈ times m.accountId sends :=
      List.mem_map.mpr ⟨n, List.mem_filter.mpr ⟨hn, by simp [haccount]⟩, rfl⟩
    obtain ⟨newest, hnewest, hle⟩ : ∃ newest, (times m.accountId sends)[0]? = some newest ∧
        n.createdUtc ≤ newest := by
      have hsorted := times_sorted h.apart m.accountId
      cases htimes : times m.accountId sends with
      | nil => rw [htimes] at hmem; exact absurd hmem List.not_mem_nil
      | cons newest rest =>
        rw [htimes] at hmem hsorted
        refine ⟨newest, rfl, ?_⟩
        rcases List.mem_cons.mp hmem with heq | hmem
        · exact Int.le_of_eq heq
        · exact (List.pairwise_cons.mp hsorted).1 _ hmem
    have hfirst : ((times m.accountId sends).take rateMaxInWindow)[0]? = some newest := by
      rw [List.getElem?_take_of_lt (by decide)]
      exact hnewest
    have hspaced := (retryAfterTimes_eq_zero hwait).1 newest hfirst
    rw [hstamp]
    unfold microseconds minIntervalS at hspaced
    unfold stamp minIntervalS
    omega
  · have hbefore := hduplicate n hn haccount hbody
    rw [hstamp]
    unfold stamp microseconds duplicateWindowS at hbefore
    unfold stamp duplicateWindowS
    omega

theorem mem_sends {messages : Messages} {n : Sent} :
    n ∈ messages.sends ↔ ∃ m ∈ messages, m.sent = n :=
  List.mem_map

theorem not_byClientKey {messages : Messages} {accountId : Nat} {key : String}
    (h : messages.byClientKey? accountId key = none) {m : Message} (hm : m ∈ messages)
    (haccount : m.accountId = accountId) : m.clientKey ≠ some key := by
  intro hkey
  have := List.find?_eq_none.mp h m hm
  simp [haccount, hkey] at this

theorem insertMessage_isSome {kind : Kind} {body : String} {messages : Messages} {now : Int}
    (h : args.stored? messages = none) :
    ∃ p, messages.insertMessage (args.message kind body) now = some p := by
  simp only [Messages.insertMessage]
  split
  · case isTrue htaken =>
    obtain ⟨key, hkey, hfound⟩ := (Option.any_eq_true _ _).mp htaken
    have hnone := Option.bind_eq_none_iff.mp h key hkey
    rw [show ((args.message kind body).row now messages.next).accountId = args.accountId from rfl,
      hnone] at hfound
    cases hfound
  · exact ⟨_, rfl⟩

theorem brakedInsert_spec {kind : Kind} {body : String} (h : Inv clock t.messages.sends)
    (hc : c.After clock) (hstored : args.stored? t.messages = none)
    (hmute : t.mutes.activeMute args.accountId (some args.channel) c.mute = none) :
    let r := t.brakedInsert args c kind body
    ((∃ row messages, r = (.ok row, { t with messages }) ∧ row.id = t.messages.next ∧
      t.Silent row ∧ messages.rows = row :: t.messages.rows) ∨
      r.2 = t ∧ r.1 ≠ .raised ∧ ∀ row, r.1 ≠ .ok row) ∧ Inv c.insert r.2.messages.sends := by
  intro r
  have hlater : clock ≤ c.insert := by
    obtain ⟨hmute, hrate, hdup, hinsert⟩ := hc
    omega
  unfold r Tables.brakedInsert
  simp only
  by_cases hwait : t.messages.retryAfter args.accountId c.rate = 0
  · rw [if_neg (fun hne => hne hwait)]
    by_cases hduplicate : t.messages.isDuplicate args.accountId body c.duplicate = true
    · rw [if_pos hduplicate]
      exact ⟨Or.inr ⟨rfl, by simp, by simp⟩, h.mono hlater⟩
    · rw [if_neg hduplicate]
      obtain ⟨⟨row, messages⟩, hinsert⟩ :=
        @insertMessage_isSome _ args kind body t.messages c.insert hstored
      rw [hinsert]
      obtain ⟨hrow, hmessages, hfree⟩ := Messages.insertMessage_spec hinsert
      have hrows : messages.rows = row :: t.messages.rows := by rw [hmessages, hrow]; rfl
      have haccount : row.accountId = args.accountId := by rw [hrow]; rfl
      have hstamp : row.createdUtc = stamp c.insert := by rw [hrow]; rfl
      have hsends : messages.sends = row.sent :: t.messages.sends := by
        unfold Messages.sends
        rw [hrows]
        rfl
      rw [Messages.retryAfter, Messages.recentSendTimes_eq, ← haccount] at hwait
      refine ⟨Or.inl ⟨row, messages, rfl, by rw [hrow]; rfl, ?_, hrows⟩, ?_⟩
      · refine silent_of_activeMute hmute haccount (by rw [hrow]; rfl) ?_
        rw [hstamp]
        obtain ⟨-, hrate, hdup, hinsert⟩ := hc
        exact stamp_le_stamp (by omega)
      · show Inv c.insert messages.sends
        rw [hsends]
        refine h.cons hlater hstamp ?_ (h.apart_of_brakes hc hstamp ?_ hwait ?_) ?_
        · show row.clientKey ≠ some ""
          rw [hrow]
          intro hempty
          exact absurd (Option.filter_eq_some_iff.mp hempty).2 (by decide)
        · intro n hn hsame hkey
          obtain ⟨m, hm, rfl⟩ := mem_sends.mp hn
          cases hrowkey : row.clientKey with
          | none => exact hrowkey
          | some key =>
            exact absurd (hkey.symm.trans hrowkey) (not_byClientKey (hfree key hrowkey) hm hsame.symm)
        · intro n hn hsame hbody
          obtain ⟨m, hm, rfl⟩ := mem_sends.mp hn
          have hapart := List.any_eq_false.mp (Bool.not_eq_true _ ▸ hduplicate) m hm
          have hbody' : m.body = body := by
            refine hbody.symm.trans ?_
            rw [hrow]
            rfl
          have haccount' : m.accountId = args.accountId := hsame.symm.trans haccount
          simp only [haccount', hbody', decide_true, Bool.true_and, decide_eq_true_eq] at hapart
          exact Int.not_le.mp hapart
        · intro tenth htenth
          have hwindow := le_of_retryAfterTimes hwait htenth (times_sorted h.apart _)
          obtain ⟨-, -, hdup, hinsert⟩ := hc
          show tenth + rateWindowS ≤ row.createdUtc
          rw [hstamp]
          unfold microseconds rateWindowS at hwindow
          unfold stamp rateWindowS
          omega
  · rw [if_pos hwait]
    exact ⟨Or.inr ⟨rfl, by simp, by simp⟩, h.mono hlater⟩

theorem Inv.stored_eq (h : Inv clock t.messages.sends) {m : Message} (hm : m ∈ t.messages)
    (haccount : m.accountId = args.accountId) (hkey : m.clientKey = args.clientKey)
    (hsome : m.clientKey ≠ none) : args.stored? t.messages = some m := by
  obtain ⟨key, hmkey⟩ := Option.ne_none_iff_exists'.mp hsome
  have hne : key ≠ "" := by
    rintro rfl
    exact h.keyed m.sent (mem_sends.mpr ⟨m, hm, rfl⟩) hmkey
  have hargs : args.clientKey.filter (fun key => key ≠ "") = some key := by
    rw [← hkey, hmkey]
    simp [hne]
  rw [SendArgs.stored?, hargs]
  show t.messages.byClientKey? args.accountId key = some m
  cases hfind : t.messages.byClientKey? args.accountId key with
  | none => exact absurd hmkey (not_byClientKey hfind hm haccount)
  | some n =>
    have hn : n ∈ t.messages := List.mem_of_find?_eq_some hfind
    have hsame := List.find?_some hfind
    simp only [Bool.and_eq_true, decide_eq_true_eq] at hsame
    by_contra hne'
    have hpair : t.messages.rows.Pairwise (fun a b =>
        a.accountId = b.accountId → a.clientKey = b.clientKey → a.clientKey = none) :=
      (List.pairwise_map.mp h.apart).imp (fun hapart => hapart.key)
    have hsymm : Std.Symm (fun a b : Message =>
        a.accountId = b.accountId → a.clientKey = b.clientKey → a.clientKey = none) :=
      ⟨fun a b hab haccount hkey => hkey.trans (hab haccount.symm hkey.symm)⟩
    have hnone := hpair.forall hm hn (fun heq => hne' (by rw [heq]))
      (haccount.trans hsame.1.symm) (hmkey.trans hsame.2.symm)
    rw [hmkey] at hnone
    cases hnone

theorem guardedSend_spec (filters : Filters β) (args : SendArgs β) (randbelow : Nat → Nat)
    (h : Inv clock t.messages.sends) (hc : c.After clock) :
    let r := t.guardedSend filters args c randbelow
    Served args t r ∧ Inv c.insert r.2.messages.sends := by
  intro r
  have hlater : clock ≤ c.insert := by
    obtain ⟨hmute, hrate, hdup, hinsert⟩ := hc
    omega
  unfold r Tables.guardedSend
  cases hstored : args.stored? t.messages with
  | some existing =>
    refine ⟨⟨by simp, fun _ => rfl, by simp, fun m hm haccount hkey hsome => ?_⟩, h.mono hlater⟩
    have heq := h.stored_eq hm haccount hkey hsome
    rw [hstored] at heq
    rw [Option.some.inj heq]
  | none =>
    have hreplayed : ∀ answer : SendAnswer, ∀ m ∈ t.messages, m.accountId = args.accountId →
        m.clientKey = args.clientKey → m.clientKey ≠ none → answer = .replay m := by
      intro answer m hm haccount hkey hsome
      have heq := h.stored_eq hm haccount hkey hsome
      rw [hstored] at heq
      cases heq
    simp only
    split
    · exact ⟨⟨by simp, fun _ => rfl, by simp, hreplayed _⟩, h.mono hlater⟩
    · case h_2 hmute =>
      split
      · exact ⟨⟨by simp, fun _ => rfl, by simp, hreplayed _⟩, h.mono hlater⟩
      · case h_2 kind body hparse =>
        obtain ⟨houtcome, hinv⟩ := @brakedInsert_spec _ args t c clock kind body h hc hstored hmute
        refine ⟨?_, hinv⟩
        rcases houtcome with ⟨row, messages, hr, hid, hsilent, hrows⟩ | ⟨hsame, hraised, hok⟩
        · rw [hr]
          refine ⟨fun row' hrow' => ?_, fun hno => absurd rfl (hno row), by simp, hreplayed _⟩
          cases hrow'
          exact ⟨hid, hsilent, messages, rfl, hrows⟩
        · exact ⟨fun row hrow => absurd hrow (hok row), fun _ => hsame, hraised, hreplayed _⟩

end Call

/-! ## Runs -/

structure SendSys where
  tables : Tables
  clock : Int

inductive SendEvent (β : Type)
  | send (args : SendArgs β) (c : Clock) (randbelow : Nat → Nat)
  | txn (x : Txn)

section Run

variable {β : Type}

def sendStep (filters : Filters β) (s : SendSys) : SendEvent β → Option SendSys
  | .send args c randbelow => some ⟨(s.tables.guardedSend filters args c randbelow).2, c.insert⟩
  | .txn x => some { s with tables := x.run s.tables }

def OnTime (s : SendSys) : SendEvent β → Prop
  | .send _ c _ => c.After s.clock
  | .txn (.sweep moment) => ∀ m ∈ s.tables.messages,
      Tables.cutoff moment Tables.messageDays ≤ m.createdUtc
  | .txn _ => True

instance (s : SendSys) : (e : SendEvent β) → Decidable (OnTime s e)
  | .send _ _ _ => inferInstanceAs (Decidable (_ ∧ _))
  | .txn (.sweep _) => inferInstanceAs (Decidable (∀ m ∈ s.tables.messages, _))
  | .txn (.mute _ _) | .txn (.lift _ _ _) | .txn (.delete _ _ _) | .txn (.report _ _ _ _ _)
  | .txn (.resolve _ _) => .isTrue trivial

theorem markDeleted_sends (messageId : Nat) (byKind : DeletedBy) (at_ : Int) (messages : Messages) :
    (messages.markDeleted messageId byKind at_).sends = messages.sends := by
  unfold Messages.sends Messages.markDeleted Serial.update
  rw [List.map_map]
  apply List.map_congr_left
  intro m _
  simp only [Function.comp_apply]
  split <;> rfl

theorem Txn.run_sends {s : SendSys} {x : Txn} (h : OnTime s (SendEvent.txn x : SendEvent β)) :
    (x.run s.tables).messages.sends = s.tables.messages.sends := by
  cases x with
  | mute args moment =>
    simp only [Txn.run]
    split <;> rfl
  | lift muteId byDiscord now => rfl
  | delete messageId byKind now => exact markDeleted_sends messageId byKind _ _
  | report messageId channel reporter reason now => rfl
  | resolve r moment =>
    have hresolved : (s.tables.resolved r moment).messages.sends = s.tables.messages.sends := by
      unfold Tables.resolved
      split
      · rfl
      all_goals exact markDeleted_sends _ _ _ _
    simp only [Txn.run, Tables.applyResolution]
    split
    · split
      · exact hresolved
      · exact hresolved
      · split
        · rfl
        · split
          · rfl
          · exact hresolved
    · rfl
  | sweep moment =>
    have hrows : s.tables.messages.rows.filter (fun m =>
        !(m.createdUtc < Tables.cutoff moment Tables.messageDays)) = s.tables.messages.rows := by
      refine List.filter_eq_self.mpr (fun m hm => ?_)
      have hlate := h m hm
      simpa using hlate
    exact congrArg (List.map Message.sent) hrows

theorem Inv.step {filters : Filters β} {s s' : SendSys} {e : SendEvent β}
    (h : Inv s.clock s.tables.messages.sends) (htime : OnTime s e)
    (hstep : sendStep filters s e = some s') : Inv s'.clock s'.tables.messages.sends := by
  cases e with
  | send args c randbelow =>
    cases hstep
    exact (guardedSend_spec filters args randbelow h htime).2
  | txn x =>
    cases hstep
    show Inv s.clock (x.run s.tables).messages.sends
    rw [Txn.run_sends htime]
    exact h

theorem Inv.apart_of_lt {clock : Int} {messages : Messages} (h : Inv clock messages.sends)
    {m n : Message} (hm : m ∈ messages) (hn : n ∈ messages) (hlt : m.id < n.id) :
    n.sent.Apart m.sent := by
  have hpair : messages.rows.Pairwise (fun a b =>
      (b.id < a.id → a.sent.Apart b.sent) ∧ (a.id < b.id → b.sent.Apart a.sent)) := by
    refine List.Pairwise.imp (fun {a b} hab => ?_)
      (List.pairwise_and_iff.mpr ⟨messages.sorted, List.pairwise_map.mp h.apart⟩)
    exact ⟨fun _ => hab.2, fun hba => absurd hab.1 (Nat.lt_asymm hba)⟩
  have hsymm : Std.Symm (fun a b : Message =>
      (b.id < a.id → a.sent.Apart b.sent) ∧ (a.id < b.id → b.sent.Apart a.sent)) :=
    ⟨fun _ _ hab => ⟨hab.2, hab.1⟩⟩
  refine (hpair.forall hn hm ?_).1 hlt
  rintro rfl
  exact Nat.lt_irrefl _ hlt

theorem Inv.braked {clock : Int} {messages : Messages} (h : Inv clock messages.sends) :
    messages.Braked where
  keys m hm n hn hkey _ hsame := by
    obtain ⟨haccount, hkeys⟩ := Prod.mk.inj hsame
    by_contra hne
    rcases Nat.lt_trichotomy m.id n.id with hlt | heq | hlt
    · have hnone := (h.apart_of_lt hm hn hlt).key haccount.symm hkeys.symm
      exact hkey (hkeys.trans hnone)
    · exact hne (Serial.eq_of_id_eq hm hn heq)
    · exact hkey ((h.apart_of_lt hn hm hlt).key haccount hkeys)
  burst accountId t := by
    have hcount := (h.burst accountId).countP_le (times_sorted h.apart accountId) t
    unfold times Messages.sends at hcount
    rw [List.countP_map, List.filter_map, List.countP_map, List.countP_filter] at hcount
    refine Nat.le_trans (Nat.le_of_eq (List.countP_congr (fun m _ => ?_))) hcount
    simp only [Function.comp_apply, Message.sent, Bool.and_eq_true, decide_eq_true_eq]
    exact ⟨fun ⟨ha, ht⟩ => ⟨ht, decide_eq_true ha⟩, fun ⟨ht, ha⟩ => ⟨of_decide_eq_true ha, ht⟩⟩
  interval m hm n hn haccount hlt := (h.apart_of_lt hm hn hlt).interval haccount.symm
  duplicate m hm n hn haccount hbody hlt :=
    (h.apart_of_lt hm hn hlt).duplicate haccount.symm hbody.symm

/-- In every run the stored rows keep the limits, and every call stores one row that no mute covers,
replays the row of its key, or changes nothing. -/
theorem sends_braked {filters : Filters β} {mutes : Mutes} {reports : Reports} {clock : Int}
    {es : List (SendEvent β)} {s : SendSys}
    (htime : Along (sendStep filters) OnTime ⟨⟨Serial.empty, mutes, reports⟩, clock⟩ es)
    (hrun : exec (sendStep filters) ⟨⟨Serial.empty, mutes, reports⟩, clock⟩ es = some s) :
    s.tables.messages.Braked ∧ ∀ args c randbelow, c.After s.clock →
      Served args s.tables (s.tables.guardedSend filters args c randbelow) := by
  have hstart : Inv clock (Messages.sends Serial.empty) :=
    ⟨fun m hm => absurd hm List.not_mem_nil, fun m hm => absurd hm List.not_mem_nil,
      List.Pairwise.nil, fun _ => Spaced.nil⟩
  have hinv : Inv s.clock s.tables.messages.sends :=
    exec_invariant (I := fun s => Inv s.clock s.tables.messages.sends)
      (fun _ _ _ h hg hstep => h.step hg hstep) hstart htime hrun
  exact ⟨hinv.braked, fun args c randbelow hc => (guardedSend_spec filters args randbelow hinv hc).1⟩

end Run

def plainFilters : Filters String :=
  ⟨.ok, ⟨fun c => c = ' ', fun c => if c.isDigit then some (c.toNat - '0'.toNat) else none⟩⟩

def say (body : String) (key : String) : SendArgs String :=
  ⟨"guild:7", 5, none, "Paul", body, some key⟩

def milliseconds (n : Int) : Clock := ⟨n * 1000, n * 1000, n * 1000, n * 1000⟩

def talk : List (SendEvent String) :=
  [.send (say "bi-la kaifa" "a") (milliseconds 1900) (fun _ => 0),
   .send (say "bi-la kaifa" "a") (milliseconds 1950) (fun _ => 0),
   .send (say "/roll 2d6" "b") (milliseconds 1990) (fun _ => 3),
   .send (say "/roll 2d6" "b") (milliseconds 2100) (fun _ => 3),
   .txn (.mute ⟨5, "", .admin, "2342", none, some 1⟩ (microseconds 3)),
   .send (say "gom jabbar" "c") (milliseconds 62999) (fun _ => 0)]

theorem sends_braked_talk :
    ∃ s, exec (sendStep plainFilters) ⟨.empty, 0⟩ talk = some s ∧
      s.tables.messages.rows.map (·.body) = ["rolled 2d6: 8", "bi-la kaifa"] ∧
      s.tables.messages.Braked ∧
      Served (say "bi-la kaifa" "a") s.tables (s.tables.guardedSend plainFilters
        (say "bi-la kaifa" "a") (milliseconds 63000) (fun _ => 0)) := by
  have hruns : Along (sendStep plainFilters) OnTime ⟨.empty, 0⟩ talk ∧
      (exec (sendStep plainFilters) ⟨.empty, 0⟩ talk).any (fun s =>
        s.tables.messages.rows.map (·.body) = ["rolled 2d6: 8", "bi-la kaifa"] ∧
          (milliseconds 63000).After s.clock) = true := by
    decide
  obtain ⟨s, hs, hlast⟩ := (Option.any_eq_true _ _).mp hruns.2
  obtain ⟨hbodies, hafter⟩ := of_decide_eq_true hlast
  obtain ⟨hbraked, hserved⟩ := sends_braked hruns.1 hs
  exact ⟨s, hs, hbodies, hbraked, hserved _ _ _ hafter⟩

end LastSietch.Chat
