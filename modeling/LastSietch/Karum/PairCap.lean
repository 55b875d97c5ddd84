import LastSietch.Lib.Dumps
import LastSietch.Karum.Tables

/-!
# The cap on a pair of traders

The portal counts a player's purchases from one counterparty over its event log, by a `LIKE`
pattern over the sidecar of each event: the key `counterparty` and the first digits of the id.
The pattern has no end behind the digits, so a counterparty whose id begins like the wanted one
counts as well.
-/

namespace LastSietch.Karum

open Dumps Like

abbrev Detail := List (List Char × Value)

/-- A call of `_karum_event`, and the time at which the row is written. -/
structure EventCall where
  accountId : Nat
  event : String
  listingId : Option Nat
  discordId : Option String
  detail : Option Detail
  at_ : Int

/-- A row of `portal_karum_events`. -/
structure KarumEvent where
  accountId : Nat
  event : String
  listingId : Option Nat
  discordId : Option String
  detail : Option (List Char)
  createdAt : Int

/-- `json.dumps(detail, ...) if detail else None`; an empty dictionary is false. -/
def sidecar : Option Detail → Option (List Char)
  | none | some [] => none
  | some d => some (dumps (.obj d))

def karumEvent (log : List KarumEvent) (c : EventCall) : List KarumEvent :=
  ⟨c.accountId, c.event, c.listingId, c.discordId, sidecar c.detail, c.at_⟩ :: log

def karumEvents (calls : List EventCall) : List KarumEvent := calls.foldl karumEvent []

def counterpartyKey : List Char := ['c', 'o', 'u', 'n', 't', 'e', 'r', 'p', 'a', 'r', 't', 'y']

/-- `%"counterparty":N%`. -/
def counterpartyPattern (counterparty : Int) : List Char :=
  '%' :: (needle counterpartyKey (intText counterparty) ++ ['%'])

/-- A `NULL` sidecar is like nothing. -/
def detailLike (pattern : List Char) : Option (List Char) → Bool
  | none => false
  | some text => like pattern text

/-- `_karum_count_events` over a readable log. -/
def karumCountEvents (log : List KarumEvent) (now : Int) (accountId : Nat) (events : List String)
    (hours : Int) (counterparty : Option Int) : Nat :=
  log.countP (fun e => e.accountId = accountId ∧ e.event ∈ events ∧
    now - 3600 * hours ≤ e.createdAt ∧
    ∀ n ∈ counterparty, detailLike (counterpartyPattern n) e.detail = true)

/-! ## What is meant -/

/-- `detail["counterparty"] == N`. -/
def EventCall.isWith (c : EventCall) (counterparty : Int) : Prop :=
  ∃ d ∈ c.detail, d.lookup counterpartyKey = some (.int counterparty)

def EventCall.InScope (c : EventCall) (now : Int) (accountId : Nat) (events : List String)
    (hours : Int) : Prop :=
  c.accountId = accountId ∧ c.event ∈ events ∧ now - 3600 * hours ≤ c.at_

/-- The sidecar has, at any depth, a key that is written `counterparty"` at its end and has a
number that begins with the digits of the counterparty. -/
def EventCall.readsLike (c : EventCall) (counterparty : Int) : Prop :=
  ∃ d ∈ c.detail, readsFields counterpartyKey (intText counterparty) d = true

def EventCall.Mistaken (c : EventCall) (counterparty : Int) : Prop :=
  c.readsLike counterparty ∧ ¬ c.isWith counterparty

instance (v : Option Value) (n : Int) : Decidable (v = some (.int n)) :=
  match v with
  | some (.int z) => decidable_of_iff (z = n) (by simp)
  | some .null | some (.bool _) | some (.str _) | some (.arr _) | some (.obj _) | none =>
    .isFalse (by simp)

instance (c : EventCall) (n : Int) : Decidable (c.isWith n) :=
  inferInstanceAs (Decidable (∃ d ∈ c.detail, _ = _))

instance (c : EventCall) (now : Int) (accountId : Nat) (events : List String) (hours : Int) :
    Decidable (c.InScope now accountId events hours) :=
  inferInstanceAs (Decidable (_ ∧ _ ∧ _))

instance (c : EventCall) (n : Int) : Decidable (c.readsLike n) :=
  inferInstanceAs (Decidable (∃ d ∈ c.detail, _ = _))

instance (c : EventCall) (n : Int) : Decidable (c.Mistaken n) :=
  inferInstanceAs (Decidable (_ ∧ _))

def eventsWith (calls : List EventCall) (now : Int) (accountId : Nat) (events : List String)
    (hours counterparty : Int) : Nat :=
  calls.countP (fun c => c.InScope now accountId events hours ∧ c.isWith counterparty)

section

variable {calls : List EventCall} {now : Int} {accountId : Nat} {events : List String}
  {hours n : Int}

theorem plain_counterparty (n : Int) : Plain counterpartyKey (intText n) :=
  ⟨List.all_eq_true.mp rfl, List.cons_ne_nil _ _, fun _ hc => intText_numeral hc, intText_ne_nil n⟩

theorem fold_needle (n : Int) :
    fold (needle counterpartyKey (intText n)) = needle counterpartyKey (intText n) := by
  have htail : fold (':' :: intText n) = ':' :: intText n := by
    rw [fold_cons, fold_numerals (fun c hc => intText_numeral hc)]
    rfl
  rw [needle, fold_append, htail]
  rfl

theorem literal_needle (n : Int) : Literal (needle counterpartyKey (intText n)) := by
  have hnot : ∀ c : Char, c ∉ '"' :: (counterpartyKey ++ ['"']) → c ≠ ':' → ¬ IsNumeral c →
      c ∉ needle counterpartyKey (intText n) := by
    intro c hkey hcolon hnumeral h
    rcases List.mem_append.mp h with h | h
    · exact hkey h
    · rcases List.mem_cons.mp h with h | h
      · exact hcolon h
      · exact hnumeral (intText_numeral h)
  constructor
  · exact hnot _ (by decide) (by decide) (fun h => h.elim (by decide) (by decide))
  · exact hnot _ (by decide) (by decide) (fun h => h.elim (by decide) (by decide))

theorem counted_iff (c : EventCall) (n : Int) :
    detailLike (counterpartyPattern n) (sidecar c.detail) = true ↔ c.readsLike n := by
  unfold EventCall.readsLike
  cases c.detail with
  | none => simp [sidecar, detailLike]
  | some d =>
    cases d with
    | nil => simp [sidecar, detailLike, readsFields]
    | cons f d =>
      have hread := key_infix_dumps (plain_counterparty n) (.obj (f :: d))
      rw [reads] at hread
      rw [sidecar, detailLike, counterpartyPattern, like_contains (literal_needle n), fold_needle,
        hread]
      · simp
      · exact List.cons_ne_nil f d

theorem readsFields_of_lookup {d : Detail}
    (h : d.lookup counterpartyKey = some (.int n)) :
    readsFields counterpartyKey (intText n) d = true := by
  induction d with
  | nil => cases h
  | cons f d ih =>
    obtain ⟨k, v⟩ := f
    rw [List.lookup_cons] at h
    rw [readsFields, Bool.or_eq_true, Bool.or_eq_true, Bool.and_eq_true]
    split at h
    · rename_i hk
      have hkey : k = counterpartyKey := (beq_iff_eq.mp hk).symm
      cases h
      subst hkey
      refine Or.inl (Or.inl ⟨by decide, ?_⟩)
      rw [startsWith, List.isPrefixOf_iff_prefix]
    · exact Or.inr (ih h)

theorem readsLike_of_isWith {c : EventCall} (h : c.isWith n) : c.readsLike n := by
  obtain ⟨d, hd, hlookup⟩ := h
  exact ⟨d, hd, readsFields_of_lookup hlookup⟩

theorem countP_events (log : List KarumEvent) (p : KarumEvent → Bool) :
    (calls.foldl karumEvent log).countP p =
      log.countP p + calls.countP (fun c => p
        ⟨c.accountId, c.event, c.listingId, c.discordId, sidecar c.detail, c.at_⟩) := by
  induction calls generalizing log with
  | nil => rfl
  | cons c calls ih =>
    rw [List.foldl_cons, ih, karumEvent, List.countP_cons, List.countP_cons]
    omega

theorem count_eq_readsLike :
    karumCountEvents (karumEvents calls) now accountId events hours (some n) =
      calls.countP (fun c => c.InScope now accountId events hours ∧ c.readsLike n) := by
  rw [karumCountEvents, karumEvents, countP_events, List.countP_nil, Nat.zero_add]
  refine List.countP_congr (fun c _ => ?_)
  simp only [decide_eq_true_eq, Option.mem_def, Option.some.injEq, forall_eq', counted_iff,
    EventCall.InScope, and_assoc]

theorem count_eq_add_mistaken :
    karumCountEvents (karumEvents calls) now accountId events hours (some n) =
      eventsWith calls now accountId events hours n +
        calls.countP (fun c => c.InScope now accountId events hours ∧ c.Mistaken n) := by
  rw [count_eq_readsLike, eventsWith]
  induction calls with
  | nil => rfl
  | cons c calls ih =>
    rw [List.countP_cons, List.countP_cons, List.countP_cons, ih]
    by_cases hwith : c.isWith n
    · have hlike := readsLike_of_isWith hwith
      simp only [EventCall.Mistaken, hwith, hlike, not_true_eq_false, and_false, and_true,
        decide_false, Bool.false_eq_true, if_false]
      omega
    · simp only [EventCall.Mistaken, hwith, not_false_eq_true, and_false, and_true, decide_false,
        Bool.false_eq_true, if_false]
      omega

end

/-- The portal's count is the number of events with the counterparty, so that each cap refuses
whom it should, exactly when no counted event is mistaken for one with him. -/
theorem count_exact_iff (calls : List EventCall) (now : Int) (accountId : Nat)
    (events : List String) (hours n : Int) :
    (karumCountEvents (karumEvents calls) now accountId events hours (some n) =
        eventsWith calls now accountId events hours n ∧
      ∀ cap : Nat, cap ≤ karumCountEvents (karumEvents calls) now accountId events hours (some n) ↔
        cap ≤ eventsWith calls now accountId events hours n) ↔
      ∀ c ∈ calls, c.InScope now accountId events hours → ¬ c.Mistaken n := by
  have hcount := @count_eq_add_mistaken calls now accountId events hours n
  have hnone : calls.countP (fun c => c.InScope now accountId events hours ∧ c.Mistaken n) = 0 ↔
      ∀ c ∈ calls, c.InScope now accountId events hours → ¬ c.Mistaken n := by
    simp only [List.countP_eq_zero, decide_eq_true_eq, not_and]
  rw [← hnone]
  constructor
  · rintro ⟨hexact, -⟩
    omega
  · intro hzero
    have hexact : karumCountEvents (karumEvents calls) now accountId events hours (some n) =
        eventsWith calls now accountId events hours n := by omega
    exact ⟨hexact, fun cap => by rw [hexact]⟩

/-- The sale that `portal_karum_buy` logs. -/
def buyApplied (accountId : Nat) (counterparty price at_ : Int) : EventCall :=
  { accountId, event := "buy_applied", listingId := some 1, discordId := none
    detail := some [(counterpartyKey, .int counterparty),
      (['p', 'r', 'i', 'c', 'e'], .int price)]
    at_ }

/-- The five sales of seller 123 count for seller 12, with whom there was no sale. -/
theorem prefix_capped :
    ∃ calls : List EventCall,
      maxPairPerDay ≤
        karumCountEvents (karumEvents calls) 86400 7 ["buy_applied"] 24 (some 12) ∧
      eventsWith calls 86400 7 ["buy_applied"] 24 12 = 0 :=
  ⟨List.replicate 5 (buyApplied 7 123 1000 80000), by decide⟩

end LastSietch.Karum
