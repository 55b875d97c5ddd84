import LastSietch.Portal.Service
import LastSietch.Karum.Writer

/-!
# What one player sends another

What the gift route and the item transfer route share: how the recipient of a form is found, the
two caps on the identity of the sender, and the ledger of a writer with the caps on its accounts.
-/

namespace LastSietch.Portal

open Allowance (Spend)
open Runs (exec Along)

inductive SendToken
  | csrf | badAmount | overCeiling | badRequest | recipientUnlinked | badCode | lookupThrottled
  | codeUnknown | selfTransfer | linkedAlt | playerOnline | rateLimited | noBank | itemNotFound
  deriving DecidableEq, Repr

structure Recipient where
  charName : String
  code : String
  accountByCharName : Option Nat
  validCode : Bool
  lookupsLeft : Bool
  accountByCode : Option Nat
  identityForAccount : Option String

/-- `_resolve_recipient`. -/
def Recipient.resolve (r : Recipient) : Except SendToken Nat := do
  require ((r.charName ≠ "") ≠ (r.code ≠ "")) .badRequest
  if r.charName ≠ "" then
    orRaise r.accountByCharName .recipientUnlinked
  else do
    require (r.validCode = true) .badCode
    require (r.lookupsLeft = true) .lookupThrottled
    orRaise r.accountByCode .codeUnknown

/-- `_linked_alt_refusal`: an identity that does not resolve is refused. -/
def Recipient.linkedAltRefusal (r : Recipient) (activeAccountId : Nat) (discordId : String)
    (recipientAccountId : Nat) : Except SendToken Unit := do
  require (recipientAccountId ≠ activeAccountId) .selfTransfer
  require (discordId ≠ "" ∧ r.identityForAccount.isSome ∧
    r.identityForAccount ≠ some discordId) .linkedAlt

/-- `recipient_identity_key`. -/
def Recipient.identityKey (r : Recipient) (accountId : Nat) : String :=
  r.identityForAccount.getD ("acct:" ++ toString accountId)

/-- The columns that `portal_gift_events` and `portal_transfer_events` share; `what` is the
amount, or the item. -/
structure Send (α : Type) where
  senderIdentity : String
  senderAccountId : Nat
  recipientIdentity : String
  recipientAccountId : Nat
  what : α
  deriving DecidableEq, Repr

def Send.intraIdentity {α : Type} (s : Send α) : Bool := s.senderIdentity == s.recipientIdentity

def daySeconds : Nat := 24 * 3600

structure SendLimits where
  perDay : Nat
  perPair : Nat
  deriving DecidableEq, Repr

section Caps

variable {α : Type} (counts : Send α → Bool)

def dailyCap (limit : Nat) : Cap (Send α) where
  reason := "daily"
  window := daySeconds
  limit
  weight := fun s => if counts s then 1 else 0
  group := fun s => [s.senderIdentity]
  scope := fun d s e => decide (e.senderIdentity ∈ d.quotaKeys s.senderIdentity) && counts e

def pairCap (limit : Nat) : Cap (Send α) where
  reason := "pair"
  window := daySeconds
  limit
  weight := fun s => if counts s then 1 else 0
  group := fun s => [s.senderIdentity, s.recipientIdentity]
  scope := fun d s e =>
    decide (e.senderIdentity ∈ d.quotaKeys s.senderIdentity) &&
      decide (e.recipientIdentity ∈ d.quotaKeys s.recipientIdentity) && counts e

def sendCaps (limits : SendLimits) (s : Send α) : List (Cap (Send α)) :=
  if counts s then [dailyCap counts limits.perDay, pairCap counts limits.perPair] else []

end Caps

/-- A row of `ls_guild_gifts` or `ls_item_transfers`, which are written `applied`. -/
structure Sent (β : Type) where
  idempotencyKey : Nat
  senderAccountId : Nat
  recipientAccountId : Nat
  createdAt : Nat
  detail : β
  deriving DecidableEq, Repr

abbrev SentLedger (β : Type) := Table (Sent β) (·.idempotencyKey)

section Ledger

variable {β : Type}

/-- `v_cnt_day`. -/
def SentLedger.today (l : SentLedger β) (now sender : Nat) : Nat :=
  (l.rows.filter (fun r => r.senderAccountId = sender ∧ now ≤ r.createdAt + daySeconds)).length

/-- `v_cnt_pair`. -/
def SentLedger.pairToday (l : SentLedger β) (now sender recipient : Nat) : Nat :=
  (l.rows.filter (fun r => r.senderAccountId = sender ∧ r.recipientAccountId = recipient ∧
    now ≤ r.createdAt + daySeconds)).length

end Ledger

/-! ## A run of a writer -/

inductive SendStatus
  | applied | replay | deferred
  deriving DecidableEq, Repr

/-- `psqlExits` is whether the session that ran the transaction has ended with exit status 0. -/
structure SendReply (ε : Type) where
  status : Except ε SendStatus
  psqlExits : Bool

def SendReply.applied {ε : Type} (r : SendReply ε) : Bool := r.status.toOption == some .applied

/-- What a route settles an answer with; a session that breaks answers `failed`, which the route
settles as it settles a refusal. -/
def SendReply.settle {ε : Type} (otherwise : EventStatus) (r : SendReply ε) : EventStatus :=
  match r.psqlExits, r.status with
  | true, .ok .applied => .applied
  | true, .ok .replay => .replay
  | _, .ok .deferred => .deferred
  | _, _ => otherwise

section Writer

variable {ε ω ρ : Type}

def gated (enabled : Bool) (prior : Option ρ) (work : Except ε ω) (w : ω) :
    Except ε (SendStatus × ω) :=
  if enabled = false then .ok (.deferred, w)
  else
    match prior with
    | some _ => .ok (.replay, w)
    | none => work.map (fun w' => (.applied, w'))

/-- `COMMIT`, or the `ROLLBACK` of a raise. -/
def answer (psqlExits : Bool) (w : ω) : Except ε (SendStatus × ω) → SendReply ε × ω
  | .error e => (⟨.error e, psqlExits⟩, w)
  | .ok (status, w') => (⟨.ok status, psqlExits⟩, w')

theorem gated_cases {enabled : Bool} {prior : Option ρ} {work : Except ε ω} {w w' : ω}
    {status : SendStatus} (h : gated enabled prior work w = .ok (status, w')) :
    status ≠ .applied ∧ w' = w ∨ status = .applied ∧ prior = none ∧ work = .ok w' := by
  unfold gated at h
  split at h
  · cases h
    exact Or.inl ⟨by decide, rfl⟩
  · cases prior with
    | some row =>
      cases h
      exact Or.inl ⟨by decide, rfl⟩
    | none =>
      obtain ⟨w'', hwork, h⟩ := map_eq_ok.mp h
      cases h
      exact Or.inr ⟨rfl, rfl, hwork⟩

theorem answer_spec {psqlExits : Bool} {w : ω} {r : Except ε (SendStatus × ω)} {P : ω → Prop}
    (h : ∀ status w', r = .ok (status, w') →
      status ≠ .applied ∧ w' = w ∨ status = .applied ∧ P w') :
    ((answer psqlExits w r).1.applied = true → P (answer psqlExits w r).2) ∧
      ((answer psqlExits w r).1.applied = false → (answer psqlExits w r).2 = w) := by
  cases r with
  | error e => exact ⟨fun happlied => (by cases happlied), fun _ => rfl⟩
  | ok x =>
    obtain ⟨status, w'⟩ := x
    rcases h status w' rfl with ⟨hother, hsame⟩ | ⟨rfl, hP⟩
    · refine ⟨fun happlied => absurd ?_ hother, fun _ => hsame⟩
      simpa [answer, SendReply.applied, Except.toOption] using happlied
    · exact ⟨fun _ => hP, fun happlied => (by cases happlied)⟩

end Writer

structure Sent.Records {α β : Type} (r : Sent β) (x : Spend Nat (Send α)) : Prop where
  key : r.idempotencyKey = x.key
  time : r.createdAt = x.time
  sender : r.senderAccountId = x.facts.senderAccountId
  recipient : r.recipientAccountId = x.facts.recipientAccountId

section Bound

variable {α β : Type} {S : Service (Send α)}

/-- The rows of the day from `T` that were written for an attempt with `p`. -/
def sentInDay (time : S.Row → Nat) (s : S.Sys) (p : Send α → Bool) (T : Nat) : Int :=
  s.tally (fun r x => p x && (decide (T ≤ time r) && decide (time r ≤ T + daySeconds)))
    (fun _ => 1)

theorem tally_sends_le (hS : S.Lawful) {counts : Send α → Bool} {limits : SendLimits}
    (hcaps : S.lane.caps = sendCaps counts limits) {time : S.Row → Nat}
    (htime : ∀ r x, S.records r x → time r = x.time)
    {now : Nat} {d : Directory} {w : S.World} (hw : S.rows w = []) {acts : List S.Act}
    {s : S.Sys} (hsound : Along Service.step Service.Sys.Sound (S.start now d w) acts)
    (hrun : exec Service.step (S.start now d w) acts = some s) (sender recipient : String)
    (T : Nat) :
    sentInDay time s (fun x => counts x && x.senderIdentity == sender) T ≤ limits.perDay ∧
      sentInDay time s (fun x => counts x && x.senderIdentity == sender &&
        x.recipientIdentity == recipient) T ≤ limits.perPair := by
  have hfaced : ∀ f : Send α, (if counts f then 1 else 0) ≠ 0 →
      sendCaps counts limits f = [dailyCap counts limits.perDay, pairCap counts limits.perPair] := by
    intro f hf
    unfold sendCaps
    rw [if_pos]
    by_contra hc
    exact hf (if_neg hc)
  constructor
  · refine Service.tally_le (dailyCap counts limits.perDay) [sender] hS
      (fun f hf => ?_) hw hsound hrun T (fun r x hx => ?_)
    · rw [hcaps, hfaced f hf]
      exact List.mem_cons_self ..
    · rw [htime r x hx]
      simp only [Service.measure, dailyCap, List.cons.injEq, and_true]
      split_ifs <;> simp_all
  · refine Service.tally_le (pairCap counts limits.perPair) [sender, recipient] hS
      (fun f hf => ?_) hw hsound hrun T (fun r x hx => ?_)
    · rw [hcaps, hfaced f hf]
      exact List.mem_cons_of_mem _ (List.mem_singleton_self _)
    · rw [htime r x hx]
      simp only [Service.measure, pairCap, List.cons.injEq, and_true]
      split_ifs <;> simp_all

end Bound

end LastSietch.Portal
