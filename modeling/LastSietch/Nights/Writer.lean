import LastSietch.Nights.Shop

/-!
# The game writer of the Stall

`doSnShop` is one call of the reward writer: checks of the payload against the writer's own
list of items, then one transaction that claims the idempotency key in `ls_reward_claims`,
refuses or defers, or grants. What the game database says at that moment is the argument
`facts`; every raised exception rolls the claim back.

`doSnShop_cases`: a call grants under a fresh key, or leaves the claims as they are, and then a
definite failure is not the answer to a key that was granted before.
-/

namespace LastSietch.Nights

/-! ## Requests and claims -/

/-- What `writer_payload` sends. -/
structure Payload where
  kind : Lane
  sku : String
  accountId : Option Nat
  controllerId : Option Nat
  key : DeliveryKey
  profileId : Nat
  deriving DecidableEq, Repr

def Order.payload (o : Order) : Payload :=
  ⟨o.lane, o.sku, o.accountId, o.controllerId, o.deliveryKey, o.profileId⟩

/-- A row of `ls_reward_claims`, written by a grant. -/
structure ClaimRow where
  key : DeliveryKey
  kind : Lane
  profileId : Nat
  sku : String
  controllerId : Option Nat
  solari : Nat
  deriving DecidableEq, Repr

abbrev Claims : Type := Table ClaimRow ClaimRow.key

inductive Dedupe
  | off | emote | unlock
  deriving DecidableEq, Repr

/-- An entry of `SN_SHOP_SKUS`. `checked` says that its templates, quantities, unlocks and xp
amounts pass the writer's shape checks. -/
structure SkuEntry where
  sku : String
  kind : Lane
  limit : Nat
  items : Nat
  solari : Nat
  dedupe : Dedupe
  checked : Bool
  deriving DecidableEq, Repr

structure WriterConfig where
  skus : Table SkuEntry SkuEntry.sku
  solariMax : Nat

structure GameFacts where
  gateOpen : Bool
  ownsController : Bool
  inGame : Bool
  levelProcs : Bool
  levelRows : Nat
  charXp : Nat
  trackXp : Nat
  curveSegment : Bool
  emoteHeld : Bool
  allLearned : Bool
  copyHeld : Bool
  bank : Option (Nat × Nat)
  broken : Bool
  replyLost : Bool
  deriving DecidableEq, Repr

def charXpCap : Nat := 344440
def specXpCap : Nat := 44182

/-! ## The call -/

def SkuEntry.refusal (entry : SkuEntry) (kind : Lane) (solariMax : Nat) : Option FailCode :=
  if entry.kind ≠ kind then some .rejected
  else if !entry.checked then some .rejected
  else if kind = .bank ∧ ¬ (1 ≤ entry.items ∧ entry.items ≤ 5) then some .rejected
  else if (kind = .bank ∨ kind = .wallet) ∧ solariMax < entry.solari then some .rejected
  else if (kind = .spec ∨ kind = .charxp) ∧ (entry.items ≠ 0 ∨ entry.solari ≠ 0) then some .rejected
  else none

def WriterConfig.refusal (cfg : WriterConfig) (req : Payload) : Option FailCode :=
  match cfg.skus.get? req.sku with
  | none => some .rejected
  | some entry => entry.refusal req.kind cfg.solariMax

inductive Verdict
  | grant
  | fail (code : FailCode)
  | defer
  | error
  deriving DecidableEq, Repr

/-- `CharXp` and `Spec` rows need an offline character, a bank row needs room. -/
def grantKind (entry : SkuEntry) (facts : GameFacts) : Verdict :=
  match entry.kind with
  | .wallet => .grant
  | .charxp =>
    if facts.inGame then .defer
    else if !facts.levelProcs then .fail .rejected
    else if facts.levelRows ≠ 1 then .fail .rejected
    else if charXpCap ≤ facts.charXp then .fail .alreadyOwned
    else .grant
  | .spec =>
    if facts.inGame then .defer
    else if specXpCap ≤ facts.trackXp then .fail .alreadyOwned
    else if !facts.curveSegment then .error
    else .grant
  | _ =>
    if entry.dedupe = .emote ∧ facts.emoteHeld then .fail .alreadyOwned
    else if entry.dedupe = .unlock ∧ (facts.allLearned ∨ facts.copyHeld) then .fail .alreadyOwned
    else
      match facts.bank with
      | none => .fail .bankUnopened
      | some (used, cap) => if cap < used + entry.items then .fail .capacity else .grant

def soldOfSku (claims : Claims) (req : Payload) : Nat :=
  claims.rows.countP (fun c =>
    decide (c.kind = req.kind ∧ c.profileId = req.profileId ∧ c.sku = req.sku))

def solariOf (claims : Claims) (profileId : Nat) : Nat :=
  ((claims.rows.filter (fun c => c.profileId = profileId ∧
    (c.kind = .wallet ∨ c.kind = .bank))).map ClaimRow.solari).sum

def verdict (cfg : WriterConfig) (claims : Claims) (req : Payload) (entry : SkuEntry)
    (facts : GameFacts) : Verdict :=
  if facts.broken then .error
  else if entry.limit ≤ soldOfSku claims req then .fail .cap
  else if !facts.ownsController then .fail .notOwner
  else if 0 < entry.solari ∧ cfg.solariMax < solariOf claims req.profileId + entry.solari then
    .fail .cap
  else grantKind entry facts

def refused (code : FailCode) : Outcome := ⟨.failed, some code, none, none, none⟩

def deferred : Outcome := ⟨.deferred, none, none, none, none⟩

def unsure : Outcome := ⟨.failed, none, none, none, none⟩

def echo (status : WriterStatus) (c : ClaimRow) : Outcome :=
  ⟨status, none, some c.key, some c.sku, c.controllerId⟩

def doSnShop (cfg : WriterConfig) (claims : Claims) (req : Payload) (facts : GameFacts) :
    Claims × Outcome :=
  if !facts.gateOpen then (claims, deferred)
  else
    match cfg.refusal req, cfg.skus.get? req.sku with
    | some code, _ => (claims, refused code)
    | none, none => (claims, refused .rejected)
    | none, some entry =>
      match claims.get? req.key with
      | some prior =>
        (claims, if facts.broken ∨ facts.replyLost then unsure else echo .replay prior)
      | none =>
        match verdict cfg claims req entry facts with
        | .fail code => (claims, refused code)
        | .defer => (claims, deferred)
        | .error => (claims, unsure)
        | .grant =>
          let row : ClaimRow :=
            ⟨req.key, req.kind, req.profileId, req.sku, req.controllerId, entry.solari⟩
          match claims.insert? row with
          | none => (claims, unsure)
          | some claims' =>
            (claims', if facts.replyLost then unsure else echo .applied row)

/-! ## What one call can do -/

theorem definite_unsure : unsure.definiteFailure = none := rfl

theorem definite_deferred : deferred.definiteFailure = none := rfl

theorem definite_echo {status : WriterStatus} (h : status ≠ .failed) (c : ClaimRow) :
    (echo status c).definiteFailure = none := if_neg h

/-- A call grants a fresh key, for a request that passes the checks, and then does not answer
with a definite failure; or it leaves the claims alone, and then a definite failure means that
the request does not pass the checks or that its key is free. -/
theorem doSnShop_cases (cfg : WriterConfig) (claims : Claims) (req : Payload) (facts : GameFacts) :
    (∃ row : ClaimRow, (doSnShop cfg claims req facts).1.rows = row :: claims.rows ∧
        row.key = req.key ∧ cfg.refusal req = none ∧ claims.get? req.key = none ∧
        (doSnShop cfg claims req facts).2.definiteFailure = none) ∨
      ((doSnShop cfg claims req facts).1 = claims ∧
        ∀ code, (doSnShop cfg claims req facts).2.definiteFailure = some code →
          cfg.refusal req ≠ none ∨ claims.get? req.key = none) := by
  unfold doSnShop
  by_cases hgate : facts.gateOpen
  · simp only [hgate, Bool.not_true, Bool.false_eq_true, if_false]
    cases hrefusal : cfg.refusal req with
    | some code => exact Or.inr ⟨rfl, fun _ _ => Or.inl (by simp)⟩
    | none =>
      cases hentry : cfg.skus.get? req.sku with
      | none =>
        simp [WriterConfig.refusal, hentry] at hrefusal
      | some entry =>
        cases hprior : claims.get? req.key with
        | some prior =>
          refine Or.inr ⟨rfl, fun code hcode => ?_⟩
          simp only [] at hcode
          split at hcode
          · rw [definite_unsure] at hcode
            cases hcode
          · rw [definite_echo (by simp)] at hcode
            cases hcode
        | none =>
          simp only []
          cases verdict cfg claims req entry facts with
          | fail code => exact Or.inr ⟨rfl, fun _ _ => Or.inr trivial⟩
          | defer => exact Or.inr ⟨rfl, fun _ _ => Or.inr trivial⟩
          | error => exact Or.inr ⟨rfl, fun _ _ => Or.inr trivial⟩
          | grant =>
            simp only []
            split
            · exact Or.inr ⟨rfl, fun _ _ => Or.inr trivial⟩
            · rename_i claims' hins
              refine Or.inl ⟨_, Table.rows_insert? hins, rfl, trivial, trivial, ?_⟩
              simp only []
              split
              · exact definite_unsure
              · exact definite_echo (by simp) _
  · rw [if_pos (by simpa using hgate)]
    refine Or.inr ⟨rfl, fun code hcode => ?_⟩
    rw [definite_deferred] at hcode
    cases hcode

end LastSietch.Nights
