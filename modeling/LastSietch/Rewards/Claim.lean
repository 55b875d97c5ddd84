import LastSietch.Lib.Runs
import LastSietch.Karum.Tables
import LastSietch.Rewards.Feed

/-!
# Claiming the daily Solari

Between the recorder of login days, the portal's claim route and the writer on the game host:

* `login`: the recorder stores the day of a sweep, in order.
* `fetch`: the portal's cache reads the login feed; a cached feed may be used later.
* `press`: the claim route computes its pool from the cached feed and its mirror of claims.
* `grant`: the route sends the next day of a pool. The relay fails, or the writer answers; then
  the route writes its mirror, or that write is lost too. Anything but a grant ends the claim.
* `serve`: a copy of a call that was once sent reaches the writer late.

Claims of one account may run at the same time. The writer's gate is the unique idempotency
key, which `deterministicIdem` makes of account, kind and day; uuid5 is taken as injective.
-/

namespace LastSietch.Rewards

open Karum Streak

/-! ## The writer on the game host -/

inductive RewardKind
  | dailySolari | weeklyItem | monthlyAugment
  deriving DecidableEq, Repr

@[ext]
structure IdemKey where
  accountId : Nat
  rewardKind : RewardKind
  periodKey : Int
  deriving DecidableEq, Repr

def deterministicIdem (accountId : Nat) (rewardKind : RewardKind) (periodKey : Int) : IdemKey :=
  ⟨accountId, rewardKind, periodKey⟩

/-- An applied row of `dune.ls_reward_claims`; `createdAt` is its UTC day. -/
structure ClaimRow where
  idem : IdemKey
  accountId : Nat
  rewardKind : RewardKind
  amount : Int
  controllerId : Nat
  createdAt : Int
  deriving DecidableEq, Repr

/-- One credit of `adjust_player_virtual_currency_balance`. -/
structure Payment where
  idem : IdemKey
  controllerId : Nat
  amount : Int
  deriving DecidableEq, Repr

structure Game where
  claims : Table ClaimRow ClaimRow.idem
  paid : List Payment
  deriving DecidableEq

structure RewardCall where
  accountId : Nat
  idem : IdemKey
  amount : Int
  deriving DecidableEq, Repr

inductive WriterReply
  | applied | replay | deferred | failed
  deriving DecidableEq, Repr

def rewardMaxAmount : Int := 100000
def rewardSolariMaxPerDay : Nat := 7

def latestController (players : List PlayerState) (accountId : Nat) : Option Nat :=
  (pick moreRecent (players.filter (fun p =>
    p.accountId = accountId ∧ p.characterState ≠ some .deleted))).bind (·.playerControllerId)

def Game.claimsToday (g : Game) (accountId : Nat) (today : Int) : Nat :=
  g.claims.rows.countP (fun r =>
    r.accountId = accountId ∧ r.rewardKind = .dailySolari ∧ today ≤ r.createdAt)

/-- `do_daily_solari`: gate row and credit in one transaction; a raise undoes the row. -/
def Game.doDailySolari (g : Game) (players : List PlayerState) (today : Int) (c : RewardCall) :
    Game × WriterReply :=
  if ¬ (0 < c.amount ∧ c.amount ≤ rewardMaxAmount) then (g, .failed)
  else
    match g.claims.get? c.idem with
    | some _ => (g, .replay)
    | none =>
      if rewardSolariMaxPerDay ≤ g.claimsToday c.accountId today then (g, .failed)
      else
        match latestController players c.accountId with
        | none => (g, .failed)
        | some ctrl =>
          match g.claims.insert?
              ⟨c.idem, c.accountId, .dailySolari, c.amount, ctrl, today⟩ with
          | none => (g, .failed)
          | some claims => (⟨claims, ⟨c.idem, ctrl, c.amount⟩ :: g.paid⟩, .applied)

def Game.doOp (g : Game) (enabled : Bool) (players : List PlayerState) (today : Int)
    (c : RewardCall) : Game × WriterReply :=
  if enabled then g.doDailySolari players today c else (g, .deferred)

theorem doOp_cases (g : Game) (enabled : Bool) (players : List PlayerState) (today : Int)
    (c : RewardCall) :
    (g.doOp enabled players today c).1 = g ∨
      ∃ row : ClaimRow, (g.doOp enabled players today c).1.claims.rows = row :: g.claims.rows ∧
        row.idem = c.idem ∧ latestController players c.accountId = some row.controllerId ∧
        (g.doOp enabled players today c).1.paid =
          ⟨c.idem, row.controllerId, c.amount⟩ :: g.paid := by
  unfold Game.doOp
  split
  · unfold Game.doDailySolari
    split
    · exact Or.inl rfl
    · split
      · exact Or.inl rfl
      · split
        · exact Or.inl rfl
        · split
          · exact Or.inl rfl
          · rename_i ctrl hctrl
            split
            · exact Or.inl rfl
            · rename_i claims hins
              exact Or.inr ⟨_, Table.rows_insert? hins, rfl, hctrl, rfl⟩
  · exact Or.inl rfl

/-! ## The portal -/

structure FeedRow where
  accountId : Nat
  since : Int
  days : List Int
  deriving DecidableEq, Repr

inductive ClaimReply
  | unavailable | notLoggedIn | alreadyClaimed | deferred | refused
  | applied (amount : Int) (days : Nat)
  deriving DecidableEq, Repr

structure Session where
  accountId : Nat
  ledgerRows : List (Int × Int)
  grantedAmount : Int
  grantedN : Nat
  deriving DecidableEq, Repr

structure Sys where
  today : Int
  /-- `portal_login_days`, as (account, day). -/
  logins : List (Nat × Int)
  feeds : Table FeedRow FeedRow.accountId
  players : List PlayerState
  enabled : Bool
  game : Game
  calls : List RewardCall
  /-- The portal's own `ls_reward_claims`, as (account, day). -/
  mirror : List (Nat × Int)
  sessions : List Session
  replies : List (Nat × ClaimReply)
  deriving DecidableEq

def Sys.start : Sys :=
  ⟨0, [], Table.empty, [], false, ⟨Table.empty, []⟩, [], [], [], []⟩

def daysOf (rows : List (Nat × Int)) (accountId : Nat) : List Int :=
  (rows.filter (fun r => r.1 = accountId)).map Prod.snd

def Sys.loginsOf (w : Sys) (accountId : Nat) : List Int := daysOf w.logins accountId

def recordClaim (mirror : List (Nat × Int)) (accountId : Nat) (day : Int) : List (Nat × Int) :=
  if (accountId, day) ∈ mirror then mirror else (accountId, day) :: mirror

def Sys.reply (w : Sys) (accountId : Nat) (r : ClaimReply) : Sys :=
  { w with replies := (accountId, r) :: w.replies }

def Sys.press (w : Sys) (accountId : Nat) : Sys :=
  match w.feeds.get? accountId with
  | none => w.reply accountId .unavailable
  | some feed =>
    let pool := claimPool feed.days (daysOf w.mirror accountId) w.today
    if pool.1 ≤ 0 ∨ pool.2 = [] then
      w.reply accountId
        (if (computeStreak feed.days w.today).loggedToday then .alreadyClaimed else .notLoggedIn)
    else { w with sessions := w.sessions ++ [⟨accountId, pool.2, 0, 0⟩] }

def Session.outcome (ses : Session) (last : Option WriterReply) : ClaimReply :=
  if 0 < ses.grantedN then .applied ses.grantedAmount ses.grantedN
  else
    match last with
    | none => .unavailable
    | some .deferred => .deferred
    | some _ => .refused

def Sys.finish (w : Sys) (i : Nat) (ses : Session) (last : Option WriterReply) : Sys :=
  { w with
    sessions := w.sessions.eraseIdx i
    replies := (ses.accountId, ses.outcome last) :: w.replies }

inductive Answer
  | lost
  | answered (mirrored : Bool)
  deriving DecidableEq, Repr

/-- The route sends the next day of the claim at place `i`. -/
def Sys.grant (w : Sys) (i : Nat) (answer : Answer) : Option Sys :=
  match w.sessions[i]? with
  | none => none
  | some ses =>
    match ses.ledgerRows with
    | [] => none
    | (day, amount) :: rest =>
      let call : RewardCall :=
        ⟨ses.accountId, deterministicIdem ses.accountId .dailySolari day, amount⟩
      let sent := { w with calls := call :: w.calls }
      match answer with
      | .lost => some (sent.finish i ses none)
      | .answered mirrored =>
        let out := w.game.doOp w.enabled w.players w.today call
        if out.2 = .applied ∨ out.2 = .replay then
          let granted : Session :=
            ⟨ses.accountId, rest, ses.grantedAmount + amount, ses.grantedN + 1⟩
          let recorded := { sent with
            game := out.1
            mirror := if mirrored then recordClaim w.mirror ses.accountId day else w.mirror }
          if rest = [] then some (recorded.finish i granted (some out.2))
          else some { recorded with sessions := w.sessions.set i granted }
        else some ({ sent with game := out.1 }.finish i ses (some out.2))

/-! ## Steps -/

inductive Event
  | nextDay
  | login (accountId : Nat) (day : Int)
  | fetch (accountId : Nat)
  | players (players : List PlayerState)
  | goLive (enabled : Bool)
  | press (accountId : Nat)
  | grant (i : Nat) (answer : Answer)
  | serve (c : RewardCall)
  deriving DecidableEq, Repr

def step (w : Sys) : Event → Option Sys
  | .nextDay => some { w with today := w.today + 1 }
  | .login accountId day =>
    -- the sweeps come one after the other and store the day they run on
    if day ≤ w.today ∧ ∀ e ∈ w.loginsOf accountId, e ≤ day then
      if (accountId, day) ∈ w.logins then some w
      else some { w with logins := (accountId, day) :: w.logins }
    else none
  | .fetch accountId =>
    some { w with
      feeds := w.feeds.put
        ⟨accountId, w.today - feedDays, feed (w.loginsOf accountId) w.today⟩ }
  | .players players => some { w with players }
  | .goLive enabled => some { w with enabled }
  | .press accountId => some (w.press accountId)
  | .grant i answer => w.grant i answer
  | .serve c =>
    if c ∈ w.calls then
      some { w with game := (w.game.doOp w.enabled w.players w.today c).1 }
    else none

/-- Sending a day of a claim: the call is out, the writer may have served it, and what is left
of the claim was part of it. -/
structure Sent (w : Sys) (ses : Session) (day amount : Int) (w' : Sys) : Prop where
  row : (day, amount) ∈ ses.ledgerRows
  calls : w'.calls =
    ⟨ses.accountId, deterministicIdem ses.accountId .dailySolari day, amount⟩ :: w.calls
  game : w'.game = w.game ∨ w'.game = (w.game.doOp w.enabled w.players w.today
    ⟨ses.accountId, deterministicIdem ses.accountId .dailySolari day, amount⟩).1
  sessions : ∀ s ∈ w'.sessions, s ∈ w.sessions ∨
    s.accountId = ses.accountId ∧ ∀ e ∈ s.ledgerRows, e ∈ ses.ledgerRows
  logins : w'.logins = w.logins
  feeds : w'.feeds = w.feeds
  players : w'.players = w.players

theorem grant_cases {w w' : Sys} {i : Nat} {answer : Answer}
    (hgrant : w.grant i answer = some w') :
    ∃ ses ∈ w.sessions, ∃ day amount, Sent w ses day amount w' := by
  unfold Sys.grant at hgrant
  cases hses : w.sessions[i]? with
  | none =>
    rw [hses] at hgrant
    cases hgrant
  | some ses =>
    rw [hses] at hgrant
    simp only [] at hgrant
    cases hrows : ses.ledgerRows with
    | nil =>
      rw [hrows] at hgrant
      cases hgrant
    | cons row rest =>
      obtain ⟨day, amount⟩ := row
      rw [hrows] at hgrant
      simp only [] at hgrant
      have hrow : (day, amount) ∈ ses.ledgerRows := by
        rw [hrows]
        exact List.mem_cons_self ..
      have herased : ∀ s ∈ w.sessions.eraseIdx i, s ∈ w.sessions :=
        fun s hs => List.mem_of_mem_eraseIdx hs
      refine ⟨ses, List.mem_of_getElem? hses, day, amount, ?_⟩
      cases answer with
      | lost =>
        obtain rfl := Option.some.inj hgrant
        exact ⟨hrow, rfl, Or.inl rfl, fun s hs => Or.inl (herased s hs), rfl, rfl, rfl⟩
      | answered mirrored =>
        simp only [] at hgrant
        split at hgrant
        · split at hgrant
          · obtain rfl := Option.some.inj hgrant
            exact ⟨hrow, rfl, Or.inr rfl, fun s hs => Or.inl (herased s hs), rfl, rfl, rfl⟩
          · obtain rfl := Option.some.inj hgrant
            refine ⟨hrow, rfl, Or.inr rfl, fun s hs => ?_, rfl, rfl, rfl⟩
            rcases List.mem_or_eq_of_mem_set hs with hs | rfl
            · exact Or.inl hs
            · refine Or.inr ⟨rfl, fun e he => ?_⟩
              rw [hrows]
              exact List.mem_cons_of_mem _ he
        · obtain rfl := Option.some.inj hgrant
          exact ⟨hrow, rfl, Or.inr rfl, fun s hs => Or.inl (herased s hs), rfl, rfl, rfl⟩

/-- What the character with controller `ctrl` was paid. -/
def Sys.paidTo (w : Sys) (ctrl : Nat) : Int :=
  ((w.game.paid.filter (fun p => p.controllerId = ctrl)).map Payment.amount).sum

def Sys.rampTotal (w : Sys) (accountId : Nat) : Int :=
  ((w.loginsOf accountId).dedup.map
    (fun d => dailyAmount (runEnding (w.loginsOf accountId) d))).sum

end LastSietch.Rewards
