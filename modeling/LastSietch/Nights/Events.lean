import Mathlib.Data.String.Basic
import LastSietch.Lib.Runs
import LastSietch.Nights.Ledger

/-!
# The steps of the Seven Nights

`Act` is one statement or one credit pass: evidence arrives, a link comes or goes, an
eligibility fact is learnt, a profile is credited, another ledger row is posted. `Op` is a
transaction of the worker or of the portal built from these: a login-days pull, the credit
step of a tick, a knock that hit. Whether a knock hits (positions, throttle, open spots) is
left open: any spot may be hit at any time.

`perform_reaches`: every transaction is a run of acts, so what every act keeps holds after
every run of transactions (`exec_op_invariant`).
-/

namespace LastSietch.Nights

open Runs

def Sys.link (s : Sys) (profileId accountId : Nat) : Sys :=
  if ⟨profileId, accountId⟩ ∈ s.links then s
  else { s with links := s.links ++ [⟨profileId, accountId⟩] }

def Sys.unlink (s : Sys) (profileId accountId : Nat) : Sys :=
  { s with links := s.links.filter (fun l => l ≠ ⟨profileId, accountId⟩) }

/-- The first statement of `record_login_days`. -/
def Sys.recordEarly (s : Sys) (accountId : Nat) (early : Bool) : Sys :=
  match s.facts.insert? ⟨accountId, early, 0⟩ with
  | some facts => { s with facts }
  | none =>
    { s with
      facts := s.facts.update (fun row => row.accountId = accountId)
        (fun row => { row with earlyLogin := row.earlyLogin || early }) }

def Sys.recordLevel (s : Sys) (accountId : Nat) (lvl : Int) : Sys :=
  if lvl ≤ 0 then s
  else
    match s.facts.insert? ⟨accountId, false, lvl⟩ with
    | some facts => { s with facts }
    | none =>
      { s with
        facts := s.facts.update (fun row => row.accountId = accountId)
          (fun row => { row with maxLvl := max row.maxLvl lvl }) }

inductive Act
  | addEarn (accountId : Nat) (night : String) (source : EarnSource) (ref : String) (amount : Int)
  | link (profileId accountId : Nat)
  | unlink (profileId accountId : Nat)
  | recordEarly (accountId : Nat) (early : Bool)
  | recordLevel (accountId : Nat) (lvl : Int)
  | creditProfile (profileId : Nat) (accounts : Option (List Nat))
  | post (entry : Entry)
  deriving DecidableEq, Repr

def Sys.apply (s : Sys) : Act → Sys
  | .addEarn accountId night source ref amount => (s.addEarn accountId night source ref amount).1
  | .link profileId accountId => s.link profileId accountId
  | .unlink profileId accountId => s.unlink profileId accountId
  | .recordEarly accountId early => s.recordEarly accountId early
  | .recordLevel accountId lvl => s.recordLevel accountId lvl
  | .creditProfile profileId accounts => (s.creditProfile profileId accounts).1
  | .post entry => { s with entries := s.entries ++ [entry] }

def step (s : Sys) (a : Act) : Option Sys := some (s.apply a)

/-! ## Transactions -/

def earlyLoginBefore : String := "2026-10-25"

/-- A visit row for every night of `dates` up to `today`, and the number of new rows. -/
def Sys.addVisits (s : Sys) (accountId : Nat) (today : String) : List String → Sys × Nat
  | [] => (s, 0)
  | d :: ds =>
    if d ∈ nightKeys ∧ d ≤ today then
      let added := s.addEarn accountId d ⟨.visit, by decide⟩ "" visitAward
      let rest := added.1.addVisits accountId today ds
      (rest.1, added.2 + rest.2)
    else s.addVisits accountId today ds

def Sys.recordLoginDays (s : Sys) (accountId : Nat) (dates : List String) (today : String) :
    Sys × Nat :=
  let dates := dates.dedup.insertionSort (· ≤ ·)
  let early := dates.any (fun d => decide (d < earlyLoginBefore))
  (s.recordEarly accountId early).addVisits accountId today dates

def Sys.creditProfiles (s : Sys) : List Nat → Sys × List (Nat × Int)
  | [] => (s, [])
  | pid :: pids =>
    let paid := s.creditProfile pid (some (s.profileAccounts pid))
    let rest := paid.1.creditProfiles pids
    (rest.1, if paid.2 = 0 then rest.2 else (pid, paid.2) :: rest.2)

def Sys.creditAll (s : Sys) : Sys × List (Nat × Int) :=
  s.creditProfiles (s.links.map Link.profileId).eraseDups

inductive SpotKind
  | porch | clue | stall | seek | haunt
  deriving DecidableEq, Repr

/-- A row of `portal_sn_spots`. -/
structure Spot where
  id : String
  kind : SpotKind
  seq : Nat
  riddle : String
  award : Int
  firstNBonus : Int
  deriving DecidableEq, Repr

structure Clue where
  seq : Nat
  of : Nat
  riddle : String
  deriving DecidableEq, Repr

def seekFirstN : Nat := 3
def stormBonus : Int := 4
def trailAllAward : Int := 6

def sourceFor : SpotKind → EarnSource
  | .porch => ⟨.knock, by decide⟩
  | _ => ⟨.activity, by decide⟩

def activity : EarnSource := ⟨.activity, by decide⟩

def Sys.finders (s : Sys) (night : String) (spotId : String) : Nat :=
  ((s.credits.rows.filter (fun c => c.key = ⟨night, .activity, spotId⟩)).map
    CreditRow.profileId).dedup.length

/-- `_credit_hit`, and the tokens credited. -/
def Sys.creditHit (s : Sys) (profileId accountId : Nat) (night : String) (spot : Spot)
    (accounts : List Nat) : Sys × Int :=
  let hit := (s.addEarn accountId night (sourceFor spot.kind) spot.id spot.award).1
  let found :=
    if spot.kind = .seek ∧ spot.firstNBonus ≠ 0 ∧ hit.finders night spot.id < seekFirstN then
      (hit.addEarn accountId night activity (spot.id ++ ":first") spot.firstNBonus).1
    else hit
  let paid := (found.creditProfile profileId (some accounts)).1
  (paid, paid.balance profileId - s.balance profileId)

def Sys.hitRefs (s : Sys) (profileId : Nat) (night : String) : List String :=
  (s.credits.rows.filter (fun c => c.profileId = profileId ∧ c.key.night = night ∧
    (c.key.source = .knock ∨ c.key.source = .activity))).map (fun c => c.key.ref)

def currentClue (spots : List Spot) (done : List String) : Option Clue :=
  let clues := (spots.filter (fun q => q.kind = .clue)).insertionSort (fun q q' => q.seq ≤ q'.seq)
  (clues.find? (fun q => q.id ∉ done)).map (fun q => ⟨q.seq, clues.length, q.riddle⟩)

structure Treat where
  award : Int
  nextClue : Option Clue
  deriving DecidableEq, Repr

def Sys.awardOf (s : Sys) (profileId : Nat) (night : String) (refs : List String) : Int :=
  ((s.credits.rows.filter (fun c => c.profileId = profileId ∧ c.key.night = night ∧
    (c.key.source = .knock ∨ c.key.source = .activity) ∧ c.key.ref ∈ refs)).map
      CreditRow.delta).sum

def Sys.creditBonus (s : Sys) (profileId accountId : Nat) (night ref : String) (amount : Int)
    (accounts : List Nat) : Sys :=
  ((s.addEarn accountId night activity ref amount).1.creditProfile profileId (some accounts)).1

def Sys.knockHit (s : Sys) (profileId accountId : Nat) (night : String) (spots : List Spot)
    (spot : Spot) (stormLive : Bool) (accounts : List Nat) : Sys × Treat :=
  let hit := (s.creditHit profileId accountId night spot accounts).1
  let refs := [spot.id, spot.id ++ ":first"]
  let storm := if spot.kind = .haunt ∧ stormLive then
      hit.creditBonus profileId accountId night (spot.id ++ ":storm") stormBonus accounts
    else hit
  let refs := if spot.kind = .haunt ∧ stormLive then refs ++ [spot.id ++ ":storm"] else refs
  if spot.kind = .clue then
    match currentClue spots (storm.hitRefs profileId night) with
    | none =>
      let trail := storm.creditBonus profileId accountId night "trail:all" trailAllAward accounts
      (trail, ⟨trail.awardOf profileId night (refs ++ ["trail:all"]), none⟩)
    | some nxt => (storm, ⟨storm.awardOf profileId night refs, some nxt⟩)
  else (storm, ⟨storm.awardOf profileId night refs, none⟩)

inductive Op
  | act (a : Act)
  | recordLoginDays (accountId : Nat) (dates : List String) (today : String)
  | creditAll
  | knockHit (profileId accountId : Nat) (night : String) (spots : List Spot) (spot : Spot)
      (stormLive : Bool) (accounts : List Nat)
  deriving DecidableEq, Repr

def Sys.perform (s : Sys) : Op → Sys
  | .act a => s.apply a
  | .recordLoginDays accountId dates today => (s.recordLoginDays accountId dates today).1
  | .creditAll => s.creditAll.1
  | .knockHit profileId accountId night spots spot stormLive accounts =>
    (s.knockHit profileId accountId night spots spot stormLive accounts).1

def opStep (s : Sys) (op : Op) : Option Sys := some (s.perform op)

/-! ## Transactions are runs of acts -/

/-- `s'` is reached from `s` by acts. -/
def Reaches (s s' : Sys) : Prop := ∃ acts, exec step s acts = some s'

namespace Reaches

theorem refl (s : Sys) : Reaches s s := ⟨[], rfl⟩

theorem trans {s m s' : Sys} (h : Reaches s m) (h' : Reaches m s') : Reaches s s' := by
  obtain ⟨as, has⟩ := h
  obtain ⟨bs, hbs⟩ := h'
  exact ⟨as ++ bs, exec_append.mpr ⟨m, has, hbs⟩⟩

theorem act (s : Sys) (a : Act) : Reaches s (s.apply a) := ⟨[a], rfl⟩

theorem addEarn (s : Sys) (accountId : Nat) (night : String) (source : EarnSource) (ref : String)
    (amount : Int) : Reaches s (s.addEarn accountId night source ref amount).1 :=
  act s (.addEarn accountId night source ref amount)

theorem creditProfile (s : Sys) (profileId : Nat) (accounts : Option (List Nat)) :
    Reaches s (s.creditProfile profileId accounts).1 :=
  act s (.creditProfile profileId accounts)

theorem addVisits (accountId : Nat) (today : String) (dates : List String) (s : Sys) :
    Reaches s (s.addVisits accountId today dates).1 := by
  induction dates generalizing s with
  | nil => exact refl s
  | cons d ds ih =>
    unfold Sys.addVisits
    by_cases hd : d ∈ nightKeys ∧ d ≤ today
    · rw [if_pos hd]
      exact (addEarn ..).trans (ih _)
    · rw [if_neg hd]
      exact ih s

theorem creditProfiles (pids : List Nat) (s : Sys) : Reaches s (s.creditProfiles pids).1 := by
  induction pids generalizing s with
  | nil => exact refl s
  | cons pid pids ih => exact (creditProfile ..).trans (ih _)

theorem creditHit (s : Sys) (profileId accountId : Nat) (night : String) (spot : Spot)
    (accounts : List Nat) : Reaches s (s.creditHit profileId accountId night spot accounts).1 := by
  unfold Sys.creditHit
  refine trans ?_ (creditProfile ..)
  split
  · exact (addEarn ..).trans (addEarn ..)
  · exact addEarn ..

theorem creditBonus (s : Sys) (profileId accountId : Nat) (night ref : String) (amount : Int)
    (accounts : List Nat) :
    Reaches s (s.creditBonus profileId accountId night ref amount accounts) :=
  (addEarn ..).trans (creditProfile ..)

theorem knockHit (s : Sys) (profileId accountId : Nat) (night : String) (spots : List Spot)
    (spot : Spot) (stormLive : Bool) (accounts : List Nat) :
    Reaches s (s.knockHit profileId accountId night spots spot stormLive accounts).1 := by
  have hhit := creditHit s profileId accountId night spot accounts
  simp only [Sys.knockHit]
  by_cases hclue : spot.kind = .clue
  · simp only [hclue, reduceCtorEq, false_and, if_false, if_true]
    split
    · exact hhit.trans (creditBonus ..)
    · exact hhit
  · rw [if_neg hclue]
    split
    · exact hhit.trans (creditBonus ..)
    · exact hhit

end Reaches

theorem perform_reaches (s : Sys) (op : Op) : Reaches s (s.perform op) := by
  cases op with
  | act a => exact Reaches.act s a
  | recordLoginDays accountId dates today =>
    exact (Reaches.act s (.recordEarly ..)).trans (Reaches.addVisits ..)
  | creditAll => exact Reaches.creditProfiles _ s
  | knockHit profileId accountId night spots spot stormLive accounts =>
    exact Reaches.knockHit ..

theorem exec_op_invariant {I : Sys → Prop} (hstep : ∀ s a, I s → I (s.apply a)) {s s' : Sys}
    {ops : List Op} (hs : I s) (hrun : exec opStep s ops = some s') : I s' := by
  apply exec_invariant' _ hs hrun
  intro m op m' hm hop
  obtain ⟨acts, hacts⟩ := perform_reaches m op
  have hm' : m.perform op = m' := Option.some.inj hop
  rw [← hm']
  apply exec_invariant' _ hm hacts
  intro n a n' hn ha
  exact Option.some.inj ha ▸ hstep n a hn

end LastSietch.Nights
