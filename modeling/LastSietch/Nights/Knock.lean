import Mathlib.Algebra.Order.Ring.Rat
import Mathlib.Data.Prod.Lex
import LastSietch.Nights.Events

/-!
# The Knock

`Board.knock` is one Knock: the throttle reads the log of attempts, the trail and the open
spots are read from the ledger, and a hit goes through `Sys.knockHit`. A `Board` is the spots
table with what `validate_spot` and the primary key promise, the open partitions and the
`hypot` that measures distances. Times are microseconds since the epoch, `created_at` keeps
whole seconds.

* `knockTxn_cases`: a Knock leaves the ledger alone, or it hits one open spot.
* `knock_throttled`: a throttled one logs a `cooldown` row, and the throttle does not
  count it (`knockThrottled_cooldown`).
-/

namespace LastSietch.Nights

open Quota Runs

/-! ## Spots -/

def spotIdRe (id : String) : Bool :=
  match id.toList with
  | [] => false
  | c :: cs =>
    (c.isLower || c.isDigit) && decide (cs.length ≤ 31) &&
      cs.all (fun c => c.isLower || c.isDigit || c == '-')

/-- A row of `portal_sn_spots`, with where it stands. -/
structure Place extends Spot where
  night : String
  map : String
  x : ℚ
  y : ℚ
  radius : ℚ
  isPublic : Bool
  deriving DecidableEq

/-- What `validate_spot` lets through. -/
structure Place.Valid (d : Place) : Prop where
  id : spotIdRe d.id = true
  night : d.night ∈ nightKeys
  map : d.map = "hagga" ∨ d.map = "deep-desert"
  radius : 1000 ≤ d.radius ∧ d.radius ≤ 50000
  award : 1 ≤ d.award ∧ d.award ≤ 10
  bonus : 0 ≤ d.firstNBonus ∧ d.firstNBonus ≤ 10
  clue : d.kind = .clue → 1 ≤ d.seq ∧ d.seq ≤ 9 ∧ d.riddle ≠ ""
  hidden : d.kind = .seek → d.isPublic = false

structure Board where
  places : List Place
  ids : (places.map (fun d => d.id)).Nodup
  valid : ∀ d ∈ places, d.Valid
  /-- `HAGGA_EVENT_PARTITIONS`. -/
  partitions : List Int
  hypot : ℚ → ℚ → ℚ

def kindName : SpotKind → String
  | .porch => "porch"
  | .clue => "clue"
  | .stall => "stall"
  | .seek => "seek"
  | .haunt => "haunt"

/-- `ORDER BY kind, seq, id`. -/
def Place.rank (d : Place) : String ×ₗ ℕ ×ₗ String := toLex (kindName d.kind, toLex (d.seq, d.id))

def Board.spotsFor (board : Board) (night : String) : List Place :=
  (board.places.filter (fun d => d.night = night)).insertionSort (fun d d' => d.rank ≤ d'.rank)

def spotAliases (id : String) : List (ℚ × ℚ) :=
  if id = "n1-wreck-tartarus" then [(-392417, 308351)] else []

def Board.spotDist (board : Board) (d : Place) (x y : ℚ) : ℚ :=
  ((spotAliases d.id).map (fun pt => board.hypot (x - pt.1) (y - pt.2))).foldl min
    (board.hypot (x - d.x) (y - d.y))

def trail (spots : List Spot) : List Spot :=
  (spots.filter (fun q => q.kind = .clue)).insertionSort (fun q q' => q.seq ≤ q'.seq)

/-- The spot of `current_clue`, its `_id` included. -/
def openClue (spots : List Spot) (done : List String) : Option Spot :=
  (trail spots).find? (fun q => q.id ∉ done)

theorem currentClue_eq (spots : List Spot) (done : List String) :
    currentClue spots done =
      (openClue spots done).map (fun q => ⟨q.seq, (trail spots).length, q.riddle⟩) :=
  rfl

def Board.trail (board : Board) (night : String) : List Spot :=
  Nights.trail ((board.spotsFor night).map Place.toSpot)

inductive SeekBand
  | scorching | warm | cool | cold
  deriving DecidableEq, Repr

def seekBand (units : ℚ) : SeekBand :=
  if units < 30000 then .scorching
  else if units < 150000 then .warm
  else if units < 400000 then .cool
  else .cold

/-- The tokens of the column `band`. -/
inductive Band
  | cooldown | ineligible | stale | offline | amtal | done | band | miss | treat
  deriving DecidableEq, Repr

/-- A row of `portal_sn_knocks`. -/
structure KnockRow where
  profileId : Nat
  accountId : Nat
  night : String
  spotId : Option String
  dist : Option ℚ
  band : Band
  hit : Bool
  stale : Bool
  createdAt : Int
  deriving DecidableEq

structure Sietch where
  sys : Sys
  knocks : List KnockRow

def Sietch.start : Sietch := ⟨Sys.start, []⟩

def second : Int := 1000000
def knocksPerNight : Nat := 60
def knockCooldown : Int := 30

/-- `_now_db`: whole seconds. -/
def nowDb (now : Int) : Int := now / second

def knockThrottled (knocks : List KnockRow) (profileId : Nat) (night : String) (now : Int) : Bool :=
  let rows := (knocks.filter (fun r =>
    r.profileId = profileId ∧ r.night = night ∧ r.band ≠ .cooldown)).reverse
  if knocksPerNight ≤ rows.length then true
  else
    match rows with
    | [] => false
    | last :: _ => decide (now - last.createdAt * second < knockCooldown * second)

/-! ## One Knock -/

/-- The caller's own position; `map` is empty when the read has none. -/
structure Position where
  map : String
  part : Option Int
  x : Option ℚ
  y : Option ℚ
  online : Bool
  stale : Bool
  deriving DecidableEq

structure Knock where
  profileId : Nat
  accountId : Nat
  pos : Option Position
  now : Int
  spotId : Option String
  stormLive : Bool
  accounts : Option (List Nat)
  deriving DecidableEq

inductive KnockReply
  | closed | cooldown | ineligible | stale | offline | amtal | done
  | band (name : SeekBand)
  | miss (shown : Option ℚ)
  | treat (treat : Treat)

def firstDay : Int := 20752

/-- `current_night`: the key of the night running at `now`. -/
def currentNight (now : Int) : Option String :=
  let n := now / (86400 * second) - firstDay
  if 0 ≤ n then nightKeys[n.toNat]? else none

def Board.offEventHagga (board : Board) (pos : Position) : Bool :=
  if pos.map ≠ "" ∧ pos.map ≠ "HaggaBasin" then false
  else !pos.part.any (fun part => decide (part ∈ board.partitions))

def gameMapToKey (map : String) : Option String :=
  if map = "HaggaBasin" then some "hagga"
  else if map = "DeepDesert" then some "deep-desert"
  else none

def Knock.row (k : Knock) (night : String) (token : Band) : KnockRow :=
  ⟨k.profileId, k.accountId, night, none, none, token, false, false, nowDb k.now⟩

/-- `_log_knock`. -/
def Sietch.log (w : Sietch) (row : KnockRow) : Sietch := { w with knocks := w.knocks ++ [row] }

def Board.openSpots (board : Board) (s : Sys) (k : Knock) (night : String) : List Place :=
  let spots := board.spotsFor night
  let done := s.hitRefs k.profileId night
  let clue := openClue (spots.map Place.toSpot) done
  let porchesFull := (capFor night .knock).any
    (fun cap => decide (cap ≤ credited s.credits k.profileId night .knock))
  spots.filter (fun d =>
    d.id ∉ done ∧ (k.spotId.getD "" = "" ∨ k.spotId = some d.id) ∧
      ¬ (d.kind = .porch ∧ porchesFull) ∧
      (d.kind = .clue → clue.any (fun q => decide (q.id = d.id)) = true))

def Board.here (board : Board) (s : Sys) (k : Knock) (night map : String) (x y : ℚ) :
    List (ℚ × Place) :=
  (((board.openSpots s k night).filter (fun d => some d.map = gameMapToKey map)).map
    (fun d => (board.spotDist d x y, d))).insertionSort (fun t t' => t.1 ≤ t'.1)

def Sietch.missShown (w : Sietch) (k : Knock) (night : String) (here : List (ℚ × Place)) :
    Sietch × KnockReply :=
  let shown := (here.filter (fun t => t.2.isPublic)).head?
  (w.log { k.row night .miss with
    spotId := shown.map (fun t => t.2.id), dist := shown.map Prod.fst },
    .miss (shown.map Prod.fst))

/-- The end of `_knock_txn`, for a position that counts. -/
def Board.knockAt (board : Board) (w : Sietch) (k : Knock) (night map : String) (x y : ℚ)
    (accounts : List Nat) : Sietch × KnockReply :=
  let spots := (board.spotsFor night).map Place.toSpot
  let openSpots := board.openSpots w.sys k night
  if openSpots = [] then (w.log (k.row night .done), .done)
  else
    let here := board.here w.sys k night map x y
    match here.find? (fun t => t.1 ≤ t.2.radius) with
    | some (dist, d) =>
      let hit := w.sys.knockHit k.profileId k.accountId night spots d.toSpot k.stormLive accounts
      ({ w with sys := hit.1 }.log
        { k.row night .treat with spotId := some d.id, dist := some dist, hit := true },
        .treat hit.2)
    | none =>
      match here.find? (fun t => t.2.kind = .seek) with
      | some (dist, d) =>
        (w.log { k.row night .band with spotId := some d.id, dist := some dist },
          .band (seekBand dist))
      | none =>
        match openClue spots (w.sys.hitRefs k.profileId night) with
        | some clue =>
          if openSpots.any (fun d => d.kind = .clue) then
            (w.log { k.row night .miss with
              spotId := some clue.id, dist := here.head?.map Prod.fst }, .miss none)
          else w.missShown k night here
        | none => w.missShown k night here

def Board.knockTxn (board : Board) (w : Sietch) (k : Knock) (night : String)
    (accounts : List Nat) : Sietch × KnockReply :=
  if knockThrottled w.knocks k.profileId night k.now then
    (w.log (k.row night .cooldown), .cooldown)
  else if w.sys.profileEligible accounts = false then
    (w.log (k.row night .ineligible), .ineligible)
  else
    match k.pos with
    | none => (w.log (k.row night .offline), .offline)
    | some pos =>
      -- stale first: a failed or cache-served read is "try again", never "offline"
      if pos.stale then (w.log { k.row night .stale with stale := true }, .stale)
      else
        match pos.x, pos.y with
        | some x, some y =>
          if pos.online = false then (w.log (k.row night .offline), .offline)
          else if board.offEventHagga pos then (w.log (k.row night .amtal), .amtal)
          else board.knockAt w k night pos.map x y accounts
        | _, _ => (w.log (k.row night .offline), .offline)

def Knock.accountsIn (k : Knock) (s : Sys) : List Nat :=
  let accounts := k.accounts.getD (s.profileAccounts k.profileId)
  if k.accountId ∈ accounts then accounts else accounts ++ [k.accountId]

def Board.knock (board : Board) (w : Sietch) (k : Knock) : Sietch × KnockReply :=
  match currentNight k.now with
  | none => (w, .closed)
  | some night => board.knockTxn w k night (k.accountsIn w.sys)

/-! ## What a Knock can do -/

/-- The Knock has hit `d`, an open spot of the night. -/
structure Board.Hits (board : Board) (w : Sietch) (k : Knock) (night : String)
    (accounts : List Nat) (d : Place) (w' : Sietch) : Prop where
  eligible : w.sys.profileEligible accounts = true
  isOpen : d ∈ board.openSpots w.sys k night
  sys : w'.sys = (w.sys.knockHit k.profileId k.accountId night
    ((board.spotsFor night).map Place.toSpot) d.toSpot k.stormLive accounts).1

theorem mem_here {board : Board} {s : Sys} {k : Knock} {night map : String} {x y : ℚ}
    {t : ℚ × Place} (ht : t ∈ board.here s k night map x y) : t.2 ∈ board.openSpots s k night := by
  obtain ⟨d, hd, rfl⟩ := List.mem_map.mp ((List.mem_insertionSort _).mp ht)
  exact (List.mem_filter.mp hd).1

theorem knockAt_cases (board : Board) (w : Sietch) (k : Knock) (night map : String) (x y : ℚ)
    {accounts : List Nat} (helig : w.sys.profileEligible accounts = true) :
    (board.knockAt w k night map x y accounts).1.sys = w.sys ∨
      ∃ d, board.Hits w k night accounts d (board.knockAt w k night map x y accounts).1 := by
  have hshown : ∀ here, (w.missShown k night here).1.sys = w.sys := fun _ => rfl
  simp only [Board.knockAt]
  by_cases hopen : board.openSpots w.sys k night = []
  · rw [if_pos hopen]
    exact Or.inl rfl
  · rw [if_neg hopen]
    split
    · rename_i dist d hfind
      exact Or.inr ⟨d, helig, mem_here (List.mem_of_find?_eq_some hfind), rfl⟩
    · split
      · exact Or.inl rfl
      · split
        · split
          · exact Or.inl rfl
          · exact Or.inl (hshown _)
        · exact Or.inl (hshown _)

theorem knockTxn_cases (board : Board) (w : Sietch) (k : Knock) (night : String)
    (accounts : List Nat) :
    (board.knockTxn w k night accounts).1.sys = w.sys ∨
      ∃ d, board.Hits w k night accounts d (board.knockTxn w k night accounts).1 := by
  unfold Board.knockTxn
  split
  · exact Or.inl rfl
  · split
    · exact Or.inl rfl
    · rename_i helig
      rw [Bool.not_eq_false] at helig
      split
      · exact Or.inl rfl
      · split
        · exact Or.inl rfl
        · split
          · split
            · exact Or.inl rfl
            · split
              · exact Or.inl rfl
              · exact knockAt_cases board w k night _ _ _ helig
          · exact Or.inl rfl

theorem knock_cases (board : Board) (w : Sietch) (k : Knock) :
    (board.knock w k).1.sys = w.sys ∨
      ∃ night d, board.Hits w k night (k.accountsIn w.sys) d (board.knock w k).1 := by
  unfold Board.knock
  cases currentNight k.now with
  | none => exact Or.inl rfl
  | some night =>
    rcases knockTxn_cases board w k night (k.accountsIn w.sys) with h | ⟨d, h⟩
    · exact Or.inl h
    · exact Or.inr ⟨night, d, h⟩

theorem knockThrottled_cooldown (knocks : List KnockRow) {row : KnockRow}
    (hrow : row.band = .cooldown) (p : Nat) (night : String) (now : Int) :
    knockThrottled (knocks ++ [row]) p night now = knockThrottled knocks p night now := by
  have hskip : [row].filter (fun r => decide (r.profileId = p ∧ r.night = night ∧
      r.band ≠ .cooldown)) = [] := by
    simp [hrow]
  rw [knockThrottled, List.filter_append, hskip, List.append_nil]
  rfl

theorem knock_throttled {board : Board} {w : Sietch} {k : Knock} {night : String}
    (hnight : currentNight k.now = some night)
    (hthrottled : knockThrottled w.knocks k.profileId night k.now = true) :
    board.knock w k = (w.log (k.row night .cooldown), .cooldown) := by
  unfold Board.knock
  rw [hnight]
  exact if_pos hthrottled

end LastSietch.Nights
