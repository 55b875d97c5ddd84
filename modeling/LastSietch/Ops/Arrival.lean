import LastSietch.Lib.Dict
import Mathlib.Algebra.Order.Ring.Unbundled.Rat

/-!
# Arrivals on Amtal

`amtal-arrival.py`, which runs every few seconds: it looks where the characters are, marks one that
has come to Amtal from another partition as pending, waits for the line of the log that says that it
is in the world, and sends it to a base of its own or to a safe area. What it knows is in a file
that it writes when it is through with all the characters; a tick that fails before that leaves the
file as it was.
-/

namespace LastSietch.Arrival

open Dict

/-- A row of the query over `player_state`. -/
structure PlayerRow where
  fls : String
  pid : Int
  ctl : Int
  part : Int
  map : Option String
  status : String
  /-- `previous_server_partition_id`, or -1. -/
  prev : Int
  pawn : Int

inductive LogLine
  /-- `LoadingInvulnerability removed for player`. -/
  | inWorld (time : ℚ) (fls : String)
  /-- `TravelingActorsPersistenceIdsChanged`, with a vehicle. -/
  | vehicle (time : ℚ) (pawn vehicle : Int)
  | other

/-- The vehicle of the backup tool: its partition, that of the pawn, and how far apart they are. -/
structure Stored where
  vehiclePartition : Option Int
  pawnPartition : Option Int
  distance : ℚ

structure Answers where
  tutorial : Option Nat
  stored : Option Stored
  base : Option (ℚ × ℚ × ℚ)
  faction : Option Int
  /-- `random.choice`. -/
  riftwatch : Bool

structure Rec where
  cur : Int
  pending : Bool
  pendingSince : Option ℚ
  pid : Int
  ctl : Int
  pawn : Int

abbrev Players := List (String × Rec)

structure File where
  players : Players
  inworld : List (String × ℚ)
  vehicles : List (Int × ℚ × Int)

variable (amtal : Int)

def PlayerRow.map? (r : PlayerRow) : Option Int :=
  if r.status = "Online" ∧ r.map ≠ some "Overmap" ∧ 0 ≤ r.part then some r.part else none

def move (now : ℚ) (rec : Rec) (r : PlayerRow) : Rec :=
  match r.map? with
  | none => rec
  | some part =>
    if part = rec.cur then rec
    else if part = amtal then { rec with cur := part, pending := true, pendingSince := some now }
    else { rec with cur := part, pending := false }

def observe (firstRun : Bool) (now : ℚ) (players : Players) (r : PlayerRow) : Players :=
  match players.lookup r.fls with
  | some rec => assign players r.fls (move amtal now { rec with pawn := r.pawn } r)
  | none =>
    let seed := r.map?.getD r.prev
    let seeded : Rec := ⟨seed, false, none, r.pid, r.ctl, r.pawn⟩
    if firstRun = true ∨ seed = amtal then assign players r.fls seeded
    else assign players r.fls (move amtal now seeded r)

def observeAll (now : ℚ) (players : Players) (rows : List PlayerRow) : Players :=
  rows.foldl (observe amtal players.isEmpty now) players

def readLine (file : File) : LogLine → File
  | .inWorld time fls =>
    { file with
      inworld := assign file.inworld fls (max time ((file.inworld.lookup fls).getD 0)) }
  | .vehicle time pawn vehicle =>
    if ((file.vehicles.lookup pawn).map (·.1)).getD 0 ≤ time then
      { file with vehicles := assign file.vehicles pawn (time, vehicle) }
    else file
  | .other => file

def readLog (now : ℚ) (file : File) (lines : List LogLine) : File :=
  let file := lines.foldl readLine file
  { file with
    inworld := file.inworld.filter fun e => !(e.2 < now - 3600)
    vehicles := file.vehicles.filter fun e => !(e.2.1 < now - 3600) }

def SLACK : ℚ := 120
def VEHICLE_NEAR : ℚ := 5000
def BASE_Z_OFFSET : ℚ := 150

structure Place where
  x : ℚ
  y : ℚ
  z : ℚ
  exact : Bool

def RIFTWATCH : Place := ⟨2710839 / 10, -256431 / 10, 92737 / 10, true⟩
def HELIUS_GATE : Place := ⟨-396181 / 10, -2525475 / 10, 229547 / 10, true⟩

def flewIn (file : File) (answers : Answers) (fls : String) (rec : Rec) : Bool :=
  match file.vehicles.lookup rec.pawn with
  | none => false
  | some (time, _) =>
    if |time - (file.inworld.lookup fls).getD 0| ≤ SLACK then
      match answers.stored with
      | none => true
      | some s => !(s.vehiclePartition ≠ s.pawnPartition || VEHICLE_NEAR < s.distance)
    else false

def destination (answers : Answers) : Place :=
  match answers.base with
  | some (x, y, z) => ⟨x, y, z + BASE_Z_OFFSET, false⟩
  | none =>
    match answers.faction.getD 3 with
    | 2 => RIFTWATCH
    | 1 => HELIUS_GATE
    | _ => if answers.riftwatch = true then RIFTWATCH else HELIUS_GATE

def handle (live : Bool) (now : ℚ) (file : File) (answers : Answers) (fls : String) (rec : Rec) :
    Rec × Option Place :=
  if rec.pending = false then (rec, none)
  else
    let since := rec.pendingSince.getD now
    if 900 < now - since then ({ rec with pending := false }, none)
    else if (file.inworld.lookup fls).getD 0 < since - SLACK then (rec, none)
    else
      let settled := { rec with pending := false }
      if answers.tutorial.getD 0 = 0 then (settled, none)
      else if flewIn file answers fls rec = true then (settled, none)
      else if live = false then (settled, none)
      else (settled, some (destination answers))

inductive Cut
  | rows (n : Nat)
  | log
  | players (n : Nat)
  deriving DecidableEq

structure Tick where
  kill : Bool
  live : Bool
  now : ℚ
  rows : List PlayerRow
  lines : List LogLine
  answers : String → Answers
  cut : Option Cut

def Tick.seenRows (t : Tick) : List PlayerRow :=
  if t.kill = true then []
  else
    match t.cut with
    | some (.rows n) => t.rows.take n
    | _ => t.rows

def Tick.handled (t : Tick) (file : File) : List (String × Rec × Option Place) :=
  let players := observeAll amtal t.now file.players t.seenRows
  let file := readLog t.now file t.lines
  players.map fun e => (e.1, handle t.live t.now file (t.answers e.1) e.1 e.2)

def sendsOf (handled : List (String × Rec × Option Place)) : List (String × Place) :=
  handled.filterMap fun e => e.2.2.map fun place => (e.1, place)

def Tick.sends (t : Tick) (file : File) : List (String × Place) :=
  if t.kill = true then []
  else
    match t.cut with
    | some (.rows _) | some .log => []
    | some (.players n) => sendsOf ((t.handled amtal file).take n)
    | none => sendsOf (t.handled amtal file)

def Tick.saves (t : Tick) : Bool := !t.kill && t.cut.isNone

def Tick.file (t : Tick) (file : File) : File :=
  if t.saves = true then
    { readLog t.now file t.lines with
      players := (t.handled amtal file).map fun e => (e.1, e.2.1) }
  else file

end LastSietch.Arrival
