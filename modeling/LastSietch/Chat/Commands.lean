import Mathlib.Algebra.Order.Ring.Nat
import LastSietch.Chat.Tables

/-!
# Slash commands

`parse` of `portal_chat_commands`, for a body that has been cleaned. What Python knows of the
characters of Unicode is the parameter `Unicode`; what `secrets` draws is an argument.
-/

namespace LastSietch.Chat

/-- `str.isspace`, and the value that `int` gives a digit that `\d` matches. -/
structure Unicode where
  isSpace : Char → Bool
  digit? : Char → Option Nat

inductive SendToken
  | badRequest | unknownCommand
  deriving DecidableEq, Repr

def rollDefaultDice : Nat := 1

def rollDefaultSides : Nat := 20

def rollMaxDice : Nat := 10

def rollMinSides : Nat := 2

def rollMaxSides : Nat := 1000

/-- `roll_dice`: `randbelow i` is the number that is drawn for the die `i`. -/
def rollDice (randbelow : Nat → Nat) (count : Nat) : Nat :=
  ((List.range count).map fun i => 1 + randbelow i).sum

namespace Unicode

variable (u : Unicode)

def strip (text : List Char) : List Char :=
  ((text.dropWhile u.isSpace).reverse.dropWhile u.isSpace).reverse

def isDigit (c : Char) : Bool := (u.digit? c).isSome

def int (digits : List Char) : Nat := digits.foldl (fun n c => n * 10 + (u.digit? c).getD 0) 0

/-- The groups of `_ROLL_RE.fullmatch`. -/
def rollGroups (spec : List Char) : Option (List Char × List Char) :=
  let dice := spec.takeWhile u.isDigit
  match spec.dropWhile u.isDigit with
  | [] => none
  | d :: sides =>
    if d.toLower = 'd' ∧ dice.length ≤ 3 ∧ 1 ≤ sides.length ∧ sides.length ≤ 5 ∧
        sides.all u.isDigit = true then
      some (dice, sides)
    else none

def rollSpec (spec : List Char) : Option (Nat × Nat) :=
  if spec = [] then
    some (rollDefaultDice, rollDefaultSides)
  else do
    let (dice, sides) ← u.rollGroups spec
    let count := if dice = [] then 1 else u.int dice
    let sides := u.int sides
    if (1 ≤ count ∧ count ≤ rollMaxDice) ∧ rollMinSides ≤ sides ∧ sides ≤ rollMaxSides then
      some (count, sides)
    else none

def parseRoll (randbelow : Nat → Nat) (spec : List Char) : Except SendToken (Kind × String) :=
  match u.rollSpec spec with
  | none => .error .badRequest
  | some (count, sides) =>
    let total := rollDice randbelow count
    .ok (.roll, s!"rolled {count}d{sides}: {total}")

def parse (randbelow : Nat → Nat) (body : String) : Except SendToken (Kind × String) :=
  match body.toList with
  | '/' :: command =>
    -- `_COMMAND_RE`: letters, and after them the end or a space
    let name := command.takeWhile Char.isAlpha
    let rest := command.dropWhile Char.isAlpha
    if name = [] ∨ rest.head?.any (fun c => !u.isSpace c) = true then
      .error .unknownCommand
    else
      let argument := u.strip rest
      if name.map Char.toLower = "me".toList then
        if argument = [] then .error .badRequest else .ok (.emote, String.ofList argument)
      else if name.map Char.toLower = "roll".toList then
        u.parseRoll randbelow argument
      else
        .error .unknownCommand
  | _ => .ok (.say, body)

variable {u}

theorem rollSpec_bounds {spec : List Char} {count sides : Nat}
    (h : u.rollSpec spec = some (count, sides)) :
    (1 ≤ count ∧ count ≤ rollMaxDice) ∧ rollMinSides ≤ sides ∧ sides ≤ rollMaxSides := by
  unfold rollSpec at h
  split at h
  · cases h
    decide
  · obtain ⟨⟨dice, digits⟩, -, h⟩ := Option.bind_eq_some_iff.mp h
    obtain ⟨hbounds, hroll⟩ := Option.ite_none_right_eq_some.mp h
    cases hroll
    exact hbounds

end Unicode

end LastSietch.Chat
