import GameRoster.Field.Sequence
import GameRoster.Text.DecimalDigit

namespace GameRoster

structure JewelSlots where
  special : Int
  attack : Int
  defense : Int
deriving Repr, DecidableEq

namespace JewelSlots

def empty : JewelSlots := ⟨0, 0, 0⟩

/-- A letter and the digits after it. -/
structure Group where
  letter : Char
  digits : List Char
deriving Repr, DecidableEq

def isLetter (c : Char) : Bool := c == 'A' || c == 'D' || c == 'S'

/-- Reads one group at the front of a text. -/
def takeGroup? : List Char → Option (Group × List Char)
  | [] => none
  | c :: rest =>
    let digits := rest.takeWhile Text.isDecimalDigit
    if isLetter c && !digits.isEmpty then
      some (⟨c, digits⟩, rest.dropWhile Text.isDecimalDigit)
    else none

/-- A whole text as at most `n` groups. -/
def groups? : Nat → List Char → Option (List Group)
  | _, [] => some []
  | 0, _ :: _ => none
  | n + 1, text =>
    match takeGroup? text with
    | some (group, rest) => (groups? n rest).map (group :: ·)
    | none => none

/-- The count a group writes. Digits that are not ASCII and counts beyond a word count zero. -/
def Group.count (group : Group) : Int :=
  let n : Int := Text.digitsValue group.digits
  if group.digits.all Text.isDigit && n ≤ Numeric.wordMax then n else 0

/-- Sets the count of the group's letter. -/
def set (slots : JewelSlots) (group : Group) : JewelSlots :=
  if group.letter == 'S' then { slots with special := group.count }
  else if group.letter == 'A' then { slots with attack := group.count }
  else { slots with defense := group.count }

def ofText? (text : List Char) : Option JewelSlots :=
  (groups? 3 text).map fun groups => groups.foldl set empty

def read (loc : Location) (raw : Value) : Check JewelSlots :=
  match raw with
  | .string s =>
    match ofText? s.toList with
    | some slots => .ok slots
    | none => Check.field loc .jewelSlots
  | .array _ => do
    match ← Field.ints (.atLeast 0) (.exactly 3) loc raw with
    | [special, attack, defense] => return { special, attack, defense }
    | _ => Check.field loc (.lengthIs 3)
  | _ => Check.field loc .jewelSlots

/-- Slots per level. -/
def readAll (lengths : Lengths) (loc : Location) (raw : Value) : Check (List JewelSlots) :=
  Field.listOf lengths read loc raw

def toValue (slots : JewelSlots) : Value :=
  .array [.int slots.special, .int slots.attack, .int slots.defense]

end JewelSlots

end GameRoster
