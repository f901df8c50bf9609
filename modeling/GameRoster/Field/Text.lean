import GameRoster.Field.Sequence

namespace GameRoster

/-- A pattern, as a test and as it is shown in a message. -/
structure TextPattern where
  shown : String
  accepts : List Char → Bool

/-- One or more lower case letters. -/
def TextPattern.lowerCase : TextPattern where
  shown := "^[a-z]+$"
  accepts := fun text => !text.isEmpty && text.all Char.isLower

structure TextLimits where
  least : Option Nat := none
  greatest : Option Nat := none
  choices : Option (List String) := none
  pattern : Option TextPattern := none

namespace TextLimits

def atMost (n : Nat) : TextLimits := { greatest := some n }

/-- The first constraint that a text does not meet is reported. -/
def check (limits : TextLimits) (loc : Location) (text : String) : Check Unit := do
  if let some n := limits.least then
    if text.length < n then Check.field loc (.lengthAtLeast n)
  if let some n := limits.greatest then
    if n < text.length then Check.field loc (.lengthAtMost n)
  if let some choices := limits.choices then
    if !choices.contains text then Check.field loc (.oneOf choices)
  if let some pattern := limits.pattern then
    if !pattern.accepts text.toList then Check.field loc (.pattern pattern.shown)

end TextLimits

namespace Field

def text (limits : TextLimits) (loc : Location) (raw : String) : Check String := do
  limits.check loc raw
  return raw

def textOfValue (limits : TextLimits) (loc : Location) : Value → Check String
  | .string raw => text limits loc raw
  | _ => Check.field loc .text

/-- Reads texts one after another; when they must be `distinct`, none may repeat one before it. -/
def textsFrom (limits : TextLimits) (distinct : Bool) (loc : Location) :
    Nat → List String → List String → Check (List String)
  | _, _, [] => .ok []
  | i, taken, raw :: rest =>
    if distinct && taken.contains raw then Check.field (loc.index i) .unique
    else do
      let first ← text limits (loc.index i) raw
      let others ← textsFrom limits distinct loc (i + 1) (taken ++ [raw]) rest
      return first :: others

def texts (limits : TextLimits) (lengths : Lengths) (distinct : Bool) (loc : Location)
    (raw : List String) : Check (List String) := do
  lengths.check loc raw.length
  textsFrom limits distinct loc 0 [] raw

end Field

/-- The longest display name of a character. -/
def characterNameLimit : Nat := 32

/-- The longest display name of any other resource. -/
def nameLimit : Nat := 48

end GameRoster
