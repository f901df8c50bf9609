
namespace GameRoster.Text

def isDigit (c : Char) : Bool := c.isDigit

/-- The natural that a run of digits writes. -/
def digitsValue (digits : List Char) : Nat :=
  digits.foldl (fun n c => 10 * n + (c.toNat - '0'.toNat)) 0

/-- A numeral, read as `whole` and `fraction` digits. -/
structure Numeral where
  whole : List Char
  fraction : List Char
deriving Repr, DecidableEq

namespace Numeral

/-- Reads the longest numeral at the front of a text, and gives what is left. A point that no
digit follows is left over. -/
def take? (text : List Char) : Option (Numeral × List Char) :=
  let whole := text.takeWhile isDigit
  if whole.isEmpty then none
  else
    match text.dropWhile isDigit with
    | '.' :: rest =>
      let fraction := rest.takeWhile isDigit
      if fraction.isEmpty then some (⟨whole, []⟩, '.' :: rest)
      else some (⟨whole, fraction⟩, rest.dropWhile isDigit)
    | rest => some (⟨whole, []⟩, rest)

/-- The digits as written, with the point when there is a fraction. -/
def text (n : Numeral) : List Char :=
  if n.fraction.isEmpty then n.whole else n.whole ++ '.' :: n.fraction

/-- The double nearest to the numeral. -/
def toFloat (n : Numeral) : Float :=
  Float.ofScientific (digitsValue (n.whole ++ n.fraction)) true n.fraction.length

end Numeral

end GameRoster.Text
