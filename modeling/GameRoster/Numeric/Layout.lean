import GameRoster.Numeric.Shortest

namespace GameRoster.Numeric

structure Layout where
  tie : Tie
  /-- Leading digits at a power of ten in `[first, last]` are written positionally; `none` means
  that every number is. -/
  positional : Option (Int × Int)
  /-- Whether a whole number in positional notation ends in `.0`. -/
  wholeFraction : Bool
  nan : String
  infinity : String
  negativeInfinity : String

namespace Layout

def digitChars (n : Nat) : List Char := Nat.toDigits 10 n

def zeros (n : Nat) : List Char := List.replicate n '0'

/-- Digits with the point placed so that the last digit stands at `10 ^ exponent`. -/
def positionalText (l : Layout) (d : Decimal) : List Char :=
  let digits := digitChars d.digits
  if 0 ≤ d.exponent then
    digits ++ zeros d.exponent.toNat ++ if l.wholeFraction then ['.', '0'] else []
  else
    let places := (-d.exponent).toNat
    let padded := zeros (places + 1 - digits.length) ++ digits
    padded.take (padded.length - places) ++ '.' :: padded.drop (padded.length - places)

/-- The power of ten of the leading digit. -/
def leadingPower (d : Decimal) : Int := d.exponent + (digitChars d.digits).length - 1

def exponentText (e : Int) : List Char :=
  (if e < 0 then '-' else '+') :: digitChars e.natAbs

/-- One digit before the point, the others after it, and a signed exponent. -/
def scientificText (d : Decimal) : List Char :=
  let exponent := 'e' :: exponentText (leadingPower d)
  match digitChars d.digits with
  | first :: [] => first :: exponent
  | first :: rest => first :: '.' :: rest ++ exponent
  | [] => exponent

def magnitudeText (l : Layout) (d : Decimal) : List Char :=
  match l.positional with
  | none => l.positionalText d
  | some (first, last) =>
    if d.digits = 0 ∨ (first ≤ leadingPower d ∧ leadingPower d ≤ last) then l.positionalText d
    else scientificText d

/-- The text of a double; the sign of zero is written. -/
def render (l : Layout) (x : Float) : String :=
  match Binary.ofFloat? x with
  | some b =>
    let text := l.magnitudeText (Decimal.shortest l.tie b)
    String.ofList (if b.negative then '-' :: text else text)
  | none =>
    if x.isNaN then l.nan
    else if Binary.isNegative x then l.negativeInfinity else l.infinity

end Layout

end GameRoster.Numeric
