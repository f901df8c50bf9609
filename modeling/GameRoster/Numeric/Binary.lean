
namespace GameRoster.Numeric

/-- The value `± mantissa · 2 ^ exponent`. The sign is kept for zero as well. -/
structure Binary where
  negative : Bool
  mantissa : Nat
  exponent : Int
deriving Repr, DecidableEq

namespace Binary

/-- The eleven exponent bits. -/
def exponentField (x : Float) : Nat := (x.toBits.toNat / Nat.pow 2 52) % Nat.pow 2 11

/-- The fifty-two fraction bits. -/
def fractionField (x : Float) : Nat := x.toBits.toNat % Nat.pow 2 52

def isNegative (x : Float) : Bool := decide (Nat.pow 2 63 ≤ x.toBits.toNat)

/-- NaN and the infinities have no exact value. -/
def ofFloat? (x : Float) : Option Binary :=
  match exponentField x with
  | 2047 => none
  | 0 => some ⟨isNegative x, fractionField x, -1074⟩
  | e + 1 => some ⟨isNegative x, Nat.pow 2 52 + fractionField x, (e : Int) - 1074⟩

/-- The nearest integer to the magnitude; a half goes up. -/
def roundedMagnitude (b : Binary) : Nat :=
  if 0 ≤ b.exponent then b.mantissa * Nat.pow 2 b.exponent.toNat
  else
    let shift := (-b.exponent).toNat
    (b.mantissa + Nat.pow 2 (shift - 1)) / Nat.pow 2 shift

/-- The nearest integer; a half goes away from zero. -/
def round (b : Binary) : Int :=
  if b.negative then -(b.roundedMagnitude : Int) else b.roundedMagnitude

end Binary

/-- The signed sixty-four bit integers. -/
def wordMin : Int := -(Nat.pow 2 63 : Nat)

def wordMax : Int := (Nat.pow 2 63 : Nat) - 1

/-- The greatest unsigned sixty-four bit integer. -/
def unsignedMax : Nat := Nat.pow 2 64 - 1

/-- Moves a number that is out of range to the nearer end of the signed sixty-four bit range. -/
def saturate (n : Int) : Int := max wordMin (min wordMax n)

/-- The nearest word to a double, halves away from zero: an infinity goes to the end of the
range on its side and NaN to zero. -/
def roundToWord (x : Float) : Int :=
  match Binary.ofFloat? x with
  | some b => saturate b.round
  | none =>
    if x.isNaN then 0
    else if Binary.isNegative x then wordMin else wordMax

/-- The double nearest to an integer, ties to even; zero is positive. -/
def ofInt (n : Int) : Float := Float.ofModel (Float.Model.ofInt n)

/-- How far a double is from the integer it rounds to, as a double. There is no distance for
NaN and the infinities. -/
def distanceToInteger? (x : Float) : Option Float :=
  (Binary.ofFloat? x).map fun b => (ofInt b.round - x).abs

/-- Doubles in their total order, as integers: negative NaN, negative numbers, `-0`, `0`,
positive numbers, positive NaN. -/
def orderKey (x : Float) : Int :=
  let bits := x.toBits.toNat
  if bits < Nat.pow 2 63 then bits else wordMax - bits

end GameRoster.Numeric
