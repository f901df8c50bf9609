import GameRoster.Numeric.Binary

namespace GameRoster.Numeric

/-- The value `digits · 10 ^ exponent`. -/
structure Decimal where
  digits : Nat
  exponent : Int
deriving Repr, DecidableEq

/-- The decimals that read back as one double: those between `low / unit` and `high / unit`,
the ends included when `closed`. The double itself is `centre / unit`. -/
structure Reach where
  low : Nat
  centre : Nat
  high : Nat
  unit : Nat
  closed : Bool

namespace Reach

/-- The gap below a power of two is half the gap above it, except at the least exponent. -/
def narrowBelow (b : Binary) : Bool :=
  b.mantissa == Nat.pow 2 52 && decide (-1074 < b.exponent)

/-- Each end lies halfway to the neighbouring double; it reads back when the mantissa is even. -/
def ofBinary (b : Binary) : Reach :=
  let scale := Nat.pow 2 (b.exponent - 2).toNat
  { low := (4 * b.mantissa - if narrowBelow b then 1 else 2) * scale
    centre := 4 * b.mantissa * scale
    high := (4 * b.mantissa + 2) * scale
    unit := Nat.pow 2 (2 - b.exponent).toNat
    closed := b.mantissa % 2 == 0 }

/-- Compares a decimal with `n / unit`. -/
def compareWith (r : Reach) (d : Decimal) (n : Nat) : Ordering :=
  compare (d.digits * Nat.pow 10 d.exponent.toNat * r.unit) (n * Nat.pow 10 (-d.exponent).toNat)

def contains (r : Reach) (d : Decimal) : Bool :=
  let low := r.compareWith d r.low
  let high := r.compareWith d r.high
  (low == .gt || r.closed && low == .eq) && (high == .lt || r.closed && high == .eq)

/-- The number of decimal digits of a positive natural. -/
def digitCount (n : Nat) : Nat := (Nat.toDigits 10 n).length

/-- The least `k` with `centre / unit < 10 ^ k`. -/
def magnitude (r : Reach) : Int :=
  if r.unit ≤ r.centre then digitCount (r.centre / r.unit)
  else 1 - digitCount ((r.unit - 1) / r.centre)

/-- The number of whole steps of `10 ^ exponent` in the double. -/
def stepsBelow (r : Reach) (exponent : Int) : Nat :=
  r.centre * Nat.pow 10 (-exponent).toNat / (r.unit * Nat.pow 10 exponent.toNat)

end Reach

/-- Which of two equally near decimals of the same length is written. -/
inductive Tie
  | toEven
  | up
deriving Repr, DecidableEq

namespace Decimal

/-- The one of two neighbouring decimals that lies nearer to the double. -/
def nearer (r : Reach) (tie : Tie) (below above : Decimal) : Decimal :=
  match r.compareWith ⟨below.digits + above.digits, below.exponent⟩ (2 * r.centre) with
  | .gt => below
  | .lt => above
  | .eq =>
    match tie with
    | .up => above
    | .toEven => if below.digits % 2 == 0 then below else above

/-- The decimal of exactly `count` digits that reads back, if there is one. -/
def withDigits (r : Reach) (tie : Tie) (count : Nat) : Option Decimal :=
  let exponent := r.magnitude - count
  let below : Decimal := ⟨r.stepsBelow exponent, exponent⟩
  let above : Decimal := ⟨below.digits + 1, exponent⟩
  match r.contains below, r.contains above with
  | true, true => some (nearer r tie below above)
  | true, false => some below
  | false, true => some above
  | false, false => none

/-- Moves trailing zeros of the digits into the exponent. -/
def strip : Nat → Decimal → Decimal
  | 0, d => d
  | fuel + 1, d =>
    if d.digits ≠ 0 ∧ d.digits % 10 = 0 then strip fuel ⟨d.digits / 10, d.exponent + 1⟩ else d

/-- The exact value; a double is a finite decimal. -/
def exact (b : Binary) : Decimal :=
  if 0 ≤ b.exponent then ⟨b.mantissa * Nat.pow 2 b.exponent.toNat, 0⟩
  else ⟨b.mantissa * Nat.pow 5 (-b.exponent).toNat, b.exponent⟩

/-- The shortest decimal that reads back. Seventeen digits always suffice. -/
def shortest (tie : Tie) (b : Binary) : Decimal :=
  if b.mantissa = 0 then ⟨0, 0⟩
  else
    let r := Reach.ofBinary b
    let d := ((List.range 17).findSome? fun n => withDigits r tie (n + 1)).getD (exact b)
    strip (Reach.digitCount d.digits) d

end Decimal

end GameRoster.Numeric
