import GameRoster.Fault
import GameRoster.Value
import GameRoster.Numeric.Literal
import GameRoster.Text.Blank

namespace GameRoster

/-- Inclusive bounds. -/
structure FloatLimits where
  least : Option Float := none
  greatest : Option Float := none

/-- Inclusive bounds, and whether a truth value stands for one or zero. -/
structure IntLimits where
  least : Option Int := none
  greatest : Option Int := none
  allowBool : Bool := false
deriving Repr, DecidableEq

namespace FloatLimits

def atLeast (x : Float) : FloatLimits := { least := some x }

def between (x y : Float) : FloatLimits := { least := some x, greatest := some y }

/-- A value beyond a bound is refused; NaN is beyond none. -/
def check (limits : FloatLimits) (loc : Location) (x : Float) : Check Unit :=
  match limits.least, limits.greatest with
  | none, none => .ok ()
  | some lo, none => if x < lo then Check.field loc (.least lo) else .ok ()
  | none, some hi => if hi < x then Check.field loc (.greatest hi) else .ok ()
  | some lo, some hi =>
    if x < lo then Check.field loc (.least lo)
    else if hi < x then Check.field loc (.greatest hi) else .ok ()

end FloatLimits

namespace IntLimits

def atLeast (n : Int) : IntLimits := { least := some n }

def between (n m : Int) : IntLimits := { least := some n, greatest := some m }

/-- The bounds as doubles. -/
def toFloats (limits : IntLimits) : FloatLimits where
  least := limits.least.map Numeric.ofInt
  greatest := limits.greatest.map Numeric.ofInt

end IntLimits

namespace Field

def bool (loc : Location) : Value → Check Bool
  | .bool b => .ok b
  | .number n => .ok (n.toFloat != 0)
  | _ => Check.field loc .boolean

/-- The double that an integer field holds before it is rounded. -/
def intSource (limits : IntLimits) (loc : Location) : Value → Check Float
  | .number n => .ok n.toFloat
  | .bool b =>
    if limits.allowBool then .ok (if b then 1 else 0) else Check.field loc .integer
  | _ => Check.field loc (if limits.allowBool then .integerOrBoolean else .integer)

def int (limits : IntLimits) (loc : Location) (raw : Value) : Check Int := do
  let x ← intSource limits loc raw
  limits.toFloats.check loc x
  return Numeric.roundToWord x

/-- The numeral of a percent: digits, perhaps with a fraction, and a percent sign. -/
def percent? (text : List Char) : Option Float :=
  match Text.Numeral.take? text with
  | some (numeral, ['%']) => some (numeral.toFloat / 100)
  | _ => none

/-- A float written as a text: a percent, or a decimal with white space around it. -/
def floatOfText? (text : List Char) : Option Float :=
  match percent? text with
  | some x => some x
  | none => Numeric.literal? (Text.trim text)

def floatSource (loc : Location) : Value → Check Float
  | .number n => .ok n.toFloat
  | .string s =>
    match floatOfText? s.toList with
    | some x => .ok x
    | none => Check.field loc .float
  | _ => Check.field loc .float

def float (limits : FloatLimits) (loc : Location) (raw : Value) : Check Float := do
  let x ← floatSource loc raw
  limits.check loc x
  return x

end Field

end GameRoster
