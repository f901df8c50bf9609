import GameRoster.Field.Sequence

namespace GameRoster.Plane

/-- How close two floats must be to count as equal. -/
def tolerance : Float := 1e-6

def nearlyEqual (a b : Float) : Bool := decide ((a - b).abs < tolerance)

def pi : Float := 3.141592653589793

/-- A turn: `L` or `R` and a numeral of degrees. -/
def turn? (text : List Char) : Option Float :=
  match text with
  | side :: rest =>
    match Text.Numeral.take? rest with
    | some (numeral, []) =>
      if side == 'L' then some (1 * numeral.toFloat)
      else if side == 'R' then some (-1 * numeral.toFloat)
      else none
    | _ => none
  | [] => none

def toRadians (degrees : Float) : Float := degrees * pi / 180

/-- The degrees that a value says. -/
def degrees (loc : Location) : Value → Check Float
  | .number n => .ok n.toFloat
  | .string s =>
    match turn? s.toList with
    | some x => .ok x
    | none => Check.field loc .angle
  | _ => Check.field loc .angle

end GameRoster.Plane

namespace GameRoster

namespace Field

/-- A pair of floats, perhaps of length one. -/
def vector (normalized : Bool) (limits : FloatLimits) (loc : Location) (raw : Value) :
    Check (Float × Float) := do
  match ← floats limits (.exactly 2) loc raw with
  | [x, y] =>
    if normalized && !Plane.nearlyEqual (x * x + y * y) 1 then Check.field loc .unitVector
    else return (x, y)
  | _ => Check.field loc (.lengthIs 2)

/-- An angle of at most half a turn to either side; the limits are in degrees. -/
def angle (limits : FloatLimits) (loc : Location) (raw : Value) : Check Float := do
  let degrees ← Plane.degrees loc raw
  if -180 ≤ degrees ∧ degrees ≤ 180 then
    limits.check loc degrees
    return Plane.toRadians degrees
  else Check.field loc .halfTurn

def angleRange (limits : FloatLimits) (loc : Location) (raw : Value) : Check (Float × Float) := do
  match ← listOf (.exactly 2) (angle limits) loc raw with
  | [first, second] => return (first, second)
  | _ => Check.field loc (.lengthIs 2)

end Field

/-- The dimensions of a capsule as an author writes them. -/
structure CapsuleDraft where
  halfHeight : Value
  radius : Value

/-- An upright capsule that bounds a movement. -/
structure Capsule where
  halfHeight : Float
  radius : Float

namespace Capsule

def ofDraft (draft : CapsuleDraft) (loc : Location) : Check Capsule := do
  let halfHeight ← Field.float (.atLeast 0) (loc.field "half_height") draft.halfHeight
  let radius ← Field.float (.atLeast 0) (loc.field "radius") draft.radius
  return { halfHeight, radius }

def toValue (c : Capsule) : Value :=
  .object [("half_height", .float c.halfHeight), ("radius", .float c.radius)]

end Capsule

end GameRoster
