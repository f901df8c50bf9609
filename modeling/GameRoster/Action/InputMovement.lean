import GameRoster.Plane
import GameRoster.Time

namespace GameRoster

inductive InputMovement
  /-- Follows the main track, the extra track, or both. -/
  | rootMotion (main extra : Bool)
  /-- Turns within a time, for inputs inside a cone. -/
  | rotation (duration angle : Float)

namespace InputMovement

/-- A field that is neither missing nor left out. -/
def given? (raw : Value) (name : String) : Option Value :=
  (raw.field? name).bind Field.present?

/-- A flag is off unless it is given. -/
def flag (loc : Location) (raw : Value) (name : String) : Check Bool :=
  match given? raw name with
  | some value => Field.bool (loc.field name) value
  | none => .ok false

/-- A turn takes up to a thousand seconds. -/
def turnLimits : TimeLimits := .between 0 1000

/-- Tracks win over a turn when both are given. -/
def read (loc : Location) (raw : Value) : Checked InputMovement :=
  if (given? raw "move").isSome || (given? raw "move_ex").isSome then do
    let main ← flag loc raw "move"
    let extra ← flag loc raw "move_ex"
    return .rootMotion main extra
  else
    match given? raw "angle" with
    | some angle => do
      let duration ← Field.time turnLimits (loc.field "duration")
        ((raw.field? "duration").getD .null)
      let angle ← Field.angle {} (loc.field "angle") angle
      return .rotation duration angle
    | none => Checked.fail (.field loc .inputMovement)

def toValue : InputMovement → Value
  | .rootMotion main extra =>
    .object [("T", .string "RootMotion"), ("move", .bool main), ("move_ex", .bool extra)]
  | .rotation duration angle =>
    .object [("T", .string "Rotation"), ("duration", .float duration), ("angle", .float angle)]

end InputMovement

end GameRoster
