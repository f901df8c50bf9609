import GameRoster.Timeline.Fragment

namespace GameRoster.Timeline

/-- One value per declared range, and the fragments that point into them. -/
structure Ranges (V : Type) where
  fragments : List (Fragment Float)
  values : List V

/-- The time that an item of the list form states. -/
def itemTime (item : Value) : Value := (item.field? "time").getD .null

namespace Ranges

/-- Times are read and partitioned before any value is read. -/
def read {V : Type} (limits : FragmentLimits Float) (item : Location → Value → Checked V)
    (loc : Location) (raw : Value) : Checked (Ranges V) := do
  match raw with
  | .array items =>
    let fragments ← Fragment.readAll limits loc (items.map itemTime)
    let values ← loc.each item items
    return { fragments, values }
  | .object fields =>
    let fragments ← Fragment.readAll limits loc (fields.map fun (name, _) => .string name)
    let values ← loc.eachKey (fun loc _ raw => item loc raw) fields
    return { fragments, values }
  | _ => Checked.fail (.timeline loc .shape)

/-- The value in effect at a time. -/
def valueAt? {V : Type} (timeline : Ranges V) (time : Float) : Option V :=
  (Fragment.at? timeline.fragments time).bind fun fragment => timeline.values[fragment.index]?

def toValue {V : Type} (value : V → Value) (timeline : Ranges V) : Value :=
  .object [("fragments", .array (timeline.fragments.map Fragment.toValue)),
    ("values", .array (timeline.values.map value))]

end Ranges

end GameRoster.Timeline
