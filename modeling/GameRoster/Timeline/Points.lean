import GameRoster.Timeline.Ranges

namespace GameRoster.Timeline

structure Points (V : Type) where
  pairs : List (Float × V)

namespace Points

/-- Whether the first of two points may stand before the second. -/
def before {V : Type} (a b : Float × V) : Bool :=
  decide (Numeric.orderKey a.1 ≤ Numeric.orderKey b.1)

/-- Points in the total order of their times. -/
def ofPairs {V : Type} (pairs : List (Float × V)) : Points V := ⟨pairs.mergeSort before⟩

/-- Reads an item of the list form, which states its own time. -/
def readItem {V : Type} (limits : TimeLimits) (item : Location → Value → Checked V)
    (loc : Location) (raw : Value) : Checked (Float × V) := do
  let time ← Field.time limits (loc.field "time") (itemTime raw)
  let value ← item loc raw
  return (time, value)

/-- Reads an entry of the object form, whose key is its time. -/
def readEntry {V : Type} (limits : TimeLimits) (item : Location → Value → Checked V)
    (loc : Location) (name : String) (raw : Value) : Checked (Float × V) := do
  let time ← Field.time limits loc (.string name)
  let value ← item loc raw
  return (time, value)

/-- Times may lie anywhere from zero to `duration`. -/
def read {V : Type} (duration : Float) (item : Location → Value → Checked V) (loc : Location)
    (raw : Value) : Checked (Points V) := do
  let limits := TimeLimits.between 0 duration
  match raw with
  | .array items => return ofPairs (← loc.each (readItem limits item) items)
  | .object fields => return ofPairs (← loc.eachKey (readEntry limits item) fields)
  | _ => Checked.fail (.timeline loc .shape)

def toValue {V : Type} (value : V → Value) (timeline : Points V) : Value :=
  .object [("pairs", .array (timeline.pairs.map fun (time, v) => .array [.float time, value v]))]

end Points

end GameRoster.Timeline
