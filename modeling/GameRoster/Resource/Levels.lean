import GameRoster.Ref

namespace GameRoster

/-- The number of levels in a range that includes both ends. It is not held in a word here: where a
word counts the levels, no range of words but that from zero to the greatest word overflows it. -/
def levelCount (range : Int × Int) : Nat := (range.2 - range.1 + 1).toNat

/-- The level that each parent must have. -/
abbrev Parents (family : Id.Family) : Type := List (Ref family × Int)

namespace Parents

def row (family : Id.Family) (loc : Location) (id : String) (raw : Value) :
    Check (Ref family × Int) := do
  let id ← Ref.ofText family loc id
  let level ← Field.int (.atLeast 0) loc raw
  return (id, level)

/-- Parents may be left out. -/
def read (family : Id.Family) (loc : Location) (raw : Value) :
    Check (Option (Parents family)) :=
  Field.optional (fun raw => do
    let fields ← Field.object loc raw
    loc.eachKey (row family) fields) raw

def toValue {family : Id.Family} (parents : Parents family) : Value :=
  .object (parents.map fun (id, level) => (id.text, .int level))

end Parents

def intPair (pair : Int × Int) : Value := .array [.int pair.1, .int pair.2]

def floatPair (pair : Float × Float) : Value := .array [.float pair.1, .float pair.2]

def refs {family : Id.Family} (ids : List (Ref family)) : Value := .strings (ids.map Ref.text)

end GameRoster
