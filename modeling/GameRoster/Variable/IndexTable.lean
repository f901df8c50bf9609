import GameRoster.Ref
import GameRoster.Attribute.Table

namespace GameRoster

/-- Rows by variable, in the order they were written. -/
abbrev IndexTable : Type := List (Ref .variable × List Int)

namespace IndexTable

/-- Indexes are not negative, and a truth value stands for one or zero. -/
def indexLimits : IntLimits := { least := some 0, allowBool := true }

/-- Reads the row of the variable with the given id. -/
def row (length : Option Nat) (id : String) (loc : Location) (raw : Value) :
    Check (Ref .variable × List Int) := do
  let id ← Ref.ofText .variable loc id
  let indexes ← Field.ints indexLimits { exact := length } loc raw
  return (id, indexes)

def read (length : Option Nat) (loc : Location) (raw : Value) : Check (Option IndexTable) := do
  let fields ← Field.object loc raw
  let rows ← loc.eachKey (fun loc name raw => row length name loc raw) fields
  return AttributeTable.unlessEmpty rows

/-- Reads one row and says whether it is a plus row. -/
def plusRow (length : Option Nat) (loc : Location) (name : String) (raw : Value) :
    Check (Bool × Ref .variable × List Int) :=
  match Attribute.plusBase? name with
  | some id => do return (true, ← row length id loc raw)
  | none => do return (false, ← row length name loc raw)

/-- Reads a table and splits off the rows under a dollar sign. -/
def readPlus (length : Option Nat) (loc : Location) (raw : Value) :
    Check (Option IndexTable × Option IndexTable) := do
  let fields ← Field.object loc raw
  let rows ← loc.eachKey (plusRow length) fields
  return (AttributeTable.unlessEmpty ((rows.filter fun row => !row.1).map Prod.snd),
    AttributeTable.unlessEmpty ((rows.filter fun row => row.1).map Prod.snd))

def toValue (table : IndexTable) : Value :=
  .object (table.map fun (id, row) => (id.text, .array (row.map .int)))

end IndexTable

end GameRoster
