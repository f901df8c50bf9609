import GameRoster.Attribute
import GameRoster.Field.Sequence

namespace GameRoster

/-- Rows by name, in the order they were written. -/
abbrev AttributeTable : Type := List (String × List Float)

namespace AttributeTable

/-- How a row is read. -/
structure RowLimits where
  item : FloatLimits := {}
  lengths : Lengths := {}
  order : Order := .any
  first : Option Float := none

/-- A table with one value per level. -/
def RowLimits.perLevel (n : Nat) : RowLimits := { lengths := .exactly n }

/-- Reads the row of one attribute. -/
def row (groups : List Attribute.Group) (limits : RowLimits) (loc : Location) (name : String)
    (raw : Value) : Check (String × List Float) :=
  if (Attribute.groupOf? name).any groups.contains then do
    let values ← Field.numbers (Field.float limits.item) limits.lengths limits.order limits.first
      loc raw
    return (name, values)
  else Check.field loc .attribute

def read (groups : List Attribute.Group) (limits : RowLimits) (loc : Location) (raw : Value) :
    Check AttributeTable := do
  let fields ← Field.object loc raw
  loc.eachKey (row groups limits) fields

/-- The rows under plain names. -/
def plainRows {α : Type} (rows : List (String × α)) : List (String × α) :=
  rows.filter fun (name, _) => (Attribute.plusBase? name).isNone

/-- The rows under names with a dollar sign, which is taken off. -/
def plusRows {α : Type} (rows : List (String × α)) : List (String × α) :=
  rows.filterMap fun (name, row) => (Attribute.plusBase? name).map fun base => (base, row)

/-- A table that holds nothing is left out. -/
def unlessEmpty {α : Type} (rows : List α) : Option (List α) :=
  if rows.isEmpty then none else some rows

/-- Reads a table and splits off the rows of plus forms. -/
def readPlus (groups : List Attribute.Group) (limits : RowLimits) (loc : Location) (raw : Value) :
    Check (Option AttributeTable × Option AttributeTable) := do
  let rows ← read groups limits loc raw
  return (unlessEmpty (plainRows rows), unlessEmpty (plusRows rows))

def toValue (table : AttributeTable) : Value :=
  .object (table.map fun (name, row) => (name, .array (row.map .float)))

end AttributeTable

end GameRoster
