import GameRoster.Resource.Levels

namespace GameRoster

/-- What one level adds to an entry. -/
structure EntryGain where
  piece : Int
  plus : Int
deriving Repr, DecidableEq

abbrev EntryTable : Type := List (Ref .entry × List EntryGain)

namespace EntryTable

/-- Whether the upgrades fit on the pieces. The product is taken not to overflow a word. -/
def fits (gain : EntryGain) : Bool := decide (gain.plus ≤ gain.piece * plusPerPiece)

def gain (loc : Location) (raw : Value) : Check EntryGain := do
  match ← Field.list (.exactly 2) loc raw with
  | [piece, plus] =>
    let piece ← Field.int (.atLeast 0) (loc.index 0) piece
    let plus ← Field.int (.atLeast 0) (loc.index 1) plus
    if fits ⟨piece, plus⟩ then return ⟨piece, plus⟩ else Check.field loc .plusLimit
  | _ => Check.field loc (.lengthIs 2)

def row (lengths : Lengths) (loc : Location) (id : String) (raw : Value) :
    Check (Ref .entry × List EntryGain) := do
  let id ← Ref.ofText .entry loc id
  let gains ← Field.listOf lengths gain loc raw
  return (id, gains)

def read (lengths : Lengths) (loc : Location) (raw : Value) : Check EntryTable := do
  let fields ← Field.object loc raw
  loc.eachKey (row lengths) fields

def toValue (table : EntryTable) : Value :=
  .object (table.map fun (id, gains) =>
    (id.text, .array (gains.map fun gain => intPair (gain.piece, gain.plus))))

end EntryTable

end GameRoster
