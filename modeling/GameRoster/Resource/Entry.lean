import GameRoster.Document.Reading
import GameRoster.Field.Text
import GameRoster.Variable.IndexTable

namespace GameRoster

structure EntryDraft where
  name : String
  maxPiece : Value
  attributes : Value
  varIndexes : Value

structure Entry where
  id : String
  name : String
  maxPiece : Int
  attributes : Option AttributeTable
  attributesPlus : Option AttributeTable
  varIndexes : Option IndexTable
  varIndexesPlus : Option IndexTable

open Document in
def EntryDraft.shape : Shape :=
  .record "EntryArgs" [required "name" .text, required "max_piece" .value,
    optional "attributes" .value, optional "var_indexes" .value]

open Document in
def EntryDraft.ofNode? (format : Format) (node : Node) : Option EntryDraft := do
  let fields ← node.record? format shape
  return {
    name := ← fields.text? "name"
    maxPiece := ← fields.value? "max_piece"
    attributes := ← fields.valueOrNull? "attributes"
    varIndexes := ← fields.valueOrNull? "var_indexes" }

namespace Entry

def attributeGroups : List Attribute.Group := [.primary, .secondary, .secondaryPlus]

/-- Rows have a value per piece, after the zero for no piece. -/
def rowLimits (pieces : Nat) : AttributeTable.RowLimits :=
  { lengths := .exactly pieces, first := some 0 }

def build (id : String) (draft : EntryDraft) : Check Entry := do
  let loc := Location.ofResource id
  let name ← Field.text (.atMost nameLimit) (loc "name") draft.name
  let maxPiece ← Field.int (.atLeast 1) (loc "max_piece") draft.maxPiece
  let pieces := maxPiece.toNat
  let (attributes, attributesPlus) ← Field.orElse (none, none)
    (AttributeTable.readPlus attributeGroups (rowLimits pieces) (loc "attributes")) draft.attributes
  let (varIndexes, varIndexesPlus) ← Field.orElse (none, none)
    (IndexTable.readPlus (some pieces) (loc "var_indexes")) draft.varIndexes
  return { id, name, maxPiece, attributes, attributesPlus, varIndexes, varIndexesPlus }

def fields (e : Entry) : List (String × Option Value) :=
  [("id", some (.string e.id)),
   ("name", some (.string e.name)),
   ("max_piece", some (.int e.maxPiece)),
   ("attributes", e.attributes.map AttributeTable.toValue),
   ("attributes_plus", e.attributesPlus.map AttributeTable.toValue),
   ("var_indexes", e.varIndexes.map IndexTable.toValue),
   ("var_indexes_plus", e.varIndexesPlus.map IndexTable.toValue)]

end Entry

end GameRoster
