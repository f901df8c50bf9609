import GameRoster.Attribute.Table
import GameRoster.Document.Reading
import GameRoster.Field.Choice
import GameRoster.Field.Text
import GameRoster.Resource.EntryTable
import GameRoster.Resource.Slots

namespace GameRoster

inductive EquipmentSlot
  | slot1
  | slot2
  | slot3
deriving Repr, DecidableEq

instance : Named EquipmentSlot where
  all := [.slot1, .slot2, .slot3]
  name
    | .slot1 => "Slot1"
    | .slot2 => "Slot2"
    | .slot3 => "Slot3"
  rule := .equipmentSlot

structure EquipmentDraft where
  name : String
  character : String
  slot : String
  parents : Value
  level : Value
  attributes : Value
  slots : Value
  entries : Value

structure Equipment where
  id : String
  name : String
  character : Ref .character
  slot : EquipmentSlot
  level : Int × Int
  parents : Option (Parents .equipment)
  attributes : AttributeTable
  slots : Option (List JewelSlots)
  entries : Option EntryTable

open Document in
def EquipmentDraft.shape : Shape :=
  .record "EquipmentArgs" [required "name" .text, required "character" .text, required "slot" .text,
    optional "parents" .value, required "level" .value, required "attributes" .value,
    optional "slots" .value, optional "entries" .value]

open Document in
def EquipmentDraft.ofNode? (format : Format) (node : Node) : Option EquipmentDraft := do
  let fields ← node.record? format shape
  return {
    name := ← fields.text? "name"
    character := ← fields.text? "character"
    slot := ← fields.text? "slot"
    parents := ← fields.valueOrNull? "parents"
    level := ← fields.value? "level"
    attributes := ← fields.value? "attributes"
    slots := ← fields.valueOrNull? "slots"
    entries := ← fields.valueOrNull? "entries" }

namespace Equipment

def build (id : String) (draft : EquipmentDraft) : Check Equipment := do
  let loc := Location.ofResource id
  let name ← Field.text (.atMost nameLimit) (loc "name") draft.name
  let character ← Ref.ofText .character (loc "character") draft.character
  let slot ← Named.read (loc "slot") draft.slot
  let level ← Field.intRange (.atLeast 0) (loc "level") draft.level
  let levels := levelCount level
  let parents ← Parents.read .equipment (loc "parents") draft.parents
  let attributes ← AttributeTable.read [.primary, .secondary] (.perLevel levels) (loc "attributes")
    draft.attributes
  let slots ← Field.optional (JewelSlots.readAll (.exactly levels) (loc "slots")) draft.slots
  let entries ← Field.optional (EntryTable.read (.exactly levels) (loc "entries")) draft.entries
  return { id, name, character, slot, level, parents, attributes, slots, entries }

def fields (e : Equipment) : List (String × Option Value) :=
  [("id", some (.string e.id)),
   ("name", some (.string e.name)),
   ("character", some (.string e.character.text)),
   ("slot", some (Named.toValue e.slot)),
   ("level", some (intPair e.level)),
   ("parents", e.parents.map Parents.toValue),
   ("attributes", some e.attributes.toValue),
   ("slots", e.slots.map fun slots => .array (slots.map JewelSlots.toValue)),
   ("entries", e.entries.map EntryTable.toValue)]

end Equipment

end GameRoster
