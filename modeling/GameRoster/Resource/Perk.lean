import GameRoster.Document.Reading
import GameRoster.Field.Text
import GameRoster.Resource.EntryTable
import GameRoster.Resource.Slots
import GameRoster.Variable.IndexTable

namespace GameRoster

structure PerkDraft where
  name : String
  character : String
  style : String
  usableStyles : Option (List String)
  parents : Value
  maxLevel : Value
  attributes : Value
  slots : Value
  entries : Value
  varIndexes : Value

structure Perk where
  id : String
  name : String
  character : Ref .character
  /-- The style that unlocks this perk. -/
  style : Ref .style
  /-- The styles that may use this perk; the one that unlocks it comes first unless it is listed. -/
  usableStyles : List (Ref .style)
  parents : Option (Parents .perk)
  maxLevel : Int
  attributes : Option AttributeTable
  slots : Option (List JewelSlots)
  entries : Option EntryTable
  varIndexes : Option IndexTable

open Document in
def PerkDraft.shape : Shape :=
  .record "PerkArgs" [required "name" .text, required "character" .text, required "style" .text,
    optional "usable_styles" (.option .texts), optional "parents" .value,
    required "max_level" .value, optional "attributes" .value, optional "slots" .value,
    optional "entries" .value, optional "var_indexes" .value]

open Document in
def PerkDraft.ofNode? (format : Format) (node : Node) : Option PerkDraft := do
  let fields ← node.record? format shape
  return {
    name := ← fields.text? "name"
    character := ← fields.text? "character"
    style := ← fields.text? "style"
    usableStyles := ← fields.getD? "usable_styles" (Node.option? Node.texts?) none
    parents := ← fields.valueOrNull? "parents"
    maxLevel := ← fields.value? "max_level"
    attributes := ← fields.valueOrNull? "attributes"
    slots := ← fields.valueOrNull? "slots"
    entries := ← fields.valueOrNull? "entries"
    varIndexes := ← fields.valueOrNull? "var_indexes" }

namespace Perk

/-- The styles that may use a perk of `style`. -/
def readUsableStyles (style : Ref .style) (loc : Location) :
    Option (List String) → Check (List (Ref .style))
  | none => .ok [style]
  | some texts =>
    if texts.contains style.text then Ref.distinct .style loc texts
    else do
      let others ← Ref.list .style {} false [style.text] loc texts
      return style :: others

def build (id : String) (draft : PerkDraft) : Check Perk := do
  let loc := Location.ofResource id
  let name ← Field.text (.atMost nameLimit) (loc "name") draft.name
  let character ← Ref.ofText .character (loc "character") draft.character
  let style ← Ref.ofText .style (loc "style") draft.style
  let usableStyles ← readUsableStyles style (loc "usable_styles") draft.usableStyles
  let parents ← Parents.read .perk (loc "parents") draft.parents
  let maxLevel ← Field.int (.atLeast 0) (loc "max_level") draft.maxLevel
  let levels := maxLevel.toNat
  let attributes ← Field.optional
    (AttributeTable.read [.primary, .secondary] (.perLevel levels) (loc "attributes"))
    draft.attributes
  let slots ← Field.optional (JewelSlots.readAll (.exactly levels) (loc "slots")) draft.slots
  let entries ← Field.optional (EntryTable.read (.exactly levels) (loc "entries")) draft.entries
  let varIndexes ← Field.orElse none (IndexTable.read (some levels) (loc "var_indexes"))
    draft.varIndexes
  return { id, name, character, style, usableStyles, parents, maxLevel, attributes, slots,
           entries, varIndexes }

def fields (p : Perk) : List (String × Option Value) :=
  [("id", some (.string p.id)),
   ("name", some (.string p.name)),
   ("character", some (.string p.character.text)),
   ("style", some (.string p.style.text)),
   ("usable_styles", some (refs p.usableStyles)),
   ("parents", p.parents.map Parents.toValue),
   ("max_level", some (.int p.maxLevel)),
   ("attributes", p.attributes.map AttributeTable.toValue),
   ("slots", p.slots.map fun slots => .array (slots.map JewelSlots.toValue)),
   ("entries", p.entries.map EntryTable.toValue),
   ("var_indexes", p.varIndexes.map IndexTable.toValue)]

end Perk

end GameRoster
