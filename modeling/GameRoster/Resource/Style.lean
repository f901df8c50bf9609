import GameRoster.Attribute.Table
import GameRoster.Document.Reading
import GameRoster.Field.Path
import GameRoster.Field.Text
import GameRoster.Resource.Levels
import GameRoster.Resource.Slots

namespace GameRoster

/-- Attributes that do not depend on the level, as an author writes them. -/
structure FixedAttributesDraft where
  damageReduceParam1 : Value
  damageReduceParam2 : Value
  guardDamageRatio1 : Value
  depostureReduceParam1 : Value
  depostureReduceParam2 : Value
  guardDepostureRatio1 : Value
  weakDamageUp : Value

structure FixedAttributes where
  damageReduceParam1 : Float
  damageReduceParam2 : Float
  guardDamageRatio1 : Float
  depostureReduceParam1 : Float
  depostureReduceParam2 : Float
  guardDepostureRatio1 : Float
  weakDamageUp : Float

structure StyleDraft where
  name : String
  character : String
  attributes : Value
  slots : Value
  fixedAttributes : FixedAttributesDraft
  perks : List String
  usablePerks : List String
  actions : List String
  viewModel : String

structure Style where
  id : String
  name : String
  character : Ref .character
  attributes : AttributeTable
  slots : List JewelSlots
  fixedAttributes : FixedAttributes
  /-- The perks that this style unlocks. -/
  perks : List (Ref .perk)
  /-- Every perk that this style may use, its own ones included. -/
  usablePerks : List (Ref .perk)
  actions : List (Ref .action)
  viewModel : String

open Document in
def FixedAttributesDraft.shape : Shape :=
  .record "FixedAttributesArgs" [required "damage_reduce_param_1" .value,
    required "damage_reduce_param_2" .value, required "guard_damage_ratio_1" .value,
    required "deposture_reduce_param_1" .value, required "deposture_reduce_param_2" .value,
    required "guard_deposture_ratio_1" .value, required "weak_damage_up" .value]

open Document in
def FixedAttributesDraft.ofNode? (format : Format) (node : Node) :
    Option FixedAttributesDraft := do
  let fields ← node.record? format shape
  return {
    damageReduceParam1 := ← fields.value? "damage_reduce_param_1"
    damageReduceParam2 := ← fields.value? "damage_reduce_param_2"
    guardDamageRatio1 := ← fields.value? "guard_damage_ratio_1"
    depostureReduceParam1 := ← fields.value? "deposture_reduce_param_1"
    depostureReduceParam2 := ← fields.value? "deposture_reduce_param_2"
    guardDepostureRatio1 := ← fields.value? "guard_deposture_ratio_1"
    weakDamageUp := ← fields.value? "weak_damage_up" }

open Document in
def StyleDraft.shape : Shape :=
  .record "StyleArgs" [required "name" .text, required "character" .text,
    required "attributes" .value, required "slots" .value,
    required "fixed_attributes" FixedAttributesDraft.shape, required "perks" .texts,
    optional "usable_perks" .texts, required "actions" .texts, required "view_model" .text]

open Document in
def StyleDraft.ofNode? (format : Format) (node : Node) : Option StyleDraft := do
  let fields ← node.record? format shape
  return {
    name := ← fields.text? "name"
    character := ← fields.text? "character"
    attributes := ← fields.value? "attributes"
    slots := ← fields.value? "slots"
    fixedAttributes := ← fields.get? "fixed_attributes" (FixedAttributesDraft.ofNode? format)
    perks := ← fields.texts? "perks"
    usablePerks := ← fields.getD? "usable_perks" Node.texts? []
    actions := ← fields.texts? "actions"
    viewModel := ← fields.text? "view_model" }

namespace FixedAttributes

/-- Ratios lie between zero and one; the other attributes are not negative. -/
def ofDraft (draft : FixedAttributesDraft) (loc : Location) : Check FixedAttributes := do
  let ratio := fun (name : String) => Field.float (.between 0 1) (loc.field name)
  let positive := fun (name : String) => Field.float (.atLeast 0) (loc.field name)
  return {
    damageReduceParam1 := ← ratio "damage_reduce_param_1" draft.damageReduceParam1
    damageReduceParam2 := ← positive "damage_reduce_param_2" draft.damageReduceParam2
    guardDamageRatio1 := ← ratio "guard_damage_ratio_1" draft.guardDamageRatio1
    depostureReduceParam1 := ← ratio "deposture_reduce_param_1" draft.depostureReduceParam1
    depostureReduceParam2 := ← positive "deposture_reduce_param_2" draft.depostureReduceParam2
    guardDepostureRatio1 := ← ratio "guard_deposture_ratio_1" draft.guardDepostureRatio1
    weakDamageUp := ← positive "weak_damage_up" draft.weakDamageUp }

def toValue (a : FixedAttributes) : Value :=
  .object [
    ("damage_reduce_param_1", .float a.damageReduceParam1),
    ("damage_reduce_param_2", .float a.damageReduceParam2),
    ("guard_damage_ratio_1", .float a.guardDamageRatio1),
    ("deposture_reduce_param_1", .float a.depostureReduceParam1),
    ("deposture_reduce_param_2", .float a.depostureReduceParam2),
    ("guard_deposture_ratio_1", .float a.guardDepostureRatio1),
    ("weak_damage_up", .float a.weakDamageUp)]

end FixedAttributes

namespace Style

/-- Base stats and percentage modifiers grow with the level. -/
def attributeGroups : List Attribute.Group := [.primary, .secondary]

/-- The usable perks an author lists, followed by the own perks missing from them. -/
def allPerks (usable own : List String) : List String :=
  own.foldl (fun all perk => if all.contains perk then all else all ++ [perk]) usable

def build (id : String) (draft : StyleDraft) : Check Style := do
  let loc := Location.ofResource id
  let perks ← Ref.distinct .perk (loc "perks") draft.perks
  let usablePerks ← Ref.distinct .perk (loc "usable_perks") (allPerks draft.usablePerks draft.perks)
  return {
    id
    name := ← Field.text (.atMost nameLimit) (loc "name") draft.name
    character := ← Ref.ofText .character (loc "character") draft.character
    attributes := ← AttributeTable.read attributeGroups {} (loc "attributes") draft.attributes
    slots := ← JewelSlots.readAll {} (loc "slots") draft.slots
    fixedAttributes := ← FixedAttributes.ofDraft draft.fixedAttributes (loc "fixed_attributes")
    perks
    usablePerks
    actions := ← Ref.distinct .action (loc "actions") draft.actions
    viewModel := ← Field.path { extensions := [".vrm"] } (loc "view_model") draft.viewModel }

def fields (s : Style) : List (String × Option Value) :=
  [("id", some (.string s.id)),
   ("name", some (.string s.name)),
   ("character", some (.string s.character.text)),
   ("attributes", some s.attributes.toValue),
   ("slots", some (.array (s.slots.map JewelSlots.toValue))),
   ("fixed_attributes", some s.fixedAttributes.toValue),
   ("perks", some (refs s.perks)),
   ("usable_perks", some (refs s.usablePerks)),
   ("actions", some (refs s.actions)),
   ("view_model", some (.string s.viewModel))]

end Style

end GameRoster
