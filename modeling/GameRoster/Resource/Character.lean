import GameRoster.Document.Reading
import GameRoster.Field.Path
import GameRoster.Field.Text
import GameRoster.Plane
import GameRoster.Resource.Levels

namespace GameRoster

structure CharacterDraft where
  name : String
  level : Value
  styles : List String
  equipments : List String
  boundingCapsule : CapsuleDraft
  skeletonFiles : String
  skeletonToward : Value

structure Character where
  id : String
  name : String
  level : Int × Int
  styles : List (Ref .style)
  equipments : List (Ref .equipment)
  boundingCapsule : Capsule
  skeletonFiles : String
  skeletonToward : Float × Float

open Document in
def CapsuleDraft.shape : Shape :=
  .record "CapsuleArgs" [required "half_height" .value, required "radius" .value]

open Document in
def CapsuleDraft.ofNode? (format : Format) (node : Node) : Option CapsuleDraft := do
  let fields ← node.record? format shape
  return {
    halfHeight := ← fields.value? "half_height"
    radius := ← fields.value? "radius" }

open Document in
def CharacterDraft.shape : Shape :=
  .record "CharacterArgs" [required "name" .text, required "level" .value, required "styles" .texts,
    required "equipments" .texts, required "bounding_capsule" CapsuleDraft.shape,
    required "skeleton_files" .text, required "skeleton_toward" .value]

open Document in
def CharacterDraft.ofNode? (format : Format) (node : Node) : Option CharacterDraft := do
  let fields ← node.record? format shape
  return {
    name := ← fields.text? "name"
    level := ← fields.value? "level"
    styles := ← fields.texts? "styles"
    equipments := ← fields.texts? "equipments"
    boundingCapsule := ← fields.get? "bounding_capsule" (CapsuleDraft.ofNode? format)
    skeletonFiles := ← fields.text? "skeleton_files"
    skeletonToward := ← fields.value? "skeleton_toward" }

namespace Character

def build (id : String) (draft : CharacterDraft) : Check Character := do
  let loc := Location.ofResource id
  return {
    id
    name := ← Field.text (.atMost characterNameLimit) (loc "name") draft.name
    level := ← Field.intRange (.atLeast 0) (loc "level") draft.level
    styles := ← Ref.distinct .style (loc "styles") draft.styles
    equipments := ← Ref.distinct .equipment (loc "equipments") draft.equipments
    boundingCapsule := ← Capsule.ofDraft draft.boundingCapsule (loc "bounding_capsule")
    skeletonFiles := ← Field.path {} (loc "skeleton_files") draft.skeletonFiles
    skeletonToward := ← Field.vector true {} (loc "skeleton_toward") draft.skeletonToward }

def fields (c : Character) : List (String × Option Value) :=
  [("id", some (.string c.id)),
   ("name", some (.string c.name)),
   ("level", some (intPair c.level)),
   ("styles", some (refs c.styles)),
   ("equipments", some (refs c.equipments)),
   ("bounding_capsule", some c.boundingCapsule.toValue),
   ("skeleton_files", some (.string c.skeletonFiles)),
   ("skeleton_toward", some (floatPair c.skeletonToward))]

end Character

end GameRoster
