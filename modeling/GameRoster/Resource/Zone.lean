import GameRoster.Document.Reading
import GameRoster.Field.Path
import GameRoster.Field.Text

namespace GameRoster

structure ZoneDraft where
  name : String
  zoneFile : String
  viewZoneFile : String
deriving Repr, DecidableEq

structure Zone where
  id : String
  name : String
  zoneFile : String
  viewZoneFile : String
deriving Repr, DecidableEq

open Document in
def ZoneDraft.shape : Shape :=
  .record "ZoneArgs" [required "name" .text, required "zone_file" .text,
    required "view_zone_file" .text]

open Document in
def ZoneDraft.ofNode? (format : Format) (node : Node) : Option ZoneDraft := do
  let fields ← node.record? format shape
  return {
    name := ← fields.text? "name"
    zoneFile := ← fields.text? "zone_file"
    viewZoneFile := ← fields.text? "view_zone_file" }

namespace Zone

def build (id : String) (draft : ZoneDraft) : Check Zone := do
  let loc := Location.ofResource id
  return {
    id
    name := ← Field.text (.atMost nameLimit) (loc "name") draft.name
    zoneFile := ← Field.path { extensions := [".json"] } (loc "zone_file") draft.zoneFile
    viewZoneFile := ← Field.path {} (loc "view_zone_file") draft.viewZoneFile }

def fields (z : Zone) : List (String × Option Value) :=
  [("id", some (.string z.id)),
   ("name", some (.string z.name)),
   ("zone_file", some (.string z.zoneFile)),
   ("view_zone_file", some (.string z.viewZoneFile))]

end Zone

end GameRoster
