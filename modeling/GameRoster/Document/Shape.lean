
namespace GameRoster.Document

/-- A field that a record declares. Only an optional field may be missing. -/
structure Declared (σ : Type) where
  name : String
  optional : Bool
  shape : σ

inductive Shape
  /-- Any value, whatever it is. -/
  | value
  | text
  | list (item : Shape)
  | option (item : Shape)
  /-- A map from texts. -/
  | map (item : Shape)
  | record (name : String) (fields : List (Declared Shape))

def required (name : String) (shape : Shape) : Declared Shape := ⟨name, false, shape⟩

def optional (name : String) (shape : Shape) : Declared Shape := ⟨name, true, shape⟩

namespace Shape

instance : Inhabited Shape := ⟨.value⟩

def texts : Shape := .list .text

/-- The shape of the items of a list, or of the values of a map. -/
def item : Shape → Shape
  | .list item => item
  | .map item => item
  | _ => .value

/-- The fields that a record declares. -/
def fields : Shape → List (Declared Shape)
  | .record _ fields => fields
  | _ => []

/-- The shape of a field. A field that is not declared may hold anything. -/
def field (shape : Shape) (name : String) : Shape :=
  ((shape.fields.find? fun declared => declared.name == name).map Declared.shape).getD .value

end Shape

end GameRoster.Document
