import GameRoster.Kind
import GameRoster.Fault.Location
import GameRoster.Fault.Rule

namespace GameRoster

/-- What a reference asked for: one kind, or an action of any kind. -/
inductive Expected
  | kind (k : Kind)
  | action
deriving Repr, DecidableEq

def Expected.name : Expected → String
  | .kind k => k.name
  | .action => "Action"

inductive Fault
  | field (loc : Location) (rule : FieldRule)
  | integrity (loc : Location) (rule : IntegrityRule)
  | invalidId (loc : Location) (family : Id.Family) (violation : Id.Violation)
  | duplicateId (id : String)
  | notFound (loc : Location) (id : String)
  | typeMismatch (loc : Location) (id : String) (expected : Expected)
  | timeline (loc : Location) (rule : TimelineRule)
  | variable (loc : Location) (rule : VariableRule)

namespace Fault

/-- Where a fault stands; a repeated id has no place of its own. -/
def location? : Fault → Option Location
  | .field loc _ => some loc
  | .integrity loc _ => some loc
  | .invalidId loc _ _ => some loc
  | .duplicateId _ => none
  | .notFound loc _ => some loc
  | .typeMismatch loc _ _ => some loc
  | .timeline loc _ => some loc
  | .variable loc _ => some loc

def reason : Fault → String
  | .field _ rule => rule.message
  | .integrity _ rule => rule.message
  | .invalidId _ family violation => violation.message family
  | .duplicateId _ => "id cannot repeat"
  | .notFound _ id => "Resource \"" ++ id ++ "\" not found"
  | .typeMismatch _ _ _ => "Resource type miss match"
  | .timeline _ rule => rule.message
  | .variable _ rule => rule.message

/-- The place, a colon, and the reason. -/
def message : Fault → String
  | .duplicateId id => (Location.ofResource id "id").render ++ ": " ++ reason (.duplicateId id)
  | fault => ((location? fault).map Location.render).getD "" ++ ": " ++ reason fault

end Fault

/-- The outcome of checking one value. -/
abbrev Check (α : Type) : Type := Except Fault α

def Check.field {α : Type} (loc : Location) (rule : FieldRule) : Check α := .error (.field loc rule)

end GameRoster
