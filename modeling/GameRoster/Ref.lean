import GameRoster.Id
import GameRoster.Field.Sequence

namespace GameRoster

structure Ref (family : Id.Family) where
  text : String
  wellFormed : ∃ parts, Id.parts? family text = .ok parts
deriving DecidableEq

namespace Ref

def parse? (family : Id.Family) (text : String) : Except Id.Violation (Ref family) :=
  match h : Id.parts? family text with
  | .ok parts => .ok ⟨text, parts, h⟩
  | .error violation => .error violation

/-- Reads a text as an id. -/
def ofText (family : Id.Family) (loc : Location) (text : String) : Check (Ref family) :=
  match parse? family text with
  | .ok ref => .ok ref
  | .error violation => Check.field loc (.idForm family violation)

/-- Reads a value that must hold an id. -/
def ofValue (family : Id.Family) (loc : Location) : Value → Check (Ref family)
  | .string text => ofText family loc text
  | _ => Check.field loc .id

/-- Reads ids one after another. Unless `repeats` are allowed, none may stand among those before
it, `taken` included. -/
def listFrom (family : Id.Family) (repeats : Bool) (loc : Location) :
    Nat → List String → List String → Check (List (Ref family))
  | _, _, [] => .ok []
  | i, taken, text :: rest =>
    if !repeats && taken.contains text then Check.field (loc.index i) .distinctIds
    else do
      let ref ← ofText family (loc.index i) text
      let refs ← listFrom family repeats loc (i + 1) (taken ++ [text]) rest
      return ref :: refs

/-- Reads a list of ids that follow the `taken` ones. -/
def list (family : Id.Family) (lengths : Lengths) (repeats : Bool) (taken : List String)
    (loc : Location) (texts : List String) : Check (List (Ref family)) := do
  lengths.check loc texts.length
  listFrom family repeats loc 0 taken texts

/-- A list of distinct ids of any length. -/
def distinct (family : Id.Family) (loc : Location) (texts : List String) :
    Check (List (Ref family)) := list family {} false [] loc texts

/-- A value that must hold an id, before the id is read. -/
def textOf (loc : Location) : Value → Check String
  | .string text => .ok text
  | _ => Check.field loc .id

/-- Reads a value that must be a list of ids. -/
def listOfValue (family : Id.Family) (lengths : Lengths) (repeats : Bool) (taken : List String)
    (loc : Location) (raw : Value) : Check (List (Ref family)) := do
  let items ← Field.list {} loc raw
  let texts ← loc.each textOf items
  list family lengths repeats taken loc texts

end Ref

end GameRoster
