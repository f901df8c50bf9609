import GameRoster.Ref
import GameRoster.Document.Reading

namespace GameRoster

/-- Who may read a variable, as an author writes it. -/
inductive OwnersDraft
  | anyone
  | one (id : String)
  | many (ids : List String)
deriving Repr, DecidableEq

structure VariableDraft where
  maxLevel : Value
  owners : OwnersDraft

structure Variable where
  id : Ref .variable
  maxLevel : Nat
  unrestricted : Bool
  characters : List (Ref .character)
  styles : List (Ref .style)
deriving DecidableEq

namespace OwnersDraft

/-- A star alone stands for anyone. -/
def ofText (text : String) : OwnersDraft := if text == "*" then .anyone else .one text

def ofNode? : Document.Node → Option OwnersDraft
  | .text s => some (ofText s)
  | .list items => (items.mapM Document.Node.text?).map .many
  | .tuple _ items => (items.mapM Document.Node.text?).map .many
  | _ => none

end OwnersDraft

namespace VariableDraft
open Document

def shape : Shape :=
  .record "VarDefinition" [required "max_level" .value, required "owners" .value]

def ofNode? (format : Format) (node : Node) : Option VariableDraft := do
  let fields ← node.record? format shape
  return {
    maxLevel := ← fields.value? "max_level"
    owners := ← fields.get? "owners" OwnersDraft.ofNode? }

end VariableDraft

namespace Variable

/-- The owners that a variable has so far. -/
structure Owners where
  characters : List (Ref .character)
  styles : List (Ref .style)

/-- Adds an owner, which is a character or a style. -/
def Owners.add (owners : Owners) (loc : Location) (owner : String) : Check Owners :=
  if (Text.strip? "Character.".toList owner.toList).isSome then do
    let id ← Ref.ofText .character loc owner
    return { owners with characters := owners.characters ++ [id] }
  else if (Text.strip? "Style.".toList owner.toList).isSome then do
    let id ← Ref.ofText .style loc owner
    return { owners with styles := owners.styles ++ [id] }
  else .error (.variable loc .owner)

def Owners.addFrom (loc : Location) : Nat → Owners → List String → Check Owners
  | _, owners, [] => .ok owners
  | i, owners, owner :: rest => do
    let owners ← owners.add (loc.index i) owner
    addFrom loc (i + 1) owners rest

def Owners.ofDraft (loc : Location) : OwnersDraft → Check Owners
  | .anyone => .ok ⟨[], []⟩
  | .one id => Owners.add ⟨[], []⟩ loc id
  | .many ids => Owners.addFrom loc 0 ⟨[], []⟩ ids

/-- Defines a variable, apart from the question whether the id is taken. -/
def ofDraft (id : String) (draft : VariableDraft) : Check Variable := do
  let loc := Location.ofVariable id
  let ref ← Ref.ofText .variable loc id
  let maxLevel ← Field.int (.atLeast 1) (loc.index 0) draft.maxLevel
  let owners ← Owners.ofDraft (loc.index 1) draft.owners
  return {
    id := ref
    maxLevel := maxLevel.toNat
    unrestricted := draft.owners == .anyone
    characters := owners.characters
    styles := owners.styles }

def toValue (v : Variable) : Value :=
  .object [
    ("id", .string v.id.text),
    ("max_level", .nat v.maxLevel),
    ("no_limit", .bool v.unrestricted),
    ("characters", .strings (v.characters.map Ref.text)),
    ("styles", .strings (v.styles.map Ref.text))]

end Variable

end GameRoster
