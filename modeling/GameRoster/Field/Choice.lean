import GameRoster.Fault
import GameRoster.Value

namespace GameRoster

/-- A type whose values authors write by name. -/
class Named (α : Type) where
  all : List α
  name : α → String
  rule : FieldRule

namespace Named

variable {α : Type} [Named α]

def ofName? (text : String) : Option α := all.find? fun a => name a == text

def read (loc : Location) (text : String) : Check α :=
  match ofName? text with
  | some a => .ok a
  | none => Check.field loc (rule α)

def readValue (loc : Location) : Value → Check α
  | .string text => read loc text
  | _ => Check.field loc (rule α)

def toValue (a : α) : Value := .string (name a)

end Named

/-- How rare an item is. -/
inductive Rarity
  | rare1
  | rare2
  | rare3
deriving Repr, DecidableEq

instance : Named Rarity where
  all := [.rare1, .rare2, .rare3]
  name
    | .rare1 => "Rare1"
    | .rare2 => "Rare2"
    | .rare3 => "Rare3"
  rule := .rareLevel

end GameRoster
