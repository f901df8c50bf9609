import GameRoster.Id.Family
import GameRoster.Text.Piece

namespace GameRoster.Id
open GameRoster.Text

def isSymbolChar (c : Char) : Bool := c.isAlphanum || c == '_' || c == '-'

/-- A symbol has one to sixty-four characters. -/
def isSymbol (text : List Char) : Bool :=
  !text.isEmpty && decide (text.length ≤ 64) && text.all isSymbolChar

/-- A mark is a digit or capital, two of them starting with a digit, or a capital and a digit. -/
def isMark : List Char → Bool
  | [c] => c.isDigit || c.isUpper
  | [c, d] => c.isDigit && (d.isDigit || d.isUpper) || c.isUpper && d.isDigit
  | _ => false

/-- What an id says after the tag of its family. -/
structure Parts where
  first : List Char
  others : List (List Char)
  mark : Option (List Char)
deriving Repr, DecidableEq

namespace Parts

def symbols (p : Parts) : List (List Char) := p.first :: p.others

/-- Whether the parts make up an id. -/
def isValid (p : Parts) : Bool :=
  (p.first == ['#'] || isSymbol p.first) && decide (p.others.length ≤ 2) && p.others.all isSymbol &&
    p.mark.all isMark

/-- The parts as an id says them. -/
def text (p : Parts) : List Char :=
  '.' :: join '.' p.symbols ++ match p.mark with
    | none => []
    | some mark => '^' :: mark

/-- Reads the parts after a tag; whether they are valid is another question. -/
def split? : List Char → Option Parts
  | '.' :: rest =>
    let mark := match rest.dropWhile fun c => c != '^' with
      | [] => none
      | _ :: mark => some mark
    match split '.' (rest.takeWhile fun c => c != '^') with
    | first :: others => some ⟨first, others, mark⟩
    | [] => none
  | _ => none

def read? (text : List Char) : Option Parts :=
  (split? text).bind fun p => if p.isValid then some p else none

end Parts

/-- Reads an id of a family. -/
def parts? (family : Family) (text : String) : Except Violation Parts :=
  match strip? family.tag.toList text.toList with
  | none => .error .tag
  | some rest =>
    match Parts.read? rest with
    | none => .error .pattern
    | some parts => .ok parts

/-- The symbols of an id of a family. -/
def symbols? (family : Family) (text : String) : Except Violation (List String) :=
  (parts? family text).map fun parts => parts.symbols.map String.ofList

end GameRoster.Id
