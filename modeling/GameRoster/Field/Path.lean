import GameRoster.Fault
import GameRoster.Text.Piece

namespace GameRoster.Path
open GameRoster.Text

def isSlash (c : Char) : Bool := c == '/' || c == '\\'

/-- What follows the last slash. -/
def baseName (path : List Char) : List Char :=
  (path.reverse.takeWhile fun c => !isSlash c).reverse

/-- The last point of the base name and what follows it. A point that the name opens with starts
no extension. -/
def extension (path : List Char) : List Char :=
  let base := baseName path
  let tail := (base.reverse.takeWhile fun c => c != '.').reverse
  if tail.length + 1 < base.length then '.' :: tail else []

/-- A path from a root or a drive. -/
def isAbsolute : List Char → Bool
  | [] => false
  | c :: rest => isSlash c || (c.isAlpha && rest.head? == some ':')

/-- Takes one segment onto the path read so far, whose segments are held last first. -/
def push (absolute : Bool) (parents : List (List Char)) (segment : List Char) :
    List (List Char) :=
  match segment with
  | [] => parents
  | ['.'] => parents
  | ['.', '.'] =>
    match parents with
    | [] => if absolute then [] else [['.', '.']]
    | parent :: others =>
      if parent == ['.', '.'] then
        if absolute then parent :: others else ['.', '.'] :: parent :: others
      else others
  | segment => segment :: parents

/-- The segments that are left when every `..` has been followed. -/
def segments (absolute : Bool) (path : List Char) : List (List Char) :=
  ((split '/' path).foldl (push absolute) []).reverse

def unifySlashes (path : List Char) : List Char := path.map fun c => if c == '\\' then '/' else c

/-- The canonical form of a path. -/
def normalize (path : List Char) : List Char :=
  let unified := unifySlashes path
  let absolute := unified.head? == some '/'
  let joined := join '/' (segments absolute unified)
  if absolute then '/' :: joined
  else if joined.isEmpty then ['.']
  else joined

end GameRoster.Path

namespace GameRoster

/-- What a path must look like; no extensions means any. -/
structure PathLimits where
  extensions : List String := []
  allowAbsolute : Bool := false
deriving Repr, DecidableEq

namespace Field

def path (limits : PathLimits) (loc : Location) (raw : String) : Check String :=
  let chars := raw.toList
  if !limits.extensions.isEmpty &&
      !limits.extensions.contains (String.ofList (Path.extension chars)) then
    Check.field loc (.extension limits.extensions)
  else if !limits.allowAbsolute && Path.isAbsolute chars then Check.field loc .relativePath
  else .ok (String.ofList (Path.normalize chars))

end Field

end GameRoster
