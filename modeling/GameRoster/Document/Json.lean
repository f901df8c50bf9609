import GameRoster.Document.Node
import GameRoster.Numeric.Literal
import GameRoster.Text.Piece

namespace GameRoster.Document.Json
open GameRoster.Text

/-- How many arrays and objects may stand inside one another. -/
def maxDepth : Nat := 127

def isSpace (c : Char) : Bool := c == ' ' || c == '\t' || c == '\n' || c == '\r'

def skipSpace (text : List Char) : List Char := text.dropWhile isSpace

def hexValue? (c : Char) : Option Nat :=
  if '0' ≤ c ∧ c ≤ '9' then some (c.toNat - 0x30)
  else if 'a' ≤ c ∧ c ≤ 'f' then some (c.toNat - 0x61 + 10)
  else if 'A' ≤ c ∧ c ≤ 'F' then some (c.toNat - 0x41 + 10)
  else none

/-- The character that a one letter escape stands for. -/
def shortEscape? : Char → Option Char
  | '"' => some '"'
  | '\\' => some '\\'
  | '/' => some '/'
  | 'b' => some '\x08'
  | 'f' => some '\x0c'
  | 'n' => some '\n'
  | 'r' => some '\r'
  | 't' => some '\t'
  | _ => none

/-- Reads up to the closing quote. Each escape is one unit, so a surrogate pair is two. -/
def units? : List Char → Option (List Nat × List Char)
  | '"' :: rest => some ([], rest)
  | '\\' :: 'u' :: a :: b :: c :: d :: rest => do
    let unit := (((← hexValue? a) * 16 + (← hexValue? b)) * 16 + (← hexValue? c)) * 16
      + (← hexValue? d)
    let (units, rest) ← units? rest
    some (unit :: units, rest)
  | '\\' :: c :: rest => do
    let char ← shortEscape? c
    let (units, rest) ← units? rest
    some (char.toNat :: units, rest)
  | c :: rest =>
    if c.toNat < 0x20 || c == '\\' then none
    else do
      let (units, rest) ← units? rest
      some (c.toNat :: units, rest)
  | [] => none

def isHighSurrogate (n : Nat) : Bool := 0xD800 ≤ n && n < 0xDC00

def isLowSurrogate (n : Nat) : Bool := 0xDC00 ≤ n && n < 0xE000

/-- Joins surrogate pairs; half a pair has no character. -/
def ofUnits? : List Nat → Option (List Char)
  | [] => some []
  | [n] => if isHighSurrogate n || isLowSurrogate n then none else some [Char.ofNat n]
  | n :: m :: rest =>
    if isHighSurrogate n then
      if isLowSurrogate m then
        (ofUnits? rest).map (Char.ofNat (0x10000 + (n - 0xD800) * 0x400 + (m - 0xDC00)) :: ·)
      else none
    else if isLowSurrogate n then none
    else (ofUnits? (m :: rest)).map (Char.ofNat n :: ·)

/-- A text whose opening quote has been read. -/
def string? (text : List Char) : Option (Node × List Char) := do
  let (units, rest) ← units? text
  match ofUnits? units with
  | some chars => some (.text (String.ofList chars), rest)
  | none => some (.unreadable, rest)

/-- The digits of a whole part: a lone zero, or a run that does not start with one. -/
def wholeDigits? (text : List Char) : Option (List Char × List Char) :=
  match text with
  | '0' :: rest => if (rest.head?.map isDigit).getD false then none else some (['0'], rest)
  | _ =>
    let digits := text.takeWhile isDigit
    if digits.isEmpty then none else some (digits, text.dropWhile isDigit)

/-- A fraction or exponent needs at least one digit. -/
def digits? (text : List Char) : Option (List Char × List Char) :=
  let digits := text.takeWhile isDigit
  if digits.isEmpty then none else some (digits, text.dropWhile isDigit)

def fraction? : List Char → Option (List Char × List Char)
  | '.' :: rest => digits? rest
  | rest => some ([], rest)

/-- The exponent, if one is written. -/
def exponent? (text : List Char) : Option (Option Int × List Char) :=
  match text with
  | c :: rest =>
    if c == 'e' || c == 'E' then do
      let (minus, rest) := Numeric.takeSign rest
      let (digits, rest) ← digits? rest
      let n : Int := digitsValue digits
      some (some (if minus then -n else n), rest)
    else some (none, text)
  | [] => some (none, [])

/-- A whole number is kept exact when it fits in sixty-four bits; anything else is a double. -/
def numberNode (minus : Bool) (whole fraction : List Char) (exponent : Option Int) : Node :=
  let n := digitsValue whole
  let isWhole := fraction.isEmpty && exponent.isNone
  if isWhole && !minus && n ≤ Numeric.unsignedMax then .number (.int n)
  else if isWhole && minus && 0 < n && Numeric.wordMin ≤ -(n : Int) then .number (.int (-(n : Int)))
  else
    let magnitude := Numeric.scaled (whole ++ fraction) (exponent.getD 0 - fraction.length)
    let x := if minus then -magnitude else magnitude
    if finite : x.isFinite = true then .number (.float x finite) else .unreadable

def number? (text : List Char) : Option (Node × List Char) := do
  let (minus, text) := match text with
    | '-' :: rest => (true, rest)
    | rest => (false, rest)
  let (whole, text) ← wholeDigits? text
  let (fraction, text) ← fraction? text
  let (exponent, text) ← exponent? text
  some (numberNode minus whole fraction exponent, text)

/-- A container that stands too deep has no meaning. -/
def atDepth (depth : Nat) (node : Node) : Node := if depth < maxDepth then node else .unreadable

mutual

/-- One value at `depth`; every step spends one unit of fuel and at least one character. -/
def node? : Nat → Nat → List Char → Option (Node × List Char)
  | 0, _, _ => none
  | fuel + 1, depth, text =>
    match skipSpace text with
    | '"' :: rest => string? rest
    | '[' :: rest =>
      match skipSpace rest with
      | ']' :: rest => some (atDepth depth (.list []), rest)
      | rest => do
        let (items, rest) ← items? fuel (depth + 1) rest
        some (atDepth depth (.list items), rest)
    | '\x7b' :: rest =>
      match skipSpace rest with
      | '\x7d' :: rest => some (atDepth depth (.map []), rest)
      | rest => do
        let (entries, rest) ← entries? fuel (depth + 1) rest
        some (atDepth depth (.map entries), rest)
    | 't' :: rest => (strip? ['r', 'u', 'e'] rest).map fun rest => (.bool true, rest)
    | 'f' :: rest => (strip? ['a', 'l', 's', 'e'] rest).map fun rest => (.bool false, rest)
    | 'n' :: rest => (strip? ['u', 'l', 'l'] rest).map fun rest => (.null, rest)
    | rest => number? rest

/-- The items of an array and its closing bracket. -/
def items? : Nat → Nat → List Char → Option (List Node × List Char)
  | 0, _, _ => none
  | fuel + 1, depth, text => do
    let (item, rest) ← node? fuel depth text
    match skipSpace rest with
    | ',' :: rest => do
      let (items, rest) ← items? fuel depth rest
      some (item :: items, rest)
    | ']' :: rest => some ([item], rest)
    | _ => none

/-- The entries of an object and its closing brace. -/
def entries? : Nat → Nat → List Char → Option (List (Node × Node) × List Char)
  | 0, _, _ => none
  | fuel + 1, depth, text =>
    match skipSpace text with
    | '"' :: rest => do
      let (key, rest) ← string? rest
      let rest ← strip? [':'] (skipSpace rest)
      let (item, rest) ← node? fuel depth rest
      match skipSpace rest with
      | ',' :: rest => do
        let (entries, rest) ← entries? fuel depth rest
        some ((key, item) :: entries, rest)
      | '\x7d' :: rest => some ([(key, item)], rest)
      | _ => none
    | _ => none

end

/-- Parses a whole text as one document. -/
def parse? (text : String) : Option Node :=
  let chars := text.toList
  match node? (2 * chars.length + 1) 0 chars with
  | some (node, rest) => if (skipSpace rest).isEmpty then some node else none
  | none => none

end GameRoster.Document.Json
