import GameRoster.Document.Json
import GameRoster.Document.Shape

namespace GameRoster.Document.Ron
open GameRoster.Text
open GameRoster.Document.Json (hexValue?)

/-- How deep a part of a document may lie. -/
def maxDepth : Nat := 128

def isSpace (c : Char) : Bool := c == ' ' || c == '\t' || c == '\n' || c == '\r'

/-- Where a scan over white space and comments stands. Block comments nest. -/
inductive Gap
  | between
  | line
  | block (outer : Nat)

def skipFrom : Gap → List Char → Option (List Char)
  | .between, '/' :: '/' :: rest => skipFrom .line rest
  | .between, '/' :: '*' :: rest => skipFrom (.block 0) rest
  | .between, '/' :: _ => none
  | .between, c :: rest => if isSpace c then skipFrom .between rest else some (c :: rest)
  | .between, [] => some []
  | .line, '\n' :: rest => skipFrom .between rest
  | .line, _ :: rest => skipFrom .line rest
  | .line, [] => some []
  | .block outer, '/' :: '*' :: rest => skipFrom (.block (outer + 1)) rest
  | .block 0, '*' :: '/' :: rest => skipFrom .between rest
  | .block (outer + 1), '*' :: '/' :: rest => skipFrom (.block outer) rest
  | .block outer, _ :: rest => skipFrom (.block outer) rest
  | .block _, [] => none

/-- Skips white space and comments; a comment that does not end is an error. -/
def skip? (text : List Char) : Option (List Char) := skipFrom .between text

/-- Skips a gap, then a comma if there is one and the gap after it. -/
def comma? (text : List Char) : Option (Bool × List Char) := do
  match ← skip? text with
  | ',' :: rest => some (true, ← skip? rest)
  | rest => some (false, rest)

def isWordStart (c : Char) : Bool := c.isAlpha || c == '_'

def isWordChar (c : Char) : Bool := c.isAlphanum || c == '_'

/-- A raw word may hold points and signs. -/
def isRawWordChar (c : Char) : Bool := isWordChar c || c == '.' || c == '+' || c == '-'

/-- The word characters at the front of a text. -/
def leadingWord (text : List Char) : String × List Char :=
  (String.ofList (text.takeWhile isWordChar), text.dropWhile isWordChar)

/-- A name, plain or raw (`r#name`). The start of a raw text is no name, and neither is a plain
name that a raw one would extend. -/
def name? (text : List Char) : Option (String × List Char) :=
  match text with
  | 'r' :: '"' :: _ => none
  | 'r' :: '#' :: rest =>
    let name := rest.takeWhile isRawWordChar
    if name.isEmpty then none else some (String.ofList name, rest.dropWhile isRawWordChar)
  | ['r'] => none
  | c :: _ =>
    let (name, rest) := leadingWord text
    if isWordStart c && !(rest.head?.map isRawWordChar).getD false then some (name, rest) else none
  | [] => none

/-- The character after `\u{`, written with one to six hexadecimal digits. -/
def codePoint? (text : List Char) : Option (Char × List Char) := do
  let digits := text.takeWhile fun c => c != '\x7d'
  let values ← digits.mapM hexValue?
  let n := values.foldl (fun n v => 16 * n + v) 0
  if values.isEmpty || 6 < values.length || !decide (n.isValidChar) then none
  some (Char.ofNat n, ← strip? ['\x7d'] (text.dropWhile fun c => c != '\x7d'))

/-- What a backslash and the text after it stand for. -/
def escape? : List Char → Option (Char × List Char)
  | '\'' :: rest => some ('\'', rest)
  | '"' :: rest => some ('"', rest)
  | '\\' :: rest => some ('\\', rest)
  | 'n' :: rest => some ('\n', rest)
  | 'r' :: rest => some ('\r', rest)
  | 't' :: rest => some ('\t', rest)
  | '0' :: rest => some ('\x00', rest)
  | 'x' :: a :: b :: rest => do
    some (Char.ofNat ((← hexValue? a) * 16 + (← hexValue? b)), rest)
  | 'u' :: '\x7b' :: rest => codePoint? rest
  | _ => none

/-- Reads up to the closing quote; each step consumes at least one character. -/
def stringFrom : Nat → List Char → Option (List Char × List Char)
  | 0, _ => none
  | fuel + 1, text =>
    match text with
    | '"' :: rest => some ([], rest)
    | '\\' :: rest => do
      let (c, rest) ← escape? rest
      let (chars, rest) ← stringFrom fuel rest
      some (c :: chars, rest)
    | c :: rest => do
      let (chars, rest) ← stringFrom fuel rest
      some (c :: chars, rest)
    | [] => none

/-- Reads up to a quote that `hashes` hash marks follow. -/
def rawStringFrom (hashes : Nat) : List Char → Option (List Char × List Char)
  | [] => none
  | c :: rest =>
    if c == '"' && rest.take hashes == List.replicate hashes '#' then some ([], rest.drop hashes)
    else do
      let (chars, rest) ← rawStringFrom hashes rest
      some (c :: chars, rest)

/-- A text in quotes, or a raw text between quotes with the same number of hash marks. -/
def string? : List Char → Option (String × List Char)
  | '"' :: rest => do
    let (chars, rest) ← stringFrom (rest.length + 1) rest
    some (String.ofList chars, rest)
  | 'r' :: rest => do
    let hashes := (rest.takeWhile fun c => c == '#').length
    let rest ← strip? ['"'] (rest.drop hashes)
    let (chars, rest) ← rawStringFrom hashes rest
    some (String.ofList chars, rest)
  | _ => none

/-- One character between single quotes. -/
def character? : List Char → Option (Char × List Char)
  | '\\' :: rest => do
    let (c, rest) ← escape? rest
    some (c, ← strip? ['\''] rest)
  | c :: '\'' :: rest => if c == '\'' then none else some (c, rest)
  | _ => none

def isFloatChar (c : Char) : Bool :=
  isDigit c || c == 'e' || c == 'E' || c == '.' || c == '+' || c == '-' || c == '_'

def isIntChar (c : Char) : Bool := (hexValue? c).isSome || c == '_'

/-- A run of float characters, read as a double. Underscores are refused, and a value without
digits is no number. -/
def float? (text : List Char) : Option (Node × List Char) := do
  let run := text.takeWhile isFloatChar
  if run.contains '_' then none
  let x ← Numeric.literal? run
  let node := if finite : x.isFinite = true then .number (.float x finite) else .null
  some (node, text.dropWhile isFloatChar)

/-- The base of an integer and its digits. -/
def takeBase : List Char → Nat × List Char
  | '0' :: 'x' :: rest => (16, rest)
  | '0' :: 'b' :: rest => (2, rest)
  | '0' :: 'o' :: rest => (8, rest)
  | rest => (10, rest)

/-- Digits of a base, with underscores between them. -/
def magnitude? (base : Nat) (run : List Char) : Option Nat := do
  if run.isEmpty || run.head? == some '_' then none
  let values ← (run.filter (· != '_')).mapM hexValue?
  if values.all (· < base) then some (values.foldl (fun n v => base * n + v) 0) else none

/-- An integer that fits in sixty-four bits; one with a sign must fit as a signed number. -/
def integer? (text : List Char) : Option (Node × List Char) := do
  let (minus, body) := Numeric.takeSign text
  let signed := body.length < text.length
  let (base, body) := takeBase body
  let n ← magnitude? base (body.takeWhile isIntChar)
  let fits := if minus then Numeric.wordMin ≤ -(n : Int)
    else if signed then (n : Int) ≤ Numeric.wordMax else n ≤ Numeric.unsignedMax
  if fits then
    some (.number (.int (if minus then -(n : Int) else n)), body.dropWhile isIntChar)
  else none

/-- What stands after the sign of a number that has no digits. -/
def isDigitless (word : String) : Bool := word == "inf" || word == "NaN"

/-- A number is a float when more float characters than integer characters follow its sign, or
when it cannot be read as an integer. -/
def number? (text : List Char) : Option (Node × List Char) :=
  let body := (Numeric.takeSign text).2
  let (word, rest) := leadingWord body
  if isDigitless word then some (.null, rest)
  else if (body.takeWhile isIntChar).length < (body.takeWhile isFloatChar).length then float? text
  else (integer? text).or (float? text)

/-- Whether what follows an opening round bracket is a named field. -/
def startsField (text : List Char) : Bool :=
  match name? text with
  | none => false
  | some (_, rest) =>
    match skip? rest with
    | some (':' :: _) => true
    | _ => false

section Parts

variable (bare : Bool)

mutual

/-- One value of a shape, in which parts may lie `levels` deep; every step spends one unit of
fuel. -/
def node? : Nat → Nat → Shape → List Char → Option (Node × List Char)
  | 0, _, _, _ => none
  | fuel + 1, levels, .option item, text => option? fuel levels item text
  | fuel + 1, levels, shape, text =>
    match text with
    | '(' :: ')' :: rest => some (.unit, rest)
    | '(' :: rest => rounds? fuel levels shape none rest
    | '[' :: rest => do
      let (items, rest) ← items? fuel levels shape.item ']' true (← skip? rest)
      some (.list items, rest)
    | '\x7b' :: rest => do
      let (entries, rest) ← entries? fuel levels shape.item true (← skip? rest)
      some (.map entries, rest)
    | '\'' :: rest => do
      let (c, rest) ← character? rest
      some (.character c, rest)
    | c :: _ =>
      match leadingWord text with
      | ("true", rest) => some (.bool true, rest)
      | ("false", rest) => some (.bool false, rest)
      | ("None", rest) => some (.absent, rest)
      | ("Some", rest) => present? fuel levels .value rest
      | (word, rest) =>
        if isDigitless word then some (.null, rest)
        else match name? text with
        | some (name, rest) => do
          match ← skip? rest with
          | '(' :: rest => rounds? fuel levels shape (some name) rest
          | rest => some (.word name, rest)
        | none =>
          if c == '"' || c == 'r' then do
            let (s, rest) ← string? text
            some (.text s, rest)
          else if c == '.' then float? text
          else if isDigit c || c == '+' || c == '-' then number? text
          else none
    | [] => none

/-- A part of a value lies one level deeper than the value. -/
def part? : Nat → Nat → Shape → List Char → Option (Node × List Char)
  | fuel + 1, levels + 1, shape, text => node? fuel levels shape text
  | _, _, _, _ => none

/-- An option, where one is expected. -/
def option? : Nat → Nat → Shape → List Char → Option (Node × List Char)
  | 0, _, _, _ => none
  | fuel + 1, levels, item, text =>
    match strip? "None".toList text, strip? "Some".toList text with
    | some rest, _ => some (.absent, rest)
    | none, some rest => present? fuel levels item rest
    | none, none => unmarked? fuel levels item text

/-- What follows `Some`. -/
def present? : Nat → Nat → Shape → List Char → Option (Node × List Char)
  | 0, _, _, _ => none
  | fuel + 1, levels, item, text => do
    match ← skip? text with
    | '(' :: rest => do
      let (inner, rest) ← part? fuel levels item (← skip? rest)
      let (_, rest) ← comma? rest
      some (.present inner, ← strip? [')'] rest)
    | rest => unmarked? fuel levels item rest

/-- What is there without a mark. -/
def unmarked? : Nat → Nat → Shape → List Char → Option (Node × List Char)
  | 0, _, _, _ => none
  | fuel + 1, levels, item, text =>
    if bare then do
      let (inner, rest) ← part? fuel levels item text
      some (.present inner, rest)
    else none

/-- What follows an opening round bracket: named fields, or the parts of a tuple. -/
def rounds? : Nat → Nat → Shape → Option String → List Char → Option (Node × List Char)
  | 0, _, _, _, _ => none
  | fuel + 1, levels, shape, name, text => do
    let text ← skip? text
    if startsField text then do
      let (fields, rest) ← fields? fuel levels shape true text
      some (.record name fields, rest)
    else do
      let (items, rest) ← items? fuel levels .value ')' true text
      some (.tuple name items, rest)

/-- Items up to a closing bracket. An item must follow the opening bracket or a comma. -/
def items? : Nat → Nat → Shape → Char → Bool → List Char → Option (List Node × List Char)
  | 0, _, _, _, _, _ => none
  | fuel + 1, levels, shape, close, afterComma, text =>
    match text with
    | [] => none
    | c :: rest =>
      if c == close then some ([], rest)
      else if !afterComma then none
      else do
        let (item, rest) ← part? fuel levels shape text
        let (comma, rest) ← comma? rest
        let (items, rest) ← items? fuel levels shape close comma rest
        some (item :: items, rest)

/-- Entries up to a closing brace. -/
def entries? : Nat → Nat → Shape → Bool → List Char → Option (List (Node × Node) × List Char)
  | 0, _, _, _, _ => none
  | fuel + 1, levels, shape, afterComma, text =>
    match text with
    | [] => none
    | c :: rest =>
      if c == '\x7d' then some ([], rest)
      else if !afterComma then none
      else do
        let (key, rest) ← part? fuel levels .value text
        let rest ← strip? [':'] (← skip? rest)
        let (item, rest) ← part? fuel levels shape (← skip? rest)
        let (comma, rest) ← comma? rest
        let (entries, rest) ← entries? fuel levels shape comma rest
        some ((key, item) :: entries, rest)

/-- Named fields up to a closing round bracket. -/
def fields? : Nat → Nat → Shape → Bool → List Char → Option (List (String × Node) × List Char)
  | 0, _, _, _, _ => none
  | fuel + 1, levels, shape, afterComma, text =>
    match text with
    | [] => none
    | c :: rest =>
      if c == ')' then some ([], rest)
      else if !afterComma then none
      else do
        let (name, rest) ← name? text
        let rest ← strip? [':'] (← skip? rest)
        let (item, rest) ← part? fuel levels (shape.field name) (← skip? rest)
        let (comma, rest) ← comma? rest
        let (fields, rest) ← fields? fuel levels shape comma rest
        some ((name, item) :: fields, rest)

end

end Parts

/-- The names of extensions up to the end of an attribute. -/
def extensions? : Nat → List Char → Option (List String × List Char)
  | 0, _ => none
  | fuel + 1, text => do
    let (name, rest) ← name? text
    if name != "implicit_some" && name != "unwrap_newtypes" && name != "unwrap_variant_newtypes"
    then none
    let (comma, rest) ← comma? rest
    let more := (rest.head?.map isWordChar).getD false
    match comma, more with
    | false, true => none
    | true, true => do
      let (names, rest) ← extensions? fuel rest
      some (name :: names, rest)
    | _, false => some ([name], rest)

/-- Consumes tokens with gaps between and after them. -/
def tokens? : List (List Char) → List Char → Option (List Char)
  | [], text => some text
  | token :: tokens, text => do tokens? tokens (← skip? (← strip? token text))

/-- The attributes at the start of a text: every extension they enable. -/
def attributes? : Nat → List Char → Option (List String × List Char)
  | 0, _ => none
  | fuel + 1, text => do
    match ← skip? text with
    | '#' :: rest => do
      let rest ← tokens? [['!'], ['['], ['e', 'n', 'a', 'b', 'l', 'e'], ['(']] (← skip? rest)
      let (names, rest) ← extensions? rest.length rest
      let rest ← tokens? [[')'], [']']] (← skip? rest)
      let (others, rest) ← attributes? fuel rest
      some (names ++ others, rest)
    | rest => some ([], rest)

/-- Parses a whole text as one document of a shape. -/
def parse? (shape : Shape) (text : String) : Option Node := do
  let chars := text.toList
  let (extensions, rest) ← attributes? (chars.length + 1) chars
  let bare := extensions.contains "implicit_some"
  let (root, rest) ← node? bare (8 * chars.length + 8) maxDepth shape rest
  if (← skip? rest).isEmpty then some root else none

end GameRoster.Document.Ron
