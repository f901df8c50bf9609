import GameRoster.Value

namespace GameRoster.Document

/-- Entries are kept as written: repeated keys are not merged here. -/
inductive Node
  | null
  | bool (b : Bool)
  | number (n : Number)
  | text (s : String)
  | character (c : Char)
  | list (items : List Node)
  | map (entries : List (Node × Node))
  /-- Values in round brackets, with the name before them. -/
  | tuple (name : Option String) (items : List Node)
  /-- Named fields in round brackets, with the name before them. -/
  | record (name : Option String) (fields : List (String × Node))
  /-- Empty round brackets. -/
  | unit
  /-- A bare word. -/
  | word (name : String)
  | absent
  | present (inner : Node)
  /-- Well formed, but without meaning: a number out of range, a text that holds half of a
  surrogate pair, a nesting that is too deep. It may only stand where nothing reads it. -/
  | unreadable

namespace Node

instance : Inhabited Node := ⟨.null⟩

mutual

/-- Reads a node as a value. Map keys are texts, and named fields are no value. -/
def value? : Node → Option Value
  | .null => some .null
  | .bool b => some (.bool b)
  | .number n => some (.number n)
  | .text s => some (.string s)
  | .character c => some (.string (String.singleton c))
  | .list items => (values? items).map .array
  | .map entries => (entries? entries).map Value.ofEntries
  | .tuple _ items => (values? items).map .array
  | .record _ _ => none
  | .unit => some .null
  | .word _ => some .null
  | .absent => some .null
  | .present inner => value? inner
  | .unreadable => none

def values? : List Node → Option (List Value)
  | [] => some []
  | item :: rest => do
    let first ← value? item
    let others ← values? rest
    some (first :: others)

def entries? : List (Node × Node) → Option (List (String × Value))
  | [] => some []
  | (.text key, item) :: rest => do
    let first ← value? item
    let others ← entries? rest
    some ((key, first) :: others)
  | _ :: _ => none

end

mutual

/-- A value as a document says it. -/
def ofValue : Value → Node
  | .null => .null
  | .bool b => .bool b
  | .number n => .number n
  | .string s => .text s
  | .array items => .list (ofValues items)
  | .object fields => .map (ofFields fields)

def ofValues : List Value → List Node
  | [] => []
  | item :: rest => ofValue item :: ofValues rest

def ofFields : List (String × Value) → List (Node × Node)
  | [] => []
  | (name, item) :: rest => (.text name, ofValue item) :: ofFields rest

end

end Node

end GameRoster.Document
