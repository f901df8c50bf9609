import GameRoster.Document.Node
import GameRoster.Document.Shape

namespace GameRoster.Document

/-- How a text is written. Only JSON has no record notation of its own. -/
inductive Format
  | json
  | ron
deriving Repr, DecidableEq

/-- The fields of a record that are present. -/
abbrev Fields := List (String × Node)

/-- The declared fields among those written: none repeated, and each required one present. -/
def declaredFields? (declared : List (Declared Shape)) (written : Fields) : Option Fields :=
  let known := written.filter fun (name, _) => declared.any (·.name == name)
  let names := known.map (·.1)
  if names.eraseDups.length == names.length &&
      declared.all fun d => d.optional || names.contains d.name then
    some known
  else none

/-- Pairs items with the declared fields in order; the fields beyond the items must be optional. -/
def positionalFields? : List (Declared Shape) → List Node → Option Fields
  | declared, [] => if declared.all (·.optional) then some [] else none
  | [], _ :: _ => none
  | d :: declared, item :: items =>
    (positionalFields? declared items).map ((d.name, item) :: ·)

namespace Node

/-- The key of a record field or map entry. -/
def key? : Node → Option String
  | .text s => some s
  | _ => none

/-- The entries of a map; all keys are texts. -/
def textEntries? (entries : List (Node × Node)) : Option Fields :=
  entries.mapM fun (key, item) => (key? key).map fun name => (name, item)

/-- The name before a record, where one is written, is the name of its type. -/
def named (typeName : String) (written : Option String) : Bool :=
  written.isNone || written == some typeName

/-- The fields of a record, where a record is expected. -/
def record? (format : Format) : Shape → Node → Option Fields
  | .record typeName declared, node =>
    match format, node with
    | .json, .map entries => (textEntries? entries).bind (declaredFields? declared)
    | .json, .list items => positionalFields? declared items
    | .ron, .record name fields =>
      if named typeName name then declaredFields? declared fields else none
    | .ron, .tuple name [] => if named typeName name then declaredFields? declared [] else none
    | .ron, .unit => declaredFields? declared []
    | _, _ => none
  | _, _ => none

/-- A map from ids to what `item?` reads. A repeated key keeps its first place and takes the last
value. -/
def map? {α : Type} (item? : Node → Option α) : Node → Option (List (String × α))
  | .map entries => do
    let fields ← textEntries? entries
    let items ← fields.mapM fun (name, node) => (item? node).map fun item => (name, item)
    some (items.foldl insert [])
  | _ => none
where
  insert (entries : List (String × α)) (entry : String × α) : List (String × α) :=
    if entries.any (·.1 == entry.1) then
      entries.map fun old => if old.1 == entry.1 then entry else old
    else entries ++ [entry]

def text? : Node → Option String
  | .text s => some s
  | _ => none

def list? {α : Type} (item? : Node → Option α) : Node → Option (List α)
  | .list items => items.mapM item?
  | _ => none

def texts? : Node → Option (List String) := list? text?

/-- An option. JSON writes `null` for none, and what is there without a mark. -/
def option? {α : Type} (item? : Node → Option α) : Node → Option (Option α)
  | .null => some none
  | .absent => some none
  | .present inner => (item? inner).map some
  | node => (item? node).map some

end Node

namespace Fields

def get? {α : Type} (fields : Fields) (name : String) (item? : Node → Option α) : Option α :=
  (fields.lookup name).bind item?

/-- A field that is missing takes its default; one that is present must be read. -/
def getD? {α : Type} (fields : Fields) (name : String) (item? : Node → Option α) (default : α) :
    Option α :=
  match fields.lookup name with
  | some node => item? node
  | none => some default

def text? (fields : Fields) (name : String) : Option String := get? fields name Node.text?

def texts? (fields : Fields) (name : String) : Option (List String) := get? fields name Node.texts?

def value? (fields : Fields) (name : String) : Option Value := get? fields name Node.value?

/-- A value that may be missing, and then is `null`. -/
def valueOrNull? (fields : Fields) (name : String) : Option Value :=
  getD? fields name Node.value? .null

end Fields

end GameRoster.Document
