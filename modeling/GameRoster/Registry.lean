import GameRoster.Resource
import GameRoster.Variable.Definition

namespace GameRoster

structure Registry where
  resources : List Resource
  symbols : List String
  definitions : List Variable

/-- Puts a symbol into an ascending list, unless it is there. Symbols are compared character by
character. -/
def insertSymbol (text : String) : List String → List String
  | [] => [text]
  | first :: rest =>
    if text < first then text :: first :: rest
    else if text = first then first :: rest
    else first :: insertSymbol text rest

namespace Registry

def empty : Registry := ⟨[], [], []⟩

def find? (reg : Registry) (id : String) : Option Resource :=
  reg.resources.find? fun r => r.id == id

def definition? (reg : Registry) (id : String) : Option Variable :=
  reg.definitions.find? fun v => v.id.text == id

/-- The resource with an id, for a reference that stands at `loc`. -/
def find (reg : Registry) (loc : Location) (id : String) : Check Resource :=
  match reg.find? id with
  | some r => .ok r
  | none => .error (.notFound loc id)

/-- The resource with an id, seen as what the reference asks for. -/
def findAs {α : Type} (reg : Registry) (expected : Expected) (view : Resource → Option α)
    (loc : Location) (id : String) : Check α := do
  let r ← reg.find loc id
  match view r with
  | some a => return a
  | none => .error (.typeMismatch loc id expected)

def findCharacter (reg : Registry) : Location → String → Check Character :=
  reg.findAs (.kind .character) Resource.character?

def findStyle (reg : Registry) : Location → String → Check Style :=
  reg.findAs (.kind .style) Resource.style?

def findEquipment (reg : Registry) : Location → String → Check Equipment :=
  reg.findAs (.kind .equipment) Resource.equipment?

def findEntry (reg : Registry) : Location → String → Check Entry :=
  reg.findAs (.kind .entry) Resource.entry?

def findPerk (reg : Registry) : Location → String → Check Perk :=
  reg.findAs (.kind .perk) Resource.perk?

def findAccessoryPool (reg : Registry) : Location → String → Check AccessoryPool :=
  reg.findAs (.kind .accessoryPool) Resource.accessoryPool?

/-- An action of any kind. -/
def findAction (reg : Registry) : Location → String → Check ActionBase :=
  reg.findAs .action Resource.actionBase?

/-- A resource of a given kind. -/
def findKind (reg : Registry) (kind : Kind) : Location → String → Check Resource :=
  reg.findAs (.kind kind) fun r => if r.kind = kind then some r else none

def findVariable (reg : Registry) (loc : Location) (id : String) : Check Variable :=
  match reg.definition? id with
  | some v => .ok v
  | none => .error (.variable loc (.undefined id))

/-- The registry with one more resource and the symbols of its id. -/
def push (reg : Registry) (r : Resource) (symbols : List String) : Registry :=
  { reg with
    resources := reg.resources ++ [r]
    symbols := symbols.foldl (fun all text => insertSymbol text all) reg.symbols }

/-- Registers a resource: its id must fit its kind and be free, and its fields must be right. -/
def add (reg : Registry) (id : String) (draft : Draft) : Checked Registry := do
  let loc := Location.ofResource id "id"
  let family := draft.kind.family
  match Id.symbols? family id with
  | .error violation => Checked.fail (.invalidId loc family violation)
  | .ok symbols =>
    match reg.find? id with
    | some _ => Checked.fail (.duplicateId id)
    | none => return reg.push (← draft.build id) symbols

/-- Defines a variable whose id must be free. -/
def define (reg : Registry) (id : String) (draft : VariableDraft) : Check Registry :=
  match reg.definition? id with
  | some _ => .error (.variable (.ofVariable id) .redefined)
  | none => do
    let v ← Variable.ofDraft id draft
    return { reg with definitions := reg.definitions ++ [v] }

end Registry

end GameRoster
