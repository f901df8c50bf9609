
namespace GameRoster

/-- What a location starts from. -/
inductive Root
  | label (text : String)
  | resource (id : String)
  | variable (id : String)
deriving Repr, DecidableEq

inductive Step
  | field (name : String)
  | index (i : Nat)
  | key (name : String)
deriving Repr, DecidableEq

structure Location where
  root : Root
  steps : List Step
deriving Repr, DecidableEq

namespace Root

def render : Root → String
  | .label text => text
  | .resource id => "<" ++ id ++ ">"
  | .variable id => "Var.define(" ++ id ++ ")"

end Root

namespace Step

def render : Step → String
  | .field name => "." ++ name
  | .index i => "[" ++ toString i ++ "]"
  | .key name => "[" ++ name ++ "]"

end Step

namespace Location

def label (text : String) : Location := ⟨.label text, []⟩

/-- A field of a resource. -/
def ofResource (id name : String) : Location := ⟨.resource id, [.field name]⟩

/-- The definition of a variable. -/
def ofVariable (id : String) : Location := ⟨.variable id, []⟩

def step (loc : Location) (s : Step) : Location := { loc with steps := loc.steps ++ [s] }

def field (loc : Location) (name : String) : Location := loc.step (.field name)

def index (loc : Location) (i : Nat) : Location := loc.step (.index i)

def key (loc : Location) (name : String) : Location := loc.step (.key name)

/-- The text of a location, as it opens an error message. -/
def render (loc : Location) : String :=
  loc.root.render ++ String.join (loc.steps.map Step.render)

end Location

end GameRoster
