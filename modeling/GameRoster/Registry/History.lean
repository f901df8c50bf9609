import GameRoster.Registry

namespace GameRoster

/-- A variable to define or a resource to register. -/
inductive Declaration
  | variable (id : String) (draft : VariableDraft)
  | resource (id : String) (draft : Draft)

namespace Declaration

def id : Declaration → String
  | .variable id _ => id
  | .resource id _ => id

end Declaration

/-- What a run of declarations leaves behind. -/
structure Run where
  registry : Registry
  outcome : Check Unit
  warnings : List Warning

namespace Run

/-- The registry of a run that did not fail. -/
def checked (run : Run) : Checked Registry :=
  ⟨run.outcome.map fun _ => run.registry, run.warnings⟩

end Run

namespace Registry

/-- A declaration that fails changes nothing. -/
def declare (reg : Registry) : Declaration → Checked Registry
  | .variable id draft => .ofCheck (reg.define id draft)
  | .resource id draft => reg.add id draft

def declareAll (reg : Registry) : List Declaration → Run
  | [] => ⟨reg, .ok (), []⟩
  | declaration :: rest =>
    let next := reg.declare declaration
    match next.result with
    | .error fault => ⟨reg, .error fault, next.warnings⟩
    | .ok grown =>
      let run := declareAll grown rest
      { run with warnings := next.warnings ++ run.warnings }

/-- Registries that come from the empty one by runs of declarations, whether these fail or not. -/
inductive Reachable : Registry → Prop
  | empty : Reachable Registry.empty
  | run {reg : Registry} (declarations : List Declaration) (before : Reachable reg) :
      Reachable (reg.declareAll declarations).registry

theorem declareAll_of_ok {reg grown : Registry} {declaration : Declaration}
    (h : (reg.declare declaration).result = .ok grown) (rest : List Declaration) :
    (reg.declareAll (declaration :: rest)).registry = (grown.declareAll rest).registry ∧
      (reg.declareAll (declaration :: rest)).outcome = (grown.declareAll rest).outcome := by
  simp [declareAll, h]

theorem declareAll_of_error {reg : Registry} {declaration : Declaration} {fault : Fault}
    (h : (reg.declare declaration).result = .error fault) (rest : List Declaration) :
    (reg.declareAll (declaration :: rest)).registry = reg ∧
      (reg.declareAll (declaration :: rest)).outcome = .error fault := by
  simp [declareAll, h]

end Registry

end GameRoster
