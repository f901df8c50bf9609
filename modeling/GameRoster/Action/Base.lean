import GameRoster.Field.Choice
import GameRoster.Variable.Setting

namespace GameRoster

namespace Level

/-- Anything may be entered. -/
def idle : Int := 0

/-- Moving, slightly above idle. -/
def move : Int := 50

/-- Cannot be interrupted. -/
def unbreakable : Int := 600

def limits : IntLimits := .between idle unbreakable

def read (loc : Location) (raw : Value) : Check Int := Field.int limits loc raw

/-- A level, or `default` when it is left out. -/
def readOr (default : Int) (loc : Location) (raw : Value) : Check Int :=
  Field.orElse default (read loc) raw

/-- A level that may depend on a variable. -/
def readSetting (loc : Location) (raw : Value) : Check (Setting Int) :=
  Setting.int {} limits loc raw

end Level

structure ActionBase where
  /-- Whether the action can be used. -/
  enabled : Setting Bool
  character : Ref .character
  styles : List (Ref .style)

namespace ActionBase

/-- An action is enabled unless its author says otherwise. -/
def read (id : String) (enabled : Value) (character : String) (styles : List String) :
    Check ActionBase := do
  let loc := Location.ofResource id
  let enabled ← Field.orElse (.fixed true) (Setting.bool {} (loc "enabled")) enabled
  let character ← Ref.ofText .character (loc "character") character
  let styles ← Ref.distinct .style (loc "styles") styles
  return { enabled, character, styles }

def fields (base : ActionBase) : List (String × Option Value) :=
  [("enabled", some (base.enabled.toValue .bool)),
   ("character", some (.string base.character.text)),
   ("styles", some (.strings (base.styles.map Ref.text)))]

end ActionBase

/-- Actions that may be inserted without cancelling pending derives. -/
inductive DeriveContinue
  | dodge
  | perfectDodge
  | guard
  | perfectGuard
deriving Repr, DecidableEq

instance : Named DeriveContinue where
  all := [.dodge, .perfectDodge, .guard, .perfectGuard]
  name
    | .dodge => "Dodge"
    | .perfectDodge => "PerfectDodge"
    | .guard => "Guard"
    | .perfectGuard => "PerfectGuard"
  rule := .deriveContinue

namespace DeriveContinue

def readSet (lengths : Lengths) (loc : Location) (raw : Value) : Check (List DeriveContinue) :=
  Field.listOf lengths Named.readValue loc raw

/-- A set that may depend on a variable. -/
def readSetting (loc : Location) (raw : Value) : Check (Setting (List DeriveContinue)) :=
  Setting.read {} (readSet {}) (fun lengths => Field.listOf lengths (readSet {})) loc raw

def setValue (set : List DeriveContinue) : Value := .array (set.map Named.toValue)

end DeriveContinue

end GameRoster
