import GameRoster.Variable.Setting

namespace GameRoster

structure PhaseAttributes where
  damageReduction : Setting Float
  shieldDamageReduction : Setting Float
  poiseLevel : Setting Int

namespace PhaseAttributes

/-- Nothing is held off. -/
def zero : PhaseAttributes := ⟨.fixed 0, .fixed 0, .fixed 0⟩

/-- A field that is neither missing nor left out. -/
def given? (raw : Value) (name : String) : Option Value :=
  (raw.field? name).bind Field.present?

/-- Reads a field that is zero unless it is given. -/
def readFloat (loc : Location) (raw : Value) (name : String) : Check (Setting Float) :=
  match given? raw name with
  | some value => Setting.float {} {} (loc.field name) value
  | none => .ok (.fixed 0)

/-- Poise levels go from zero to four. -/
def readPoise (loc : Location) (raw : Value) : Check (Setting Int) :=
  match given? raw "poise_level" with
  | some value => Setting.int {} (.between 0 4) (loc.field "poise_level") value
  | none => .ok (.fixed 0)

/-- Reads an object; what else it holds is ignored. -/
def read (loc : Location) (raw : Value) : Check PhaseAttributes := do
  let _ ← Field.object loc raw
  return {
    damageReduction := ← readFloat loc raw "damage_rdc"
    shieldDamageReduction := ← readFloat loc raw "shield_dmg_rdc"
    poiseLevel := ← readPoise loc raw }

def toValue (a : PhaseAttributes) : Value :=
  .object [
    ("damage_rdc", a.damageReduction.toValue .float),
    ("shield_dmg_rdc", a.shieldDamageReduction.toValue .float),
    ("poise_level", a.poiseLevel.toValue .int)]

end PhaseAttributes

end GameRoster
