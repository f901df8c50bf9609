import GameRoster.Field.Choice
import GameRoster.Field.Sequence
import GameRoster.Plane
import GameRoster.Text.DecimalDigit

namespace GameRoster

/-- A logical input, which the runtime maps from devices. -/
inductive VirtualKey
  | move
  | view
  | dodge
  | jump
  | guard
  | interact
  | lock
  | attack1
  | attack2
  | attack3
  | attack4
  | attack5
  | attack6
  | attack7
  | spell
  | shot1
  | shot2
  | aim
  | switch
  | skill1
  | skill2
  | skill3
  | skill4
  | skill5
  | skill6
  | skill7
  | skill8
  | derive1
  | derive2
  | derive3
  | justAttack1
  | justAttack2
  | justSpell
  | justShot1
  | justSwitch
  | justDerive1
  | justDerive2
  | justDerive3
  | item1
  | item2
  | item3
  | item4
  | item5
  | item6
  | item7
  | item8
  | idle
  | walk
  | run
  | dash
  | break1
  | break2
  | break3
deriving Repr, DecidableEq

namespace VirtualKey

def name : VirtualKey → String
  | .move => "Move"
  | .view => "View"
  | .dodge => "Dodge"
  | .jump => "Jump"
  | .guard => "Guard"
  | .interact => "Interact"
  | .lock => "Lock"
  | .attack1 => "Attack1"
  | .attack2 => "Attack2"
  | .attack3 => "Attack3"
  | .attack4 => "Attack4"
  | .attack5 => "Attack5"
  | .attack6 => "Attack6"
  | .attack7 => "Attack7"
  | .spell => "Spell"
  | .shot1 => "Shot1"
  | .shot2 => "Shot2"
  | .aim => "Aim"
  | .switch => "Switch"
  | .skill1 => "Skill1"
  | .skill2 => "Skill2"
  | .skill3 => "Skill3"
  | .skill4 => "Skill4"
  | .skill5 => "Skill5"
  | .skill6 => "Skill6"
  | .skill7 => "Skill7"
  | .skill8 => "Skill8"
  | .derive1 => "Derive1"
  | .derive2 => "Derive2"
  | .derive3 => "Derive3"
  | .justAttack1 => "JustAttack1"
  | .justAttack2 => "JustAttack2"
  | .justSpell => "JustSpell"
  | .justShot1 => "JustShot1"
  | .justSwitch => "JustSwitch"
  | .justDerive1 => "JustDerive1"
  | .justDerive2 => "JustDerive2"
  | .justDerive3 => "JustDerive3"
  | .item1 => "Item1"
  | .item2 => "Item2"
  | .item3 => "Item3"
  | .item4 => "Item4"
  | .item5 => "Item5"
  | .item6 => "Item6"
  | .item7 => "Item7"
  | .item8 => "Item8"
  | .idle => "Idle"
  | .walk => "Walk"
  | .run => "Run"
  | .dash => "Dash"
  | .break1 => "Break1"
  | .break2 => "Break2"
  | .break3 => "Break3"

def all : List VirtualKey :=
  [.move, .view, .dodge, .jump, .guard, .interact, .lock, .attack1, .attack2, .attack3, .attack4,
   .attack5, .attack6, .attack7, .spell, .shot1, .shot2, .aim, .switch, .skill1, .skill2, .skill3,
   .skill4, .skill5, .skill6, .skill7, .skill8, .derive1, .derive2, .derive3, .justAttack1,
   .justAttack2, .justSpell, .justShot1, .justSwitch, .justDerive1, .justDerive2, .justDerive3,
   .item1, .item2, .item3, .item4, .item5, .item6, .item7, .item8, .idle, .walk, .run, .dash,
   .break1, .break2, .break3]

end VirtualKey

instance : Named VirtualKey where
  all := VirtualKey.all
  name := VirtualKey.name
  rule := .virtualKey

namespace VirtualKey

/-- The group of a key that not every field accepts. -/
def group? : VirtualKey → Option KeyGroup
  | .derive1 | .derive2 | .derive3 => some .derive
  | .justAttack1 | .justAttack2 | .justSpell | .justShot1 | .justSwitch | .justDerive1
  | .justDerive2 | .justDerive3 => some .just
  | .item1 | .item2 | .item3 | .item4 | .item5 | .item6 | .item7 | .item8 => some .item
  | .idle | .walk | .run | .dash | .break1 | .break2 | .break3 => some .event
  | _ => none

/-- Refuses a key whose group is not among the accepted ones. -/
def checkGroup (accepted : List KeyGroup) (loc : Location) (key : VirtualKey) : Check VirtualKey :=
  match key.group? with
  | none => .ok key
  | some group => if accepted.contains group then .ok key else Check.field loc (.keyGroup group)

def read (accepted : List KeyGroup) (loc : Location) (text : String) : Check VirtualKey := do
  let key ← Named.read loc text
  checkGroup accepted loc key

/-- Reads a value that must name a primary key. -/
def readValue (loc : Location) (raw : Value) : Check VirtualKey := do
  let key ← Named.readValue loc raw
  checkGroup [] loc key

end VirtualKey

/-- A stick direction relative to the character. -/
inductive Side
  | forward
  | backward
  | left
  | right
deriving Repr, DecidableEq

instance : Named Side where
  all := [.forward, .backward, .left, .right]
  name
    | .forward => "Forward"
    | .backward => "Backward"
    | .left => "Left"
    | .right => "Right"
  rule := .direction

/-- The letter that a short direction opens with. -/
def Side.ofLetter? : Char → Option Side
  | 'F' => some .forward
  | 'B' => some .backward
  | 'L' => some .left
  | 'R' => some .right
  | _ => none

/-- A direction and the cosine of its tolerance. -/
structure Direction where
  side : Side
  cosine : Float

namespace Direction

/-- Tolerances lie between nothing and half a turn. -/
def tolerance : FloatLimits := .between 0 180

/-- Whether a text is a run of decimal digits, perhaps with a point and more digits after it. -/
def isTolerance (text : List Char) : Bool :=
  !(text.takeWhile Text.isDecimalDigit).isEmpty &&
    match text.dropWhile Text.isDecimalDigit with
    | [] => true
    | c :: rest => c == '.' && rest.all Text.isDecimalDigit

/-- A side and a tolerance in degrees. -/
def ofDegrees (side : Side) (degrees : Float) : Direction :=
  ⟨side, (degrees * (Plane.pi / 180)).cos⟩

/-- The short form: a letter and the tolerance. -/
def ofText (loc : Location) (text : List Char) : Check Direction :=
  match text with
  | letter :: rest =>
    match Side.ofLetter? letter, isTolerance rest with
    | some side, true => do
      let degrees ← Field.float tolerance loc (.string (String.ofList rest))
      return ofDegrees side degrees
    | _, _ => Check.field loc .directionForm
  | [] => Check.field loc .directionForm

/-- The short form, or a pair of the side's name and the tolerance. -/
def read (loc : Location) (raw : Value) : Check Direction := do
  match raw with
  | .string s => ofText loc s.toList
  | raw =>
    match ← Field.list (.exactly 2) loc raw with
    | [side, degrees] =>
      let side ← Named.readValue loc side
      let degrees ← Field.float tolerance (loc.index 1) degrees
      return ofDegrees side degrees
    | _ => Check.field loc (.lengthIs 2)

def toValue (d : Direction) : Value :=
  .object [("dir", Named.toValue d.side), ("cos", .float d.cosine)]

end Direction

/-- A key, perhaps together with a direction. -/
structure KeyInput where
  key : VirtualKey
  direction : Option Direction

namespace KeyInput

def read (loc : Location) (raw : Value) : Check KeyInput := do
  match raw with
  | .array _ =>
    match ← Field.list (.exactly 2) loc raw with
    | [key, direction] =>
      let key ← VirtualKey.readValue (loc.index 0) key
      let direction ← Direction.read (loc.index 1) direction
      return { key, direction := some direction }
    | _ => Check.field loc (.lengthIs 2)
  | raw => return { key := ← VirtualKey.readValue loc raw, direction := none }

def toValue (input : KeyInput) : Value :=
  .array [Named.toValue input.key, (input.direction.map Direction.toValue).getD .null]

end KeyInput

end GameRoster
