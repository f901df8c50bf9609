import GameRoster.Checked
import GameRoster.Field.Sequence
import GameRoster.Text.Piece

namespace GameRoster

/-- Frames of an animation in one second. -/
def framesPerSecond : Float := 60

/-- The length of a tick of the game logic, in seconds. -/
def tickLength : Float := 1 / 30

/-- How far from a whole number of ticks a time may be without a warning. -/
def tickTolerance : Float := 0.01

inductive TimeUnit
  | frame
  | millisecond
  | second
  | minute
  | hour
deriving Repr, DecidableEq

namespace TimeUnit

/-- The unit that a suffix names. -/
def ofSuffix? (suffix : List Char) : Option TimeUnit :=
  match suffix with
  | ['F'] => some .frame
  | ['m', 's'] => some .millisecond
  | ['s'] => some .second
  | ['m'] => some .minute
  | ['m', 'i', 'n'] => some .minute
  | ['h'] => some .hour
  | ['h', 'r'] => some .hour
  | _ => none

/-- In a range a numeral may stand without a unit. -/
def ofSuffixOrNone? : List Char → Option TimeUnit
  | [] => some .second
  | suffix => ofSuffix? suffix

/-- The unit in seconds. -/
def seconds : TimeUnit → Float
  | .frame => 1 / framesPerSecond
  | .millisecond => 0.001
  | .second => 1
  | .minute => 60
  | .hour => 3600

/-- Sixty frames are a second, and so are a thousand milliseconds. -/
theorem seconds_eq : frame.seconds = 1 / 60 ∧ millisecond.seconds = 1 / 1000 ∧
    second.seconds = 1 ∧ minute.seconds = 60 ∧ hour.seconds = 60 * 60 := by
  decide +kernel

end TimeUnit

/-- Bounds of a time in seconds, whether warnings are left out, and whether a bare number counts
frames. -/
structure TimeLimits extends FloatLimits where
  quiet : Bool := false
  frames : Bool := false

namespace TimeLimits

def atLeast (x : Float) : TimeLimits := { least := some x }

def between (x y : Float) : TimeLimits := { least := some x, greatest := some y }

end TimeLimits

namespace Time

def scaled (numeral : Text.Numeral) (unit : TimeUnit) : Float := numeral.toFloat * unit.seconds

/-- A numeral with a unit. -/
def ofText? (text : List Char) : Option Float :=
  match Text.Numeral.take? text with
  | some (numeral, suffix) => (TimeUnit.ofSuffix? suffix).map (scaled numeral)
  | none => none

/-- Two numerals with a dash between them; a unit may be missing. -/
def rangeOfText? (text : List Char) : Option (Float × Float) := do
  let (first, rest) ← Text.Numeral.take? text
  let firstUnit ← TimeUnit.ofSuffixOrNone? (rest.takeWhile fun c => c != '-')
  let rest ← Text.strip? ['-'] (rest.dropWhile fun c => c != '-')
  let (second, suffix) ← Text.Numeral.take? rest
  let secondUnit ← TimeUnit.ofSuffixOrNone? suffix
  return (scaled first firstUnit, scaled second secondUnit)

/-- Whether a time is further from a whole number of ticks than the runtime tolerates. -/
def isOffTick (x : Float) : Bool :=
  match Numeric.distanceToInteger? (x / tickLength) with
  | some distance => decide (tickTolerance < distance)
  | none => false

/-- Checks the bounds of a time, and then whether it falls on a tick. -/
def check (limits : TimeLimits) (raw : Value) (loc : Location) (x : Float) : Checked Float := do
  limits.toFloatLimits.check loc x
  if !limits.quiet && isOffTick x then Checked.warn ⟨loc, raw⟩
  return x

/-- The time that a value says, before it is checked. -/
def source (limits : TimeLimits) (loc : Location) : Value → Check Float
  | .number n => .ok (if limits.frames then n.toFloat / framesPerSecond else n.toFloat)
  | .string s =>
    match ofText? s.toList with
    | some x => .ok x
    | none => Check.field loc .readableTime
  | _ => Check.field loc .time

end Time

namespace Field

def time (limits : TimeLimits) (loc : Location) (raw : Value) : Checked Float := do
  let x ← Time.source limits loc raw
  Time.check limits raw loc x

def times (limits : TimeLimits) (lengths : Lengths) (order : Order) (loc : Location)
    (raw : Value) : Checked (List Float) := do
  let items ← list lengths loc raw
  let parsed ← loc.each (time limits) items
  checkOrder order loc parsed
  return parsed

/-- The two ends of a range as they are written; each is checked at its own place. -/
def timePair (limits : TimeLimits) (loc : Location) (raw : Value) : Checked (Float × Float) := do
  match raw with
  | .string s =>
    match Time.rangeOfText? s.toList with
    | some (first, second) =>
      let first ← Time.check limits raw (loc.index 0) first
      let second ← Time.check limits raw (loc.index 1) second
      return (first, second)
    | none => Checked.fail (.field loc .readableTime)
  | raw =>
    match ← times limits (.exactly 2) .any loc raw with
    | [first, second] => return (first, second)
    | _ => Checked.fail (.field loc (.lengthIs 2))

/-- A range of times, the first not above the second. -/
def timeRange (limits : TimeLimits) (loc : Location) (raw : Value) : Checked (Float × Float) := do
  let (first, second) ← timePair limits loc raw
  if second < first then Checked.fail (.field loc .orderedRange)
  else return (first, second)

end Field

/-- Whether a time lies in a range that includes its begin and not its end. -/
def Time.inRange (range : Float × Float) (x : Float) : Bool :=
  decide (range.1 ≤ x) && decide (x < range.2)

end GameRoster
