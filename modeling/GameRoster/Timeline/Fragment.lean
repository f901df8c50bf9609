import GameRoster.Time
import GameRoster.Timeline.Layer

namespace GameRoster.Timeline

/-- Where fragments must end: at `duration`, or anywhere from there to `overDuration`. -/
structure FragmentLimits (α : Type) where
  duration : α
  overDuration : Option α := none
  quiet : Bool := false

/-- The latest time that a range may reach. -/
def FragmentLimits.limit {α : Type} (limits : FragmentLimits α) : α :=
  limits.overDuration.getD limits.duration

/-- The span from `start` up to but not including `stop`, owned by the range at `index`. -/
structure Fragment (α : Type) where
  start : α
  stop : α
  index : Nat
deriving Repr, DecidableEq

/-- The infinities among times, where there are any. -/
class Infinities (α : Type) where
  positive : Option α
  negative : Option α

instance (priority := low) {α : Type} : Infinities α := ⟨none, none⟩

instance : Infinities Float := ⟨some Numeric.infinity, some (-Numeric.infinity)⟩

namespace Fragment

section Partition

variable {α : Type} [LT α] [LE α] [DecidableLT α] [DecidableLE α] [Infinities α]

/-- Whether an instant lies in the span. -/
def contains (fragment : Fragment α) (time : α) : Bool :=
  decide (fragment.start ≤ time) && decide (time < fragment.stop)

def isSame (a b : α) : Bool := decide (a ≤ b) && decide (b ≤ a)

/-- The lesser of two times. A time that is no number is dropped. -/
def lesser (a b : α) : α := if a < b then a else if b ≤ b then b else a

/-- The greater of two times. A time that is no number is dropped. -/
def greater (a b : α) : α := if b < a then a else if b ≤ b then b else a

/-- The least of one or more times that are numbers, looked for from infinity down. -/
def least (first : α) (rest : List α) : α :=
  (first :: rest).foldl lesser (Infinities.positive.getD first)

/-- The greatest of one or more times that are numbers, looked for from negative infinity up. -/
def greatest (first : α) (rest : List α) : α :=
  (first :: rest).foldl greater (Infinities.negative.getD first)

/-- A range that starts below zero, ends before it starts, or ends beyond the limit. -/
def isBadRange [OfNat α 0] (limit : α) (range : α × α) : Bool :=
  decide (range.1 < 0) || decide (range.2 < range.1) || decide (limit < range.2)

/-- Whether fragments that end at `stop` end where they must. -/
def endsWell (limits : FragmentLimits α) (stop : α) : Bool :=
  match limits.overDuration with
  | none => isSame stop limits.duration
  | some latest => decide (limits.duration ≤ stop) && decide (stop ≤ latest)

/-- A layer that has an owner is a fragment. -/
def ofLayer? (layer : Layer α) : Option (Fragment α) :=
  layer.owner.map fun index => ⟨layer.start, layer.stop, index⟩

/-- Partitions ranges. They must start at zero, end where the limits say, and leave no gap. -/
def partition [OfNat α 0] (limits : FragmentLimits α) (loc : Location) (ranges : List (α × α)) :
    Check (List (Fragment α)) :=
  match ranges with
  | [] => .error (.timeline loc .empty)
  | first :: rest =>
    match ranges.findIdx? (isBadRange limits.limit) with
    | some i => .error (.timeline (loc.index i) .range)
    | none =>
      let start := least first.1 (rest.map Prod.fst)
      let stop := greatest first.2 (rest.map Prod.snd)
      if !isSame start 0 then .error (.timeline loc .begin)
      else if !endsWell limits stop then .error (.timeline loc .finish)
      else
        match (Layer.paintRanges 0 ranges [⟨start, stop, none⟩]).mapM ofLayer? with
        | some fragments => .ok fragments
        | none => .error (.timeline loc .overlap)

/-- The first fragment that holds an instant. -/
def at? (fragments : List (Fragment α)) (time : α) : Option (Fragment α) :=
  fragments.find? fun fragment => fragment.contains time

end Partition

/-- The bounds of the times in a range. -/
def rangeLimits (limits : FragmentLimits Float) : TimeLimits where
  least := some 0
  greatest := some limits.limit
  quiet := limits.quiet

/-- Reads ranges and partitions them. -/
def readAll (limits : FragmentLimits Float) (loc : Location) (raws : List Value) :
    Checked (List (Fragment Float)) := do
  if raws.isEmpty then Checked.fail (.timeline loc .empty)
  let ranges ← loc.each (Field.timeRange (rangeLimits limits)) raws
  partition limits loc ranges

/-- Reads a list of ranges and partitions them. -/
def read (limits : FragmentLimits Float) (loc : Location) (raw : Value) :
    Checked (List (Fragment Float)) := do
  let raws ← Field.list {} loc raw
  readAll limits loc raws

def duration (fragment : Fragment Float) : Float := fragment.stop - fragment.start

def toValue (fragment : Fragment Float) : Value :=
  .object [("begin", .float fragment.start), ("end", .float fragment.stop),
    ("index", .nat fragment.index)]

end Fragment

end GameRoster.Timeline
