
namespace GameRoster.Timeline

/-- The span from `start` up to but not including `stop`. No one owns it until it is painted. -/
structure Layer (α : Type) where
  start : α
  stop : α
  owner : Option Nat
deriving Repr, DecidableEq

namespace Layer

variable {α : Type} [LT α] [LE α] [DecidableLT α] [DecidableLE α]

/-- Whether an instant lies in the span. -/
def contains (layer : Layer α) (time : α) : Bool :=
  decide (layer.start ≤ time) && decide (time < layer.stop)

/-- What is left of a layer before a span. -/
def before (layer : Layer α) (start : α) : List (Layer α) :=
  if layer.start < start then [{ layer with stop := start }] else []

/-- What is left of a layer after a span. -/
def after (layer : Layer α) (stop : α) : List (Layer α) :=
  if stop < layer.stop then [{ layer with start := stop }] else []

/-- Puts the `top` layer on layers that stand in order. The top goes in where it first reaches;
until then it is `pending`. -/
def paintFrom (top : Layer α) : List (Layer α) → List (Layer α) → List (Layer α)
  | pending, [] => pending
  | pending, layer :: rest =>
    if layer.stop ≤ top.start then layer :: paintFrom top pending rest
    else if top.stop ≤ layer.start then pending ++ layer :: paintFrom top [] rest
    else
      layer.before top.start ++ pending ++ layer.after top.stop ++ paintFrom top [] rest

/-- Paints the span from `start` up to `stop` for an owner. -/
def paint (layers : List (Layer α)) (start stop : α) (owner : Nat) : List (Layer α) :=
  paintFrom ⟨start, stop, some owner⟩ [⟨start, stop, some owner⟩] layers

/-- Paints ranges one after another, each for its own position. A range without width paints
nothing. -/
def paintRanges : Nat → List (α × α) → List (Layer α) → List (Layer α)
  | _, [], layers => layers
  | i, (start, stop) :: rest, layers =>
    if start ≤ stop ∧ stop ≤ start then paintRanges (i + 1) rest layers
    else paintRanges (i + 1) rest (paint layers start stop i)

/-- The owner of an instant, if any layer holds it. -/
def ownerAt? (layers : List (Layer α)) (time : α) : Option Nat :=
  (layers.find? fun layer => layer.contains time).bind Layer.owner

end Layer

end GameRoster.Timeline
