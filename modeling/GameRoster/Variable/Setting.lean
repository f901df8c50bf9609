import GameRoster.Ref

namespace GameRoster

inductive Setting (α : Type)
  | fixed (a : α)
  | bound (id : Ref .variable) (values : List α)

/-- Whether a plain value is refused, and how many values a binding may list. -/
structure BindingLimits where
  mustBind : Bool := false
  lengths : Lengths := {}
deriving Repr, DecidableEq

namespace BindingLimits

/-- A variable has at least two levels, so no constraint goes below two. -/
def valueLengths (limits : BindingLimits) : Lengths where
  exact := limits.lengths.exact.map (max 2)
  least := some (max 2 (limits.lengths.least.getD 0))
  greatest := limits.lengths.greatest.map (max 2)

end BindingLimits

namespace Setting

/-- The id and the values of a binding, as written. Anything after them is not read. -/
def binding? : Value → Option (String × Value)
  | .array (.string id :: rest) =>
    if (Text.strip? ['#', '.'] id.toList).isSome then some (id, rest.head?.getD .null) else none
  | _ => none

/-- Reads a plain value with `one`, or the values of a binding with `many`. -/
def read {α : Type} (limits : BindingLimits) (one : Location → Value → Check α)
    (many : Lengths → Location → Value → Check (List α)) (loc : Location) (raw : Value) :
    Check (Setting α) :=
  match binding? raw with
  | some (id, values) => do
    let id ← Ref.ofText .variable (loc.index 0) id
    let values ← many limits.valueLengths (loc.field "values") values
    return .bound id values
  | none =>
    if limits.mustBind then Check.field loc .binding
    else do return .fixed (← one loc raw)

def bool (limits : BindingLimits) : Location → Value → Check (Setting Bool) :=
  read limits Field.bool Field.bools

def int (limits : BindingLimits) (item : IntLimits) : Location → Value → Check (Setting Int) :=
  read limits (Field.int item) (Field.ints item)

def float (limits : BindingLimits) (item : FloatLimits) :
    Location → Value → Check (Setting Float) :=
  read limits (Field.float item) (Field.floats item)

/-- A setting that holds ids; a binding may list one id more than once. -/
def ref (limits : BindingLimits) (family : Id.Family) :
    Location → Value → Check (Setting (Ref family)) :=
  read limits (Ref.ofValue family) fun lengths => Ref.listOfValue family lengths true []

/-- Every value that a setting may take. -/
def candidates {α : Type} : Setting α → List α
  | .fixed a => [a]
  | .bound _ values => values

def isFixed {α : Type} : Setting α → Bool
  | .fixed _ => true
  | .bound _ _ => false

def toValue {α : Type} (value : α → Value) : Setting α → Value
  | .fixed a => value a
  | .bound id values =>
    .object [("id", .string id.text), ("values", .array (values.map value))]

end Setting

end GameRoster
