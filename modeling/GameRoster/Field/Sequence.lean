import GameRoster.Field.Number

namespace GameRoster

/-- What a list's length must be. -/
structure Lengths where
  exact : Option Nat := none
  least : Option Nat := none
  greatest : Option Nat := none
deriving Repr, DecidableEq

namespace Lengths

def exactly (n : Nat) : Lengths := { exact := some n }

def atLeast (n : Nat) : Lengths := { least := some n }

/-- The first of the three constraints that a length does not meet is reported. -/
def check (lengths : Lengths) (loc : Location) (length : Nat) : Check Unit := do
  if let some n := lengths.exact then
    if length ≠ n then Check.field loc (.lengthIs n)
  if let some n := lengths.least then
    if length < n then Check.field loc (.lengthAtLeast n)
  if let some n := lengths.greatest then
    if n < length then Check.field loc (.lengthAtMost n)

end Lengths

inductive Order
  | any
  | ascending
  | descending
deriving Repr, DecidableEq

namespace Location

/-- Reads items one after another, each at its own index. -/
def eachFrom {m : Type → Type} [Monad m] {α β : Type} (loc : Location)
    (read : Location → α → m β) : Nat → List α → m (List β)
  | _, [] => pure []
  | i, item :: rest => do
    let first ← read (loc.index i) item
    let others ← eachFrom loc read (i + 1) rest
    return first :: others

def each {m : Type → Type} [Monad m] {α β : Type} (loc : Location) (read : Location → α → m β)
    (items : List α) : m (List β) := loc.eachFrom read 0 items

/-- Reads entries one after another, each at its own key. -/
def eachKey {m : Type → Type} [Monad m] {α β : Type} (loc : Location)
    (read : Location → String → α → m β) : List (String × α) → m (List β)
  | [] => pure []
  | (name, item) :: rest => do
    let first ← read (loc.key name) name item
    let others ← eachKey loc read rest
    return first :: others

/-- Checks items one after another, each at its own index. -/
def checkFrom {m : Type → Type} [Monad m] {α : Type} (loc : Location)
    (check : Location → α → m Unit) : Nat → List α → m Unit
  | _, [] => pure ()
  | i, item :: rest => do
    check (loc.index i) item
    checkFrom loc check (i + 1) rest

def checkEach {m : Type → Type} [Monad m] {α : Type} (loc : Location)
    (check : Location → α → m Unit) (items : List α) : m Unit := loc.checkFrom check 0 items

end Location

namespace Field

/-- A value that is not left out. -/
def present? : Value → Option Value
  | .null => none
  | raw => some raw

/-- Reads a value unless it is left out. -/
def optional {m : Type → Type} [Monad m] {α : Type} (read : Value → m α) (raw : Value) :
    m (Option α) :=
  match present? raw with
  | none => pure none
  | some raw => do return some (← read raw)

/-- Reads a value, or takes the default when it is left out. -/
def orElse {m : Type → Type} [Monad m] {α : Type} (default : α) (read : Value → m α)
    (raw : Value) : m α :=
  match present? raw with
  | none => pure default
  | some raw => read raw

/-- A truth value, or `default` when it is left out. -/
def boolOr (default : Bool) (loc : Location) (raw : Value) : Check Bool :=
  orElse default (bool loc) raw

/-- A list of a permitted length. -/
def list (lengths : Lengths) (loc : Location) : Value → Check (List Value)
  | .array items => do
    lengths.check loc items.length
    return items
  | _ => Check.field loc .list

def object (loc : Location) : Value → Check (List (String × Value))
  | .object fields => .ok fields
  | _ => Check.field loc .object

/-- A list whose items are read one by one. -/
def listOf {α : Type} (lengths : Lengths) (item : Location → Value → Check α) (loc : Location)
    (raw : Value) : Check (List α) := do
  let items ← list lengths loc raw
  loc.each item items

/-- The index before the first item that stands out of order. -/
def firstBreak? {α : Type} (breaks : α → α → Bool) : Nat → List α → Option Nat
  | i, a :: b :: rest => if breaks a b then some i else firstBreak? breaks (i + 1) (b :: rest)
  | _, _ => none

/-- Neighbours may be equal in either order. -/
def checkOrder {α : Type} [LT α] [DecidableLT α] (order : Order) (loc : Location)
    (items : List α) : Check Unit :=
  match order with
  | .any => .ok ()
  | .ascending =>
    match firstBreak? (fun a b => decide (b < a)) 0 items with
    | some i => Check.field (loc.index (i + 1)) .ascending
    | none => .ok ()
  | .descending =>
    match firstBreak? (fun a b => decide (a < b)) 0 items with
    | some i => Check.field (loc.index (i + 1)) .descending
    | none => .ok ()

/-- An ordered list of numbers. The item `first` goes in front, unordered and unchecked. -/
def numbers {α : Type} [LT α] [DecidableLT α] (item : Location → Value → Check α)
    (lengths : Lengths) (order : Order) (first : Option α) (loc : Location) (raw : Value) :
    Check (List α) := do
  let items ← listOf lengths item loc raw
  checkOrder order loc items
  return first.toList ++ items

/-- A pair of numbers, the first not above the second. -/
def range {α : Type} [LT α] [DecidableLT α] (item : Location → Value → Check α) (loc : Location)
    (raw : Value) : Check (α × α) := do
  match ← numbers item (.exactly 2) .any none loc raw with
  | [a, b] => if b < a then Check.field loc .orderedRange else return (a, b)
  | _ => Check.field loc (.lengthIs 2)

def bools (lengths : Lengths) (loc : Location) (raw : Value) : Check (List Bool) :=
  listOf lengths bool loc raw

def ints (limits : IntLimits) (lengths : Lengths) (loc : Location) (raw : Value) :
    Check (List Int) := numbers (int limits) lengths .any none loc raw

def floats (limits : FloatLimits) (lengths : Lengths) (loc : Location) (raw : Value) :
    Check (List Float) := numbers (float limits) lengths .any none loc raw

def intRange (limits : IntLimits) : Location → Value → Check (Int × Int) := range (int limits)

def floatRange (limits : FloatLimits) : Location → Value → Check (Float × Float) :=
  range (float limits)

end Field

end GameRoster
