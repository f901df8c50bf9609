import GameRoster.Numeric.Binary

namespace GameRoster

/-- A number is an integer or a finite double, depending on how it was written. -/
inductive Number
  | int (n : Int)
  | float (x : Float) (finite : x.isFinite = true)

inductive Value
  | null
  | bool (b : Bool)
  | number (n : Number)
  | string (s : String)
  | array (items : List Value)
  | object (fields : List (String × Value))

namespace Number

/-- The double nearest to a number. -/
def toFloat : Number → Float
  | .int n => Numeric.ofInt n
  | .float x _ => x

end Number

namespace Value

instance : Inhabited Value := ⟨.null⟩

def int (n : Int) : Value := .number (.int n)

def nat (n : Nat) : Value := .number (.int n)

/-- A double as a value. There is no number for NaN and the infinities. -/
def float (x : Float) : Value :=
  if finite : x.isFinite = true then .number (.float x finite) else .null

def strings (texts : List String) : Value := .array (texts.map .string)

/-- The field of an object; nothing else has fields. -/
def field? : Value → String → Option Value
  | .object fields, name => fields.lookup name
  | _, _ => none

/-- Adds a field. A repeated key keeps its first place and takes the last value. -/
def insertField (fields : List (String × Value)) (name : String) (value : Value) :
    List (String × Value) :=
  if fields.any (·.1 == name) then
    fields.map fun field => if field.1 == name then (name, value) else field
  else fields ++ [(name, value)]

/-- An object from entries in the order they were written. -/
def ofEntries (entries : List (String × Value)) : Value :=
  .object (entries.foldl (fun fields (name, value) => insertField fields name value) [])

/-- An object whose absent fields are left out. -/
def ofOptionalFields (fields : List (String × Option Value)) : Value :=
  .object (fields.filterMap fun (name, value) => value.map fun v => (name, v))

end Value

end GameRoster
