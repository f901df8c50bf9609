import GameRoster.Text.Numeral

namespace GameRoster.Numeric
open GameRoster.Text

/-- Splits off one leading sign; `true` stands for minus. -/
def takeSign : List Char → Bool × List Char
  | '-' :: rest => (true, rest)
  | '+' :: rest => (false, rest)
  | rest => (false, rest)

/-- An exponent: a sign and at least one digit, and nothing after them. -/
def exponent? (text : List Char) : Option Int :=
  let (minus, digits) := takeSign text
  if digits.isEmpty || !digits.all isDigit then none
  else
    let n : Int := digitsValue digits
    some (if minus then -n else n)

/-- Digits times a power of ten, as the nearest double. -/
def scaled (digits : List Char) (exponent : Int) : Float :=
  if 0 ≤ exponent then Float.ofScientific (digitsValue digits) false exponent.toNat
  else Float.ofScientific (digitsValue digits) true (-exponent).toNat

/-- A decimal without its sign. -/
def unsignedDecimal? (text : List Char) : Option Float := do
  let whole := text.takeWhile isDigit
  let (fraction, rest) := match text.dropWhile isDigit with
    | '.' :: rest => (rest.takeWhile isDigit, rest.dropWhile isDigit)
    | rest => ([], rest)
  if whole.isEmpty && fraction.isEmpty then none
  let exponent ← match rest with
    | [] => some 0
    | c :: rest => if c == 'e' || c == 'E' then exponent? rest else none
  some (scaled (whole ++ fraction) (exponent - fraction.length))

/-- The double with every bit of the exponent set and none behind it. -/
def infinity : Float := .ofBits 0x7FF0000000000000

def notANumber : Float := 0 / 0

/-- The words that stand for values without digits. -/
def word? (text : List Char) : Option Float :=
  match String.ofList (text.map Char.toLower) with
  | "inf" | "infinity" => some infinity
  | "nan" => some notANumber
  | _ => none

/-- Reads a whole text as one double. -/
def literal? (text : List Char) : Option Float :=
  let (minus, body) := takeSign text
  let value := match word? body with
    | some x => some x
    | none => unsignedDecimal? body
  value.map fun x => if minus then -x else x

end GameRoster.Numeric
