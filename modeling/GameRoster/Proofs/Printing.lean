import GameRoster.Proofs.NumberTexts
import GameRoster.Value.Printer

namespace GameRoster

namespace Numeric

/-- The decimal digits of an integer behind its sign. -/
inductive WritesInt : Int → List Char → Prop
  | nat (n : ℕ) : WritesInt n (Nat.toDigits 10 n)
  | negative {n : ℕ} (h : 0 < n) : WritesInt (-n) ('-' :: Nat.toDigits 10 n)

end Numeric

namespace Text

def hexDigits : List Char :=
  ['0', '1', '2', '3', '4', '5', '6', '7', '8', '9', 'a', 'b', 'c', 'd', 'e', 'f']

/-- How a character stands in a quoted text. Quotes, backslashes and control characters stand
behind a backslash, and all others as they are. -/
inductive Quotes : Char → List Char → Prop
  | quote : Quotes '"' ['\\', '"']
  | backslash : Quotes '\\' ['\\', '\\']
  | backspace : Quotes '\x08' ['\\', 'b']
  | formFeed : Quotes '\x0c' ['\\', 'f']
  | newline : Quotes '\n' ['\\', 'n']
  | return : Quotes '\r' ['\\', 'r']
  | tab : Quotes '\t' ['\\', 't']
  | control {c high low : Char} {a b : ℕ} (h : c.toNat = 16 * a + b) (hc : c.toNat < 32)
      (hhigh : hexDigits[a]? = some high) (hlow : hexDigits[b]? = some low) :
      Quotes c ['\\', 'u', '0', '0', high, low]
  | plain {c : Char} (hquote : c ≠ '"') (hbackslash : c ≠ '\\') (hc : 32 ≤ c.toNat) : Quotes c [c]

/-- A quoted text: the characters one after another between quotes. -/
def QuotesAll (chars text : List Char) : Prop :=
  ∃ parts, List.Forall₂ Quotes chars parts ∧ text = '"' :: parts.flatten ++ ['"']

end Text

namespace Value
open Numeric (WritesInt WritesDouble)
open Text (QuotesAll)

/-- The compact JSON text of a value: nothing stands between its parts but commas and colons. -/
inductive Prints : Value → List Char → Prop
  | null : Prints .null ['n', 'u', 'l', 'l']
  | yes : Prints (.bool true) ['t', 'r', 'u', 'e']
  | no : Prints (.bool false) ['f', 'a', 'l', 's', 'e']
  | int {n : Int} {text : List Char} (h : WritesInt n text) : Prints (.number (.int n)) text
  | float {x : Float} {finite : x.isFinite = true} {text : List Char} (h : WritesDouble x text) :
      Prints (.number (.float x finite)) text
  | string {s : String} {text : List Char} (h : QuotesAll s.toList text) : Prints (.string s) text
  | array {items : List Value} {texts : List (List Char)} (h : List.Forall₂ Prints items texts) :
      Prints (.array items) ('[' :: [','].intercalate texts ++ [']'])
  | object {fields : List (String × Value)} {names texts : List (List Char)}
      (hnames : List.Forall₂ (fun field name => QuotesAll field.1.toList name) fields names)
      (h : List.Forall₂ Prints (fields.map Prod.snd) texts) :
      Prints (.object fields)
        ('\x7b' :: [','].intercalate (names.zipWith (fun name text => name ++ ':' :: text) texts) ++
          ['\x7d'])

theorem hexDigit_eq {n : ℕ} (h : n < 16) : Text.hexDigits[n]? = some (hexDigit n) := by
  interval_cases n <;> rfl

theorem escape_quotes (c : Char) : Text.Quotes c (escape c) := by
  unfold escape
  split
  · exact .quote
  · exact .backslash
  · exact .backspace
  · exact .formFeed
  · exact .newline
  · exact .return
  · exact .tab
  · rename_i hquote hbackslash _ _ _ _ _
    split
    · rename_i hc
      exact .control (Nat.div_add_mod c.toNat 16).symm hc (hexDigit_eq (by omega))
        (hexDigit_eq (Nat.mod_lt _ (by decide)))
    · rename_i hc
      exact .plain hquote hbackslash (Nat.not_lt.mp hc)

theorem writeString_quotes (s : String) : QuotesAll s.toList (writeString s) := by
  refine ⟨s.toList.map escape, ?_, ?_⟩
  · exact List.forall₂_map_right_iff.mpr (List.forall₂_same.mpr fun c _ => escape_quotes c)
  · rw [writeString, List.flatMap_def]

theorem writeInt_writes (n : Int) : WritesInt n (writeInt n) := by
  unfold writeInt
  split
  · rename_i hn
    obtain ⟨k, rfl⟩ : ∃ k : ℕ, n = -(k : Int) := ⟨n.natAbs, by omega⟩
    rw [Int.natAbs_neg, Int.natAbs_natCast]
    exact .negative (by omega)
  · rename_i hn
    obtain ⟨k, rfl⟩ := Int.eq_ofNat_of_zero_le (Int.not_lt.mp hn)
    exact .nat k

theorem writeNumber_prints (n : Number) : Prints (.number n) (writeNumber n) := by
  cases n with
  | int n => exact .int (writeInt_writes n)
  | float x finite => exact .float (Numeric.Layout.render_writes rfl finite)

/-- The texts of values are joined with commas. -/
theorem writeItems_eq (items : List Value) :
    writeItems items = [','].intercalate (items.map write) := by
  induction items with
  | nil => rfl
  | cons item rest ih =>
    cases rest with
    | nil => simp [writeItems, List.intercalate]
    | cons next rest =>
      rw [writeItems, ih]
      simp [List.intercalate_cons_cons]

theorem writeFields_eq (fields : List (String × Value)) :
    writeFields fields =
      [','].intercalate (fields.map fun field => writeString field.1 ++ ':' :: write field.2) := by
  induction fields with
  | nil => rfl
  | cons field rest ih =>
    cases rest with
    | nil => simp [writeFields, List.intercalate]
    | cons next rest =>
      rw [writeFields, ih]
      simp [List.intercalate_cons_cons]

mutual

theorem write_prints : (value : Value) → Prints value value.write
  | .null => .null
  | .bool true => .yes
  | .bool false => .no
  | .number n => writeNumber_prints n
  | .string s => .string (writeString_quotes s)
  | .array items => by
    rw [write, writeItems_eq]
    exact .array (writeItems_prints items)
  | .object fields => by
    have hnames : List.Forall₂ (fun (field : String × Value) name =>
        QuotesAll field.1.toList name) fields (fields.map fun field => writeString field.1) :=
      List.forall₂_map_right_iff.mpr
        (List.forall₂_same.mpr fun field _ => writeString_quotes field.1)
    have hobject := Prints.object hnames (writeFields_prints fields)
    rw [List.map_map, List.zipWith_map, List.zipWith_self] at hobject
    rw [write, writeFields_eq]
    exact hobject

theorem writeItems_prints : (items : List Value) → List.Forall₂ Prints items (items.map write)
  | [] => .nil
  | item :: rest => .cons (write_prints item) (writeItems_prints rest)

theorem writeFields_prints : (fields : List (String × Value)) →
    List.Forall₂ Prints (fields.map Prod.snd) ((fields.map Prod.snd).map write)
  | [] => .nil
  | (_, value) :: rest => .cons (write_prints value) (writeFields_prints rest)

end

/-- What is rendered is the compact text of the value. -/
theorem render_prints (value : Value) : value.Prints value.render.toList := by
  rw [render, String.toList_ofList]
  exact write_prints value

end Value

end GameRoster
