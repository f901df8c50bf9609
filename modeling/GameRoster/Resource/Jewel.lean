import GameRoster.Document.Reading
import GameRoster.Field.Choice
import GameRoster.Ref

namespace GameRoster

inductive JewelSlot
  | attack
  | defense
  | special
deriving Repr, DecidableEq

instance : Named JewelSlot where
  all := [.attack, .defense, .special]
  name
    | .attack => "Attack"
    | .defense => "Defense"
    | .special => "Special"
  rule := .jewelSlot

/-- How a jewel looks. -/
inductive JewelVariant
  | variant1
  | variant2
  | variant3
  | variantX
deriving Repr, DecidableEq

instance : Named JewelVariant where
  all := [.variant1, .variant2, .variant3, .variantX]
  name
    | .variant1 => "Variant1"
    | .variant2 => "Variant2"
    | .variant3 => "Variant3"
    | .variantX => "VariantX"
  rule := .jewelVariant

structure JewelDraft where
  slot : String
  rare : String
  entry : String
  piece : Value
  subEntry : Option String
  subPiece : Value
  variant : String

structure Jewel where
  id : String
  slot : JewelSlot
  rare : Rarity
  entry : Ref .entry
  piece : Int
  /-- A second entry and its pieces. -/
  sub : Option (Ref .entry × Int)
  variant : JewelVariant

open Document in
def JewelDraft.shape : Shape :=
  .record "JewelArgs" [required "slot" .text, required "rare" .text, required "entry" .text,
    required "piece" .value, optional "sub_entry" (.option .text), optional "sub_piece" .value,
    required "variant" .text]

open Document in
def JewelDraft.ofNode? (format : Format) (node : Node) : Option JewelDraft := do
  let fields ← node.record? format shape
  return {
    slot := ← fields.text? "slot"
    rare := ← fields.text? "rare"
    entry := ← fields.text? "entry"
    piece := ← fields.value? "piece"
    subEntry := ← fields.getD? "sub_entry" (Node.option? Node.text?) none
    subPiece := ← fields.valueOrNull? "sub_piece"
    variant := ← fields.text? "variant" }

namespace Jewel

/-- A second entry and its pieces are given together or not at all. -/
def readSub (id : String) (entry : Option String) (piece : Value) :
    Check (Option (Ref .entry × Int)) :=
  let loc := Location.ofResource id
  match entry, Field.present? piece with
  | none, none => .ok none
  | some entry, some piece => do
    let entry ← Ref.ofText .entry (loc "sub_entry") entry
    let piece ← Field.int (.atLeast 1) (loc "sub_piece") piece
    return some (entry, piece)
  | _, _ => Check.field (loc "") .subEntryPair

def build (id : String) (draft : JewelDraft) : Check Jewel := do
  let loc := Location.ofResource id
  let slot ← Named.read (loc "slot") draft.slot
  let rare ← Named.read (loc "rare") draft.rare
  let entry ← Ref.ofText .entry (loc "entry") draft.entry
  let piece ← Field.int (.atLeast 1) (loc "piece") draft.piece
  let sub ← readSub id draft.subEntry draft.subPiece
  let variant ← Named.read (loc "variant") draft.variant
  return { id, slot, rare, entry, piece, sub, variant }

def fields (j : Jewel) : List (String × Option Value) :=
  [("id", some (.string j.id)),
   ("slot", some (Named.toValue j.slot)),
   ("rare", some (Named.toValue j.rare)),
   ("entry", some (.string j.entry.text)),
   ("piece", some (.int j.piece)),
   ("sub_entry", j.sub.map fun sub => .string sub.1.text),
   ("sub_piece", j.sub.map fun sub => .int sub.2),
   ("variant", some (Named.toValue j.variant))]

end Jewel

end GameRoster
