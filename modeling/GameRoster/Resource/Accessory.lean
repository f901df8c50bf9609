import GameRoster.Document.Reading
import GameRoster.Field.Choice
import GameRoster.Ref

namespace GameRoster

/-- Where one step draws its entry from. -/
inductive PoolStep
  | a
  | b
  | ab
deriving Repr, DecidableEq

namespace PoolStep

def name : PoolStep → String
  | .a => "A"
  | .b => "B"
  | .ab => "AB"

def ofText? (text : List Char) : Option PoolStep :=
  match text with
  | ['A'] => some .a
  | ['B'] => some .b
  | ['A', 'B'] => some .ab
  | _ => none

/-- The pattern of some steps. -/
def patternText (steps : List PoolStep) : List Char :=
  Text.join ' ' (['S'] :: steps.map fun step => step.name.toList)

/-- Reads the steps of a pattern, whose length decides the highest level. -/
def readPattern (id : String) (maxLevel : Int) (text : String) : Check (List PoolStep) :=
  let tokens := Text.split ' ' text.toList
  let expected : Int := tokens.length * plusPerPiece
  if maxLevel ≠ expected then
    Check.field (.ofResource id "max_level") (.patternLevels expected)
  else
    match tokens with
    | ['S'] :: steps =>
      match steps.mapM ofText? with
      | some steps => .ok steps
      | none => Check.field (.ofResource id "patterns") .poolPatterns
    | _ => Check.field (.ofResource id "patterns") .poolPatterns

end PoolStep

structure AccessoryPoolDraft where
  rare : String
  patterns : String
  maxLevel : Value
  aEntries : Value
  bEntries : Value

structure AccessoryPool where
  id : String
  rare : Rarity
  patterns : List PoolStep
  maxLevel : Int
  aEntries : List (Ref .entry × Float)
  bEntries : List (Ref .entry × Float)

open Document in
def AccessoryPoolDraft.shape : Shape :=
  .record "AccessoryPoolArgs" [required "rare" .text, required "patterns" .text,
    required "max_level" .value, required "a_entries" .value, required "b_entries" .value]

open Document in
def AccessoryPoolDraft.ofNode? (format : Format) (node : Node) : Option AccessoryPoolDraft := do
  let fields ← node.record? format shape
  return {
    rare := ← fields.text? "rare"
    patterns := ← fields.text? "patterns"
    maxLevel := ← fields.value? "max_level"
    aEntries := ← fields.value? "a_entries"
    bEntries := ← fields.value? "b_entries" }

namespace AccessoryPool

/-- The weight of one entry. -/
def weight (loc : Location) (id : String) (raw : Value) : Check (Ref .entry × Float) := do
  let id ← Ref.ofText .entry loc id
  let weight ← Field.float (.atLeast 0) loc raw
  return (id, weight)

def weights (loc : Location) (raw : Value) : Check (List (Ref .entry × Float)) := do
  let fields ← Field.object loc raw
  loc.eachKey weight fields

def build (id : String) (draft : AccessoryPoolDraft) : Check AccessoryPool := do
  let loc := Location.ofResource id
  let rare ← Named.read (loc "rare") draft.rare
  let maxLevel ← Field.int (.atLeast 1) (loc "max_level") draft.maxLevel
  let patterns ← PoolStep.readPattern id maxLevel draft.patterns
  let aEntries ← weights (loc "a_entries") draft.aEntries
  let bEntries ← weights (loc "b_entries") draft.bEntries
  return { id, rare, patterns, maxLevel, aEntries, bEntries }

def weightsValue (entries : List (Ref .entry × Float)) : Value :=
  .object (entries.map fun (id, weight) => (id.text, .float weight))

def fields (p : AccessoryPool) : List (String × Option Value) :=
  [("id", some (.string p.id)),
   ("rare", some (Named.toValue p.rare)),
   ("patterns", some (.strings (p.patterns.map PoolStep.name))),
   ("max_level", some (.int p.maxLevel)),
   ("a_entries", some (weightsValue p.aEntries)),
   ("b_entries", some (weightsValue p.bEntries))]

end AccessoryPool

/-- How an accessory looks. -/
inductive AccessoryVariant
  | variant1
  | variant2
  | variant3
deriving Repr, DecidableEq

instance : Named AccessoryVariant where
  all := [.variant1, .variant2, .variant3]
  name
    | .variant1 => "Variant1"
    | .variant2 => "Variant2"
    | .variant3 => "Variant3"
  rule := .accessoryVariant

structure AccessoryDraft where
  pool : String
  rare : String
  entry : String
  piece : Value
  variant : String

structure Accessory where
  id : String
  pool : Ref .accessoryPool
  rare : Rarity
  entry : Ref .entry
  piece : Int
  variant : AccessoryVariant

open Document in
def AccessoryDraft.shape : Shape :=
  .record "AccessoryArgs" [required "pool" .text, required "rare" .text, required "entry" .text,
    required "piece" .value, required "variant" .text]

open Document in
def AccessoryDraft.ofNode? (format : Format) (node : Node) : Option AccessoryDraft := do
  let fields ← node.record? format shape
  return {
    pool := ← fields.text? "pool"
    rare := ← fields.text? "rare"
    entry := ← fields.text? "entry"
    piece := ← fields.value? "piece"
    variant := ← fields.text? "variant" }

namespace Accessory

def build (id : String) (draft : AccessoryDraft) : Check Accessory := do
  let loc := Location.ofResource id
  return {
    id
    pool := ← Ref.ofText .accessoryPool (loc "pool") draft.pool
    rare := ← Named.read (loc "rare") draft.rare
    entry := ← Ref.ofText .entry (loc "entry") draft.entry
    piece := ← Field.int (.atLeast 1) (loc "piece") draft.piece
    variant := ← Named.read (loc "variant") draft.variant }

def fields (a : Accessory) : List (String × Option Value) :=
  [("id", some (.string a.id)),
   ("pool", some (.string a.pool.text)),
   ("rare", some (Named.toValue a.rare)),
   ("entry", some (.string a.entry.text)),
   ("piece", some (.int a.piece)),
   ("variant", some (Named.toValue a.variant))]

end Accessory

end GameRoster
