import GameRoster.Id.Family
import GameRoster.Numeric.Layout

namespace GameRoster

/-- Bounds in messages have the fewest digits that read back, never an exponent, and no fraction
when they are whole. -/
def boundLayout : Numeric.Layout where
  tie := .up
  positional := none
  wholeFraction := false
  nan := "NaN"
  infinity := "inf"
  negativeInfinity := "-inf"

/-- Groups of keys that a field may leave out. -/
inductive KeyGroup
  | derive
  | just
  | item
  | event
deriving Repr, DecidableEq

namespace KeyGroup

def name : KeyGroup → String
  | .derive => "derive"
  | .just => "just"
  | .item => "item"
  | .event => "event"

end KeyGroup

/-- How many `+` upgrades add up to one extra entry piece. -/
def plusPerPiece : Nat := 3

inductive FieldRule
  | boolean
  | integer
  | integerOrBoolean
  | float
  | text
  | list
  | object
  | id
  | time
  | readableTime
  | angle
  | halfTurn
  | unitVector
  | least (bound : Float)
  | greatest (bound : Float)
  | lengthIs (n : Nat)
  | lengthAtLeast (n : Nat)
  | lengthAtMost (n : Nat)
  | ascending
  | descending
  | orderedRange
  | oneOf (choices : List String)
  | pattern (shown : String)
  | unique
  | extension (accepted : List String)
  | relativePath
  | idForm (family : Id.Family) (violation : Id.Violation)
  | distinctIds
  | attribute
  | binding
  | plusLimit
  | jewelSlots
  | subEntryPair
  | patternLevels (n : Int)
  | poolPatterns
  | rareLevel
  | jewelSlot
  | jewelVariant
  | equipmentSlot
  | accessoryVariant
  | virtualKey
  | keyGroup (group : KeyGroup)
  | directionForm
  | direction
  | moveKey
  | deriveContinue
  | clipFlag (expected : Bool)
  | inputMovement

def FieldRule.message : FieldRule → String
  | .boolean => "must be a boolean"
  | .integer => "must be a int"
  | .integerOrBoolean => "must be a int/boolean"
  | .float => "must be a float/percent"
  | .text => "must be a string"
  | .list => "must be an array"
  | .object => "must be a object"
  | .id => "must be a ID"
  | .time => "must be a float/time"
  | .readableTime => "invalid time"
  | .angle => "must be a angle"
  | .halfTurn => "must be in [-180, 180]"
  | .unitVector => "must be normalized"
  | .least bound => "must >= " ++ boundLayout.render bound
  | .greatest bound => "must <= " ++ boundLayout.render bound
  | .lengthIs n => "length must = " ++ toString n
  | .lengthAtLeast n => "length must >= " ++ toString n
  | .lengthAtMost n => "length must <= " ++ toString n
  | .ascending => "must be ascend"
  | .descending => "must be descend"
  | .orderedRange => "range[0] must < range[1]"
  | .oneOf choices => "must include " ++ ",".intercalate choices
  | .pattern shown => "must match " ++ shown
  | .unique => "must be unique"
  | .extension accepted => "must have extension " ++ ",".intercalate accepted
  | .relativePath => "must be a relative path"
  | .idForm family violation => violation.message family
  | .distinctIds => "ID conflict"
  | .attribute => "attribute not includes"
  | .binding => "must be a VarValueArgs<R>"
  | .plusLimit => "[1] must <= [0] * " ++ toString plusPerPiece
  | .jewelSlots => "must be an A_D_S_/[int,int,int]"
  | .subEntryPair => "sub_entry & sub_piece must be using together"
  | .patternLevels n => "must = " ++ toString n
  | .poolPatterns => "must be a patterns like 'S A A B AB'"
  | .rareLevel => "must be a RareLevel"
  | .jewelSlot => "must be a JewelSlot"
  | .jewelVariant => "must be a JewelVariant"
  | .equipmentSlot => "must be an EquipmentSlot"
  | .accessoryVariant => "must be a AccessoryVariant"
  | .virtualKey => "must be a VirtualKey"
  | .keyGroup group => group.name ++ " key not supported"
  | .directionForm => "must match dir pattern"
  | .direction => "must be Forward/Backward/Left/Right"
  | .moveKey => "must include Run,Walk,Dash"
  | .deriveContinue => "must be a DeriveContinue"
  | .clipFlag expected => "must be " ++ toString expected
  | .inputMovement => "invalid input movement"

inductive IntegrityRule
  | characterStyle
  | characterEquipment
  | attributeLevels (n : Nat)
  | stylePerk
  | styleAction
  | perkStyleCharacter
  | perkUsableStyleCharacter
  | perkUsableStyle
  | actionStyleCharacter
  | parentCharacter
  | parentSlot
  | parentLevelRange
  | parentLevel
  | entryPiece
  | subEntryPiece
  | tablePiece
  | moveAction
deriving Repr, DecidableEq

def IntegrityRule.message : IntegrityRule → String
  | .characterStyle => "Character and Style mismatch"
  | .characterEquipment => "Character and Equipment mismatch"
  | .attributeLevels n => "len must = " ++ toString n
  | .stylePerk => "Style and Perk mismatch"
  | .styleAction => "Style and Action mismatch"
  | .perkStyleCharacter => "Character mismatch with Style"
  | .perkUsableStyleCharacter => "Character mismatch with Style (usable_styles)"
  | .perkUsableStyle => "Style and Perk mismatch (usable_styles)"
  | .actionStyleCharacter => "character mismatch with styles"
  | .parentCharacter => "Character mismatch with parent"
  | .parentSlot => "slot missmatch with parent"
  | .parentLevelRange => "out of parent's level range"
  | .parentLevel => "> parent's max_level"
  | .entryPiece => "must <= entry.max_piece"
  | .subEntryPiece => "must <= sub_entry.max_piece"
  | .tablePiece => "[0] must <= entry.max_piece"
  | .moveAction => "must be ActionMove"

inductive TimelineRule
  | empty
  | range
  | begin
  | finish
  | overlap
  | shape
deriving Repr, DecidableEq

def TimelineRule.message : TimelineRule → String
  | .empty => "length must >= 1"
  | .range => "invalid time range"
  | .begin => "Invalid time fragment (begin)"
  | .finish => "Invalid time fragment (end)"
  | .overlap => "Invalid time fragment (overlap)"
  | .shape => "must be an array/object"

inductive VariableRule
  | undefined (id : String)
  | notOwned (reader id : String)
  | valueCount (id : String) (n : Nat)
  | indexLimit (n : Nat)
  | owner
  | redefined
deriving Repr, DecidableEq

def VariableRule.message : VariableRule → String
  | .undefined id => "Var \"" ++ id ++ "\" not found"
  | .notOwned reader id => reader ++ " not defined in " ++ id
  | .valueCount id n => id ++ " must have " ++ toString n ++ " values"
  | .indexLimit n => "must <= " ++ toString n
  | .owner => "invalid or unsupported ID"
  | .redefined => "define multiple times"

end GameRoster
