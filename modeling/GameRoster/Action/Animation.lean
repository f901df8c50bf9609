import GameRoster.Document.Reading
import GameRoster.Field.Path
import GameRoster.Time

namespace GameRoster

structure AnimationDraft where
  files : String
  duration : Value
  fadeIn : Value
  rootMotion : Value
  weaponMotion : Value

/-- What a consumer requires of a clip. -/
structure AnimationLimits where
  rootMotion : Option Bool := none
  weaponMotion : Option Bool := none
deriving Repr, DecidableEq

structure Animation where
  files : String
  localId : Nat
  duration : Float
  fadeIn : Float
  rootMotion : Bool
  weaponMotion : Bool

open Document in
def AnimationDraft.shape : Shape :=
  .record "AnimationArgs" [required "files" .text, optional "duration" .value,
    optional "fade_in" .value, optional "root_motion" .value, optional "weapon_motion" .value]

open Document in
def AnimationDraft.ofNode? (format : Format) (node : Node) : Option AnimationDraft := do
  let fields ← node.record? format shape
  return {
    files := ← fields.text? "files"
    duration := ← fields.valueOrNull? "duration"
    fadeIn := ← fields.valueOrNull? "fade_in"
    rootMotion := ← fields.valueOrNull? "root_motion"
    weaponMotion := ← fields.valueOrNull? "weapon_motion" }

namespace Animation

/-- The local id of a clip that has no place in an action. -/
def unassigned : Nat := 65535

/-- The blend-in time of a clip that states none. -/
def defaultFadeIn : Float := 0.1

/-- A flag is off unless it is given. -/
def readFlag (expected : Option Bool) (loc : Location) (raw : Value) : Check Bool := do
  let flag ← Field.boolOr false loc raw
  match expected with
  | some b => if b = flag then return flag else Check.field loc (.clipFlag b)
  | none => return flag

def read (limits : AnimationLimits) (loc : Location) (draft : AnimationDraft) :
    Checked Animation := do
  let files ← Field.path {} (loc.field "files") draft.files
  let duration ← Field.time (.atLeast 0) (loc.field "duration") draft.duration
  let fadeIn ← Field.orElse defaultFadeIn (Field.time (.atLeast 0) (loc.field "fade_in"))
    draft.fadeIn
  let rootMotion ← readFlag limits.rootMotion (loc.field "root_motion") draft.rootMotion
  let weaponMotion ← readFlag limits.weaponMotion (loc.field "weapon_motion") draft.weaponMotion
  return { files, localId := unassigned, duration, fadeIn, rootMotion, weaponMotion }

/-- The local id of the clip at a place. -/
def idAt (place : Nat) : Nat := if place < unassigned then place else unassigned

/-- Numbers the clips from a place on. -/
def assignFrom : Nat → List (Option Animation) → List (Option Animation)
  | _, [] => []
  | place, slot :: rest =>
    slot.map (fun clip => { clip with localId := idAt place }) :: assignFrom (place + 1) rest

/-- Numbers the clips of an action by their places. -/
def assign (slots : List (Option Animation)) : List (Option Animation) := assignFrom 0 slots

/-- Numbers clips that stand one after another from a place on. -/
def number (place : Nat) (clips : List Animation) : List Animation :=
  (assignFrom place (clips.map some)).filterMap fun clip => clip

def fields (a : Animation) : List (String × Option Value) :=
  [("files", some (.string a.files)),
   ("local_id", some (.nat a.localId)),
   ("duration", some (.float a.duration)),
   ("fade_in", some (.float a.fadeIn)),
   ("root_motion", some (.bool a.rootMotion)),
   ("weapon_motion", some (.bool a.weaponMotion))]

def toValue (a : Animation) : Value := .ofOptionalFields a.fields

end Animation

end GameRoster
