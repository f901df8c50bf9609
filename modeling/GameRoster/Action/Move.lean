import GameRoster.Action.Animation
import GameRoster.Action.Base
import GameRoster.Plane
import GameRoster.Resource.Levels

namespace GameRoster

/-- The key that enters a move action. -/
inductive MoveKey
  | run
  | walk
  | dash
deriving Repr, DecidableEq

instance : Named MoveKey where
  all := [.run, .walk, .dash]
  name
    | .run => "Run"
    | .walk => "Walk"
    | .dash => "Dash"
  rule := .moveKey

structure MoveStartDraft where
  anim : AnimationDraft
  enterAngle : Value
  turnInPlaceEnd : Value
  quickStopEnd : Value

structure MoveTurnDraft where
  anim : AnimationDraft
  enterAngle : Value
  turnInPlaceEnd : Value

structure MoveStopDraft where
  anim : AnimationDraft
  enterPhaseTable : Value
  speedDownEnd : Value

structure ActionMoveDraft where
  enabled : Value
  character : String
  styles : List String
  enterKey : String
  enterLevel : Value
  deriveLevel : Value
  specialDeriveLevel : Value
  animMove : AnimationDraft
  moveSpeed : Value
  starts : List MoveStartDraft
  startTime : Value
  turns : List MoveTurnDraft
  turnTime : Value
  stops : List MoveStopDraft
  stopTime : Value
  quickStopTime : Value
  deriveKeeping : Value
  smoothMoveFroms : List String
  smoothMoveDuration : Value

/-- The clip for starting toward some angles, in radians. -/
structure MoveStart where
  anim : Animation
  enterAngle : Float × Float
  turnInPlaceEnd : Float
  quickStopEnd : Float

/-- The clip for turning toward some angles, in radians. -/
structure MoveTurn where
  anim : Animation
  enterAngle : Float × Float
  turnInPlaceEnd : Float

/-- A range of phases of the walk cycle, and where in a stop clip it leads. -/
structure PhaseRow where
  start : Float
  stop : Float
  offset : Float

structure MoveStop where
  anim : Animation
  enterPhaseTable : List PhaseRow
  speedDownEnd : Float

structure ActionMove where
  id : String
  base : ActionBase
  enterKey : MoveKey
  enterLevel : Int
  deriveLevel : Int
  /-- The derive level while turning in place or slowing down. -/
  specialDeriveLevel : Int
  animMove : Animation
  moveSpeed : Float
  starts : List MoveStart
  startTime : Float
  turns : List MoveTurn
  turnTime : Float
  stops : List MoveStop
  stopTime : Float
  quickStopTime : Float
  deriveKeeping : Bool
  poiseLevel : Int
  /-- The move actions that hand over without a start clip. -/
  smoothMoveFroms : List (Ref .action)
  smoothMoveDuration : Float

section Drafts
open Document

def MoveStartDraft.shape : Shape :=
  .record "ActionMoveStartArgs" [required "anim" AnimationDraft.shape,
    required "enter_angle" .value, optional "turn_in_place_end" .value,
    optional "quick_stop_end" .value]

def MoveStartDraft.ofNode? (format : Format) (node : Node) : Option MoveStartDraft := do
  let fields ← node.record? format shape
  return {
    anim := ← fields.get? "anim" (AnimationDraft.ofNode? format)
    enterAngle := ← fields.value? "enter_angle"
    turnInPlaceEnd := ← fields.valueOrNull? "turn_in_place_end"
    quickStopEnd := ← fields.valueOrNull? "quick_stop_end" }

def MoveTurnDraft.shape : Shape :=
  .record "ActionMoveTurnArgs" [required "anim" AnimationDraft.shape, required "enter_angle" .value,
    optional "turn_in_place_end" .value]

def MoveTurnDraft.ofNode? (format : Format) (node : Node) : Option MoveTurnDraft := do
  let fields ← node.record? format shape
  return {
    anim := ← fields.get? "anim" (AnimationDraft.ofNode? format)
    enterAngle := ← fields.value? "enter_angle"
    turnInPlaceEnd := ← fields.valueOrNull? "turn_in_place_end" }

def MoveStopDraft.shape : Shape :=
  .record "ActionMoveStopArgs" [required "anim" AnimationDraft.shape,
    required "enter_phase_table" .value, required "speed_down_end" .value]

def MoveStopDraft.ofNode? (format : Format) (node : Node) : Option MoveStopDraft := do
  let fields ← node.record? format shape
  return {
    anim := ← fields.get? "anim" (AnimationDraft.ofNode? format)
    enterPhaseTable := ← fields.value? "enter_phase_table"
    speedDownEnd := ← fields.value? "speed_down_end" }

def ActionMoveDraft.shape : Shape :=
  .record "ActionMoveArgs" [optional "enabled" .value, required "character" .text,
    required "styles" .texts, required "enter_key" .text, optional "enter_level" .value,
    optional "derive_level" .value, optional "special_derive_level" .value,
    required "anim_move" AnimationDraft.shape, required "move_speed" .value,
    optional "starts" (.list MoveStartDraft.shape), optional "start_time" .value,
    optional "turns" (.list MoveTurnDraft.shape), optional "turn_time" .value,
    optional "stops" (.list MoveStopDraft.shape), optional "stop_time" .value,
    optional "quick_stop_time" .value, optional "derive_keeping" .value,
    optional "smooth_move_froms" .texts, optional "smooth_move_duration" .value]

def ActionMoveDraft.ofNode? (format : Format) (node : Node) : Option ActionMoveDraft := do
  let fields ← node.record? format shape
  return {
    enabled := ← fields.valueOrNull? "enabled"
    character := ← fields.text? "character"
    styles := ← fields.texts? "styles"
    enterKey := ← fields.text? "enter_key"
    enterLevel := ← fields.valueOrNull? "enter_level"
    deriveLevel := ← fields.valueOrNull? "derive_level"
    specialDeriveLevel := ← fields.valueOrNull? "special_derive_level"
    animMove := ← fields.get? "anim_move" (AnimationDraft.ofNode? format)
    moveSpeed := ← fields.value? "move_speed"
    starts := ← fields.getD? "starts" (Node.list? (MoveStartDraft.ofNode? format)) []
    startTime := ← fields.valueOrNull? "start_time"
    turns := ← fields.getD? "turns" (Node.list? (MoveTurnDraft.ofNode? format)) []
    turnTime := ← fields.valueOrNull? "turn_time"
    stops := ← fields.getD? "stops" (Node.list? (MoveStopDraft.ofNode? format)) []
    stopTime := ← fields.valueOrNull? "stop_time"
    quickStopTime := ← fields.valueOrNull? "quick_stop_time"
    deriveKeeping := ← fields.valueOrNull? "derive_keeping"
    smoothMoveFroms := ← fields.getD? "smooth_move_froms" Node.texts? []
    smoothMoveDuration := ← fields.valueOrNull? "smooth_move_duration" }

end Drafts

namespace ActionMove

/-- The clips drive the movement. -/
def moving : AnimationLimits := { rootMotion := some true }

/-- A number of animation frames in seconds. -/
def frames (n : Float) : Float := n / framesPerSecond

/-- A time of at least zero, or `default` when it is left out. -/
def timeOr (default : Float) (loc : Location) (raw : Value) : Checked Float :=
  Field.orElse default (Field.time (.atLeast 0) loc) raw

/-- A quick stop is possible up to half the clip unless its author says otherwise. -/
def readStart (loc : Location) (draft : MoveStartDraft) : Checked MoveStart := do
  let anim ← Animation.read moving loc draft.anim
  let enterAngle ← Field.angleRange {} (loc.field "enter_angle") draft.enterAngle
  let turnInPlaceEnd ← timeOr 0 (loc.field "turn_in_place_end") draft.turnInPlaceEnd
  let quickStopEnd ← timeOr (anim.duration / 2) (loc.field "quick_stop_end") draft.quickStopEnd
  return { anim, enterAngle, turnInPlaceEnd, quickStopEnd }

def readTurn (loc : Location) (draft : MoveTurnDraft) : Checked MoveTurn := do
  let anim ← Animation.read moving loc draft.anim
  let enterAngle ← Field.angleRange {} (loc.field "enter_angle") draft.enterAngle
  let turnInPlaceEnd ← Field.orElse 0
    (Field.time (.between 0 anim.duration) (loc.field "turn_in_place_end")) draft.turnInPlaceEnd
  return { anim, enterAngle, turnInPlaceEnd }

/-- Phases lie between zero and one, and offsets inside the clip. -/
def readPhaseRow (duration : Float) (loc : Location) (raw : Value) : Checked PhaseRow := do
  match ← Field.list (.exactly 3) loc raw with
  | [start, stop, offset] =>
    let start ← Field.float (.between 0 1) (loc.index 0) start
    let stop ← Field.float (.between 0 1) (loc.index 1) stop
    let offset ← Field.time (.between 0 duration) (loc.index 2) offset
    return { start, stop, offset }
  | _ => Checked.fail (.field loc (.lengthIs 3))

def readPhaseTable (duration : Float) (loc : Location) (raw : Value) :
    Checked (List PhaseRow) := do
  let rows ← Field.list (.atLeast 1) loc raw
  loc.each (readPhaseRow duration) rows

def readStop (loc : Location) (draft : MoveStopDraft) : Checked MoveStop := do
  let anim ← Animation.read moving loc draft.anim
  let enterPhaseTable ← readPhaseTable anim.duration (loc.field "enter_phase_table")
    draft.enterPhaseTable
  let speedDownEnd ← Field.time (.atLeast 0) (loc.field "speed_down_end") draft.speedDownEnd
  return { anim, enterPhaseTable, speedDownEnd }

/-- Every clip of a move action, in the order of their places. -/
def clips (a : ActionMove) : List Animation :=
  a.animMove :: a.starts.map MoveStart.anim ++ a.turns.map MoveTurn.anim ++
    a.stops.map MoveStop.anim

/-- Gives each item the local id of its place, counted on from the first one. -/
def numberFrom {α : Type} (place : Nat → α → α) : Nat → List α → List α
  | _, [] => []
  | i, item :: rest => place i item :: numberFrom place (i + 1) rest

def placed (i : Nat) (clip : Animation) : Animation := { clip with localId := Animation.idAt i }

/-- Numbers the clips by their places: the loop, then starts, turns and stops. -/
def numbered (a : ActionMove) : ActionMove :=
  let turnsFrom := 1 + a.starts.length
  let stopsFrom := turnsFrom + a.turns.length
  { a with
    animMove := placed 0 a.animMove
    starts := numberFrom (fun i s => { s with anim := placed i s.anim }) 1 a.starts
    turns := numberFrom (fun i t => { t with anim := placed i t.anim }) turnsFrom a.turns
    stops := numberFrom (fun i s => { s with anim := placed i s.anim }) stopsFrom a.stops }

def build (id : String) (draft : ActionMoveDraft) : Checked ActionMove := do
  let loc := Location.ofResource id
  let base ← ActionBase.read id draft.enabled draft.character draft.styles
  let enterKey ← (Named.read (loc "enter_key") draft.enterKey : Check MoveKey)
  let animMove ← Animation.read moving (loc "anim_move") draft.animMove
  let starts ← (loc "starts").each readStart draft.starts
  let turns ← (loc "turns").each readTurn draft.turns
  let stops ← (loc "stops").each readStop draft.stops
  let deriveKeeping ← Field.boolOr true (loc "derive_keeping") draft.deriveKeeping
  let enterLevel ← Level.readOr Level.move (loc "enter_level") draft.enterLevel
  let deriveLevel ← Level.readOr (Level.move - 10) (loc "derive_level") draft.deriveLevel
  let specialDeriveLevel ← Level.readOr (Level.move + 10) (loc "special_derive_level")
    draft.specialDeriveLevel
  let moveSpeed ← Field.float (.between 0 1000) (loc "move_speed") draft.moveSpeed
  let startTime ← timeOr (frames 4) (loc "start_time") draft.startTime
  let turnTime ← timeOr (frames 10) (loc "turn_time") draft.turnTime
  let stopTime ← timeOr (frames 6) (loc "stop_time") draft.stopTime
  let quickStopTime ← timeOr 0 (loc "quick_stop_time") draft.quickStopTime
  let smoothMoveFroms ← Ref.distinct .action (loc "smooth_move_froms") draft.smoothMoveFroms
  let smoothMoveDuration ← timeOr (frames 10) (loc "smooth_move_duration")
    draft.smoothMoveDuration
  return numbered {
    id, base, enterKey, enterLevel, deriveLevel, specialDeriveLevel, animMove, moveSpeed, starts
    startTime, turns, turnTime, stops, stopTime, quickStopTime, deriveKeeping
    poiseLevel := 0
    smoothMoveFroms, smoothMoveDuration }

def startValue (s : MoveStart) : Value :=
  .ofOptionalFields (s.anim.fields ++
    [("enter_angle", some (floatPair s.enterAngle)),
     ("turn_in_place_end", some (.float s.turnInPlaceEnd)),
     ("quick_stop_end", some (.float s.quickStopEnd))])

def turnValue (t : MoveTurn) : Value :=
  .ofOptionalFields (t.anim.fields ++
    [("enter_angle", some (floatPair t.enterAngle)),
     ("turn_in_place_end", some (.float t.turnInPlaceEnd))])

def phaseRowValue (row : PhaseRow) : Value :=
  .array [.float row.start, .float row.stop, .float row.offset]

def stopValue (s : MoveStop) : Value :=
  .ofOptionalFields (s.anim.fields ++
    [("enter_phase_table", some (.array (s.enterPhaseTable.map phaseRowValue))),
     ("speed_down_end", some (.float s.speedDownEnd))])

def fields (a : ActionMove) : List (String × Option Value) :=
  [("id", some (.string a.id))] ++ a.base.fields ++
  [("enter_key", some (Named.toValue a.enterKey)),
   ("enter_level", some (.int a.enterLevel)),
   ("derive_level", some (.int a.deriveLevel)),
   ("special_derive_level", some (.int a.specialDeriveLevel)),
   ("anim_move", some a.animMove.toValue),
   ("move_speed", some (.float a.moveSpeed)),
   ("starts", some (.array (a.starts.map startValue))),
   ("start_time", some (.float a.startTime)),
   ("turns", some (.array (a.turns.map turnValue))),
   ("turn_time", some (.float a.turnTime)),
   ("stops", some (.array (a.stops.map stopValue))),
   ("stop_time", some (.float a.stopTime)),
   ("quick_stop_time", some (.float a.quickStopTime)),
   ("derive_keeping", some (.bool a.deriveKeeping)),
   ("poise_level", some (.int a.poiseLevel)),
   ("smooth_move_froms", some (refs a.smoothMoveFroms)),
   ("smooth_move_duration", some (.float a.smoothMoveDuration))]

end ActionMove

end GameRoster
