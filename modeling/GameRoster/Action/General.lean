import GameRoster.Action.Animation
import GameRoster.Action.Derive
import GameRoster.Action.InputMovement
import GameRoster.Action.Phase
import GameRoster.Field.Text
import GameRoster.Timeline.Points

namespace GameRoster

structure ActionGeneralDraft where
  enabled : Value
  character : String
  styles : List String
  animMain : AnimationDraft
  enterKey : Value
  enterLevel : Value
  coolDownTime : Value
  coolDownRound : Value
  coolDownInitRound : Value
  inputMovements : Value
  attributes : Value
  deriveLevels : Value
  derives : Option (List DeriveRuleDraft)
  deriveContinues : Value
  customEvents : Value

/-- How often an action can be used. -/
structure CoolDown where
  /-- The time to recover one charge. -/
  time : Setting Float
  /-- How many charges can be stored. -/
  rounds : Setting Int
  /-- How many charges there are at the start. -/
  initRounds : Setting Int

structure ActionGeneral where
  id : String
  base : ActionBase
  animMain : Animation
  /-- The key that enters this action from anywhere. -/
  enterKey : Option KeyInput
  enterLevel : Int
  coolDown : CoolDown
  inputMovements : Option (Timeline.Points InputMovement)
  attributes : Timeline.Ranges PhaseAttributes
  deriveLevels : Timeline.Ranges (Setting Int)
  derives : Option (List DeriveRule)
  deriveContinues : Option (Setting (List DeriveContinue))
  customEvents : Option (Timeline.Points (Setting String))

open Document in
def ActionGeneralDraft.shape : Shape :=
  .record "ActionGeneralArgs" [optional "enabled" .value, required "character" .text,
    required "styles" .texts, required "anim_main" AnimationDraft.shape,
    optional "enter_key" .value, optional "enter_level" .value, optional "cool_down_time" .value,
    optional "cool_down_round" .value, optional "cool_down_init_round" .value,
    optional "input_movements" .value, required "attributes" .value,
    required "derive_levels" .value, optional "derives" (.option (.list DeriveRuleDraft.shape)),
    optional "derive_continues" .value, optional "custom_events" .value]

open Document in
def ActionGeneralDraft.ofNode? (format : Format) (node : Node) : Option ActionGeneralDraft := do
  let fields ← node.record? format shape
  let rules := Node.option? (Node.list? (DeriveRuleDraft.ofNode? format))
  return {
    enabled := ← fields.valueOrNull? "enabled"
    character := ← fields.text? "character"
    styles := ← fields.texts? "styles"
    animMain := ← fields.get? "anim_main" (AnimationDraft.ofNode? format)
    enterKey := ← fields.valueOrNull? "enter_key"
    enterLevel := ← fields.valueOrNull? "enter_level"
    coolDownTime := ← fields.valueOrNull? "cool_down_time"
    coolDownRound := ← fields.valueOrNull? "cool_down_round"
    coolDownInitRound := ← fields.valueOrNull? "cool_down_init_round"
    inputMovements := ← fields.valueOrNull? "input_movements"
    attributes := ← fields.value? "attributes"
    deriveLevels := ← fields.value? "derive_levels"
    derives := ← fields.getD? "derives" rules none
    deriveContinues := ← fields.valueOrNull? "derive_continues"
    customEvents := ← fields.valueOrNull? "custom_events" }

namespace ActionGeneral

/-- How long derive levels may go on after the clip has ended, in seconds. -/
def deriveTail : Float := 5

/-- The clip drives the movement. -/
def moving : AnimationLimits := { rootMotion := some true }

/-- A script event, which may depend on a variable. -/
def readEvent (loc : Location) (raw : Value) : Check (Setting String) :=
  Setting.read {} (Field.textOfValue {})
    (fun lengths => Field.listOf lengths (Field.textOfValue {})) loc raw

/-- Rules that may be left out altogether. -/
def readRules (loc : Location) : Option (List DeriveRuleDraft) → Check (Option (List DeriveRule))
  | none => .ok none
  | some drafts => do return some (← loc.each DeriveRule.read drafts)

def readEnterKey (loc : Location) (raw : Value) : Check (Option KeyInput) :=
  Field.optional (KeyInput.read loc) raw

/-- One charge, recovered at once, unless its author says otherwise. All charges that can be
stored are there at the start unless they are counted. -/
def readCoolDown (id : String) (draft : ActionGeneralDraft) : Check CoolDown := do
  let loc := Location.ofResource id
  let time ← Field.orElse (.fixed 0) (Setting.float {} (.atLeast 0) (loc "cool_down_time"))
    draft.coolDownTime
  let rounds ← Field.orElse (.fixed 1) (Setting.int {} (.atLeast 1) (loc "cool_down_round"))
    draft.coolDownRound
  let initRounds ← Field.orElse rounds
    (Setting.int {} (.atLeast 0) (loc "cool_down_init_round")) draft.coolDownInitRound
  return { time, rounds, initRounds }

def readContinues (loc : Location) (raw : Value) :
    Check (Option (Setting (List DeriveContinue))) :=
  Field.optional (DeriveContinue.readSetting loc) raw

def build (id : String) (draft : ActionGeneralDraft) : Checked ActionGeneral := do
  let loc := Location.ofResource id
  let base ← ActionBase.read id draft.enabled draft.character draft.styles
  let clip ← Animation.read moving (loc "anim_main") draft.animMain
  let animMain := { clip with localId := Animation.idAt 0 }
  let duration := animMain.duration
  let enterKey ← readEnterKey (loc "enter_key") draft.enterKey
  let enterLevel ← Level.readOr Level.idle (loc "enter_level") draft.enterLevel
  let coolDown ← readCoolDown id draft
  let inputMovements ← Field.optional
    (Timeline.Points.read duration InputMovement.read (loc "input_movements")) draft.inputMovements
  let attributes ← Timeline.Ranges.read { duration }
    (fun loc raw => Checked.ofCheck (PhaseAttributes.read loc raw)) (loc "attributes")
    draft.attributes
  let deriveLevels ← Timeline.Ranges.read
    { duration, overDuration := some (duration + deriveTail) }
    (fun loc raw => Checked.ofCheck (Level.readSetting loc raw)) (loc "derive_levels")
    draft.deriveLevels
  let derives ← readRules (loc "derives") draft.derives
  let deriveContinues ← readContinues (loc "derive_continues") draft.deriveContinues
  let customEvents ← Field.optional
    (Timeline.Points.read duration (fun loc raw => Checked.ofCheck (readEvent loc raw))
      (loc "custom_events")) draft.customEvents
  return { id, base, animMain, enterKey, enterLevel, coolDown, inputMovements, attributes,
           deriveLevels, derives, deriveContinues, customEvents }

def fields (a : ActionGeneral) : List (String × Option Value) :=
  [("id", some (.string a.id))] ++ a.base.fields ++
  [("anim_main", some a.animMain.toValue),
   ("enter_key", a.enterKey.map KeyInput.toValue),
   ("enter_level", some (.int a.enterLevel)),
   ("cool_down_time", some (a.coolDown.time.toValue .float)),
   ("cool_down_round", some (a.coolDown.rounds.toValue .int)),
   ("cool_down_init_round", some (a.coolDown.initRounds.toValue .int)),
   ("input_movements", a.inputMovements.map (·.toValue InputMovement.toValue)),
   ("attributes", some (a.attributes.toValue PhaseAttributes.toValue)),
   ("derive_levels", some (a.deriveLevels.toValue (·.toValue .int))),
   ("derives", a.derives.map fun rules => .array (rules.map DeriveRule.toValue)),
   ("derive_continues", a.deriveContinues.map (·.toValue DeriveContinue.setValue)),
   ("custom_events", a.customEvents.map (·.toValue (·.toValue .string)))]

end ActionGeneral

end GameRoster
