import GameRoster.Action.Animation
import GameRoster.Action.Base

namespace GameRoster

structure ActionIdleDraft where
  enabled : Value
  character : String
  styles : List String
  animIdle : AnimationDraft
  animReady : Option AnimationDraft
  animRandoms : Option (List AnimationDraft)
  autoIdleDelay : Value
  deriveKeeping : Value

structure ActionIdle where
  id : String
  base : ActionBase
  animIdle : Animation
  animReady : Option Animation
  animRandoms : Option (List Animation)
  /-- The time after which the stance in combat falls back. -/
  autoIdleDelay : Float
  enterLevel : Int
  deriveLevel : Int
  deriveKeeping : Bool
  poiseLevel : Int

open Document in
def ActionIdleDraft.shape : Shape :=
  .record "ActionIdleArgs" [optional "enabled" .value, required "character" .text,
    required "styles" .texts, required "anim_idle" AnimationDraft.shape,
    optional "anim_ready" (.option AnimationDraft.shape),
    optional "anim_randoms" (.option (.list AnimationDraft.shape)),
    optional "auto_idle_delay" .value, optional "derive_keeping" .value]

open Document in
def ActionIdleDraft.ofNode? (format : Format) (node : Node) : Option ActionIdleDraft := do
  let fields ← node.record? format shape
  let clip := AnimationDraft.ofNode? format
  return {
    enabled := ← fields.valueOrNull? "enabled"
    character := ← fields.text? "character"
    styles := ← fields.texts? "styles"
    animIdle := ← fields.get? "anim_idle" clip
    animReady := ← fields.getD? "anim_ready" (Node.option? clip) none
    animRandoms := ← fields.getD? "anim_randoms" (Node.option? (Node.list? clip)) none
    autoIdleDelay := ← fields.valueOrNull? "auto_idle_delay"
    deriveKeeping := ← fields.valueOrNull? "derive_keeping" }

namespace ActionIdle

def defaultAutoIdleDelay : Float := 10

/-- Idle clips stand still. -/
def still : AnimationLimits := { rootMotion := some false }

/-- Reads clips that may be left out altogether. -/
def readClips (loc : Location) : Option (List AnimationDraft) → Checked (Option (List Animation))
  | none => pure none
  | some drafts => do return some (← loc.each (Animation.read still) drafts)

def readClip (loc : Location) : Option AnimationDraft → Checked (Option Animation)
  | none => pure none
  | some draft => do return some (← Animation.read still loc draft)

/-- The places of an idle action: the two stances, then the fidgets. -/
def slots (a : ActionIdle) : List (Option Animation) :=
  some a.animIdle :: a.animReady :: (a.animRandoms.getD []).map some

/-- Numbers the clips by their places. The stance in combat has a place even when it is absent. -/
def numbered (a : ActionIdle) : ActionIdle :=
  { a with
    animIdle := { a.animIdle with localId := Animation.idAt 0 }
    animReady := a.animReady.map fun clip => { clip with localId := Animation.idAt 1 }
    animRandoms := a.animRandoms.map (Animation.number 2) }

def build (id : String) (draft : ActionIdleDraft) : Checked ActionIdle := do
  let loc := Location.ofResource id
  let base ← ActionBase.read id draft.enabled draft.character draft.styles
  let animIdle ← Animation.read still (loc "anim_idle") draft.animIdle
  let animReady ← readClip (loc "anim_ready") draft.animReady
  let animRandoms ← readClips (loc "anim_randoms") draft.animRandoms
  let autoIdleDelay ← Field.orElse defaultAutoIdleDelay
    (Field.time (.atLeast 0) (loc "auto_idle_delay")) draft.autoIdleDelay
  let deriveKeeping ← Field.boolOr true (loc "derive_keeping") draft.deriveKeeping
  return numbered {
    id, base, animIdle, animReady, animRandoms, autoIdleDelay
    enterLevel := Level.idle
    deriveLevel := Level.idle
    deriveKeeping
    poiseLevel := 0 }

def fields (a : ActionIdle) : List (String × Option Value) :=
  [("id", some (.string a.id))] ++ a.base.fields ++
  [("anim_idle", some a.animIdle.toValue),
   ("anim_ready", a.animReady.map Animation.toValue),
   ("anim_randoms", a.animRandoms.map fun clips => .array (clips.map Animation.toValue)),
   ("auto_idle_delay", some (.float a.autoIdleDelay)),
   ("enter_level", some (.int a.enterLevel)),
   ("derive_level", some (.int a.deriveLevel)),
   ("derive_keeping", some (.bool a.deriveKeeping)),
   ("poise_level", some (.int a.poiseLevel))]

end ActionIdle

end GameRoster
