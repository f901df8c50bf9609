import GameRoster.Action.General
import GameRoster.Proofs.Declared

namespace GameRoster

namespace Field

theorem int_between {limits : IntLimits} {lo hi : Int} (hl : limits.least = some lo)
    (hg : limits.greatest = some hi) (hlo : Numeric.Representable lo)
    (hhi : Numeric.Representable hi) (loc : Location) (raw : Value) :
    Check.Yields (fun n => lo ≤ n ∧ n ≤ hi) (int limits loc raw) :=
  fun n hn => ⟨int_least hl hlo loc raw n hn, int_greatest hg hhi loc raw n hn⟩

end Field

namespace Setting

theorem read_all {α : Type} {P : α → Prop} {one : Location → Value → Check α}
    {many : Lengths → Location → Value → Check (List α)}
    (hone : ∀ loc raw, Check.Yields P (one loc raw))
    (hmany : ∀ lengths loc raw, Check.Yields (fun items => ∀ a ∈ items, P a)
      (many lengths loc raw)) (limits : BindingLimits) (loc : Location) (raw : Value) :
    Check.Yields (fun setting => ∀ a ∈ setting.candidates, P a)
      (read limits one many loc raw) := by
  unfold read
  split
  · exact .step fun _ => .bind fun values hvalues => .pure (hmany _ _ _ values hvalues)
  · split
    · exact .fault
    · exact .bind fun a ha => .pure (List.forall_mem_singleton.mpr (hone _ _ a ha))

/-- Every candidate of an integer setting is as the integer field yields it. -/
theorem int_all {P : Int → Prop} {item : IntLimits}
    (h : ∀ loc raw, Check.Yields P (Field.int item loc raw)) (limits : BindingLimits)
    (loc : Location) (raw : Value) :
    Check.Yields (fun setting => ∀ n ∈ setting.candidates, P n) (int limits item loc raw) :=
  read_all h (fun lengths => Field.numbers_all h lengths .any) limits loc raw

end Setting

theorem Level.readSetting_bounds (loc : Location) (raw : Value) :
    Check.Yields (fun level => ∀ n ∈ level.candidates, 0 ≤ n ∧ n ≤ 600)
      (Level.readSetting loc raw) :=
  Setting.int_all
    (Field.int_between rfl rfl (.of_natAbs (by decide)) (.of_natAbs (by decide))) _ _ _

theorem PhaseAttributes.read_poise (loc : Location) (raw : Value) :
    Check.Yields (fun phase => ∀ n ∈ phase.poiseLevel.candidates, 0 ≤ n ∧ n ≤ 4)
      (PhaseAttributes.read loc raw) := by
  unfold PhaseAttributes.read
  iterate 3 refine .step fun _ => ?_
  refine .bind fun poise hpoise => .pure ?_
  unfold readPoise at hpoise
  split at hpoise
  · exact Setting.int_all (Field.int_between rfl rfl (.of_natAbs (by decide))
      (.of_natAbs (by decide))) _ _ _ poise hpoise
  · obtain rfl := Except.ok.inj hpoise
    simp [Setting.candidates]

theorem Animation.read_duration (limits : AnimationLimits) (loc : Location)
    (draft : AnimationDraft) :
    Check.Yields (fun clip => clip.duration.isNaN = false)
      (Animation.read limits loc draft).result := by
  unfold Animation.read
  simp only [Checked.result_bind]
  refine .step fun files => .bind fun duration hduration => ?_
  iterate 3 refine .step fun _ => ?_
  exact .pure (Field.time_permits _ _ _ duration hduration).number

namespace ActionGeneral

/-- There is always a charge to store, and never a negative number of them at the start, even where
that number is not stated. -/
theorem readCoolDown_bounds (id : String) (draft : ActionGeneralDraft) :
    Check.Yields (fun c : CoolDown =>
      (∀ n ∈ c.rounds.candidates, 1 ≤ n) ∧ ∀ n ∈ c.initRounds.candidates, 0 ≤ n)
      (readCoolDown id draft) := by
  unfold readCoolDown
  refine .step fun time => .bind fun rounds hrounds => .bind fun initRounds hinit => .pure ?_
  have hpos : ∀ n ∈ rounds.candidates, 1 ≤ n :=
    Field.orElse_yields (by simp [Setting.candidates]) (Setting.int_all Field.int_pos {} _) _
      rounds hrounds
  have hnonneg : ∀ n ∈ rounds.candidates, 0 ≤ n :=
    fun n hn => Int.le_trans (by decide) (hpos n hn)
  exact ⟨hpos, Field.orElse_yields hnonneg (Setting.int_all Field.int_nonneg {} _) _
    initRounds hinit⟩

/-- What the runtime relies on while the clip of an action plays. -/
structure WellTimed (a : ActionGeneral) : Prop where
  duration : 0 < a.animMain.duration
  /-- No instant of the clip is without an attribute phase, and no other time has one. -/
  attributes : a.attributes.HoldsUntil a.animMain.duration
  /-- Derive levels go on for some part of the tail, perhaps none of it. -/
  deriveLevels : ∃ stop, a.animMain.duration ≤ stop ∧ stop ≤ a.animMain.duration + deriveTail ∧
    a.deriveLevels.HoldsUntil stop
  inputMovements : ∀ timeline ∈ a.inputMovements, timeline.Within a.animMain.duration
  customEvents : ∀ timeline ∈ a.customEvents, timeline.Within a.animMain.duration
  levels : ∀ level ∈ a.deriveLevels.values, ∀ n ∈ level.candidates, 0 ≤ n ∧ n ≤ 600
  poise : ∀ phase ∈ a.attributes.values, ∀ n ∈ phase.poiseLevel.candidates, 0 ≤ n ∧ n ≤ 4
  rounds : ∀ n ∈ a.coolDown.rounds.candidates, 1 ≤ n
  initRounds : ∀ n ∈ a.coolDown.initRounds.candidates, 0 ≤ n

/-- A timeline without a tail ends with the clip. -/
theorem attributes_hold {duration : Float} (hd : duration.isNaN = false) {V : Type}
    (item : Location → Value → Checked V) (loc : Location) (raw : Value) :
    Check.Yields (fun timeline => 0 < duration ∧ timeline.HoldsUntil duration)
      (Timeline.Ranges.read { duration } item loc raw).result := by
  intro timeline h
  have hnumbers : Timeline.FragmentLimits.Numbers { duration } := ⟨hd, by simp⟩
  obtain ⟨stop, hpos, hend, hholds⟩ := Timeline.Ranges.read_holds hnumbers item loc raw timeline h
  simp only [Timeline.Fragment.endsWell, Timeline.Fragment.isSame, Bool.and_eq_true,
    decide_eq_true_eq] at hend
  obtain ⟨hle, hge⟩ := hend
  exact ⟨Numeric.lt_of_lt_of_le hpos hle, hholds.same hle hge⟩

/-- A timeline with a tail ends somewhere in the tail. -/
theorem deriveLevels_hold {duration : Float} (hd : duration.isNaN = false) {V : Type}
    (item : Location → Value → Checked V) (loc : Location) (raw : Value) :
    Check.Yields (fun timeline => ∃ stop, duration ≤ stop ∧ stop ≤ duration + deriveTail ∧
      timeline.HoldsUntil stop)
      (Timeline.Ranges.read { duration, overDuration := some (duration + deriveTail) } item loc
        raw).result := by
  intro timeline h
  have htail : (duration + deriveTail).isNaN = false := Numeric.add_isNaN hd (by decide +kernel)
  have hnumbers : Timeline.FragmentLimits.Numbers
      { duration, overDuration := some (duration + deriveTail) } := ⟨hd, by simpa using htail⟩
  obtain ⟨stop, _, hend, hholds⟩ := Timeline.Ranges.read_holds hnumbers item loc raw timeline h
  simp only [Timeline.Fragment.endsWell, Bool.and_eq_true, decide_eq_true_eq] at hend
  exact ⟨stop, hend.1, hend.2, hholds⟩

/-- Whatever ranges an action is built from, and in whichever notation, its timelines answer at
every instant that the runtime may ask about, within the bounds of what they hold. -/
theorem build_wellTimed {id : String} {draft : ActionGeneralDraft} {a : ActionGeneral}
    (h : (build id draft).result = .ok a) : a.WellTimed := by
  revert a
  change Check.Yields WellTimed _
  unfold build
  simp only [Checked.result_bind, Field.result_optional]
  refine .step fun base => .bind fun clip hclip => ?_
  refine .step fun enterKey => .step fun enterLevel => .bind fun coolDown hcool => ?_
  refine .bind fun inputMovements hinputs => .bind fun attributes hattributes => ?_
  refine .bind fun deriveLevels hlevels => .step fun derives => .step fun deriveContinues => ?_
  refine .bind fun customEvents hevents => .pure ?_
  have hd := Animation.read_duration _ _ _ clip hclip
  obtain ⟨hpos, hholds⟩ := attributes_hold hd _ _ _ attributes hattributes
  have hcounts := readCoolDown_bounds id draft coolDown hcool
  constructor
  case duration => exact hpos
  case attributes => exact hholds
  case deriveLevels => exact deriveLevels_hold hd _ _ _ deriveLevels hlevels
  case inputMovements =>
    exact Field.optional_yields (Timeline.Points.read_within hd _ _) _ inputMovements hinputs
  case customEvents =>
    exact Field.optional_yields (Timeline.Points.read_within hd _ _) _ customEvents hevents
  case levels =>
    exact Timeline.Ranges.read_values Level.readSetting_bounds _ _ _ deriveLevels hlevels
  case poise =>
    exact Timeline.Ranges.read_values PhaseAttributes.read_poise _ _ _ attributes hattributes
  case rounds => exact hcounts.1
  case initRounds => exact hcounts.2

/-- An attack of one second, written with ranges that overlap and one that takes no time. Its derive
levels outlive the clip, and two points of each timeline share an instant. -/
def volley : ActionGeneralDraft where
  enabled := .null
  character := "Character.Ada"
  styles := ["Style.Ada.Bow"]
  animMain := .archer "volley" true
  enterKey := .string "Attack2"
  enterLevel := .null
  coolDownTime := .null
  coolDownRound := .array [.string "#.Might", .array [.int 1, .int 2]]
  coolDownInitRound := .null
  inputMovements := .array [
    .object [("time", .string "30F"), ("move", .bool true)],
    .object [("time", .int 0), ("angle", .string "L45"), ("duration", .string "100ms")],
    .object [("time", .string "0.5s"), ("angle", .int 90), ("duration", .int 0)]]
  attributes := .array [
    .object [("time", .string "0-1s"), ("poise_level", .int 1)],
    .object [("time", .string "0.5s-0.5s"), ("poise_level", .int 4)],
    .object [("time", .string "12F-500ms"),
      ("poise_level", .array [.string "#.Might", .array [.int 2, .int 3]])]]
  deriveLevels := .object [("0-3s", .int 600), ("30F-1s", .int 0)]
  derives := none
  deriveContinues := .null
  customEvents := .object [("1s", .string "last"), ("0s", .string "first")]

theorem volley_wellTimed : ∃ a, (build "Action.Ada.Volley" volley).result = .ok a ∧
    a.WellTimed := by
  have h : (build "Action.Ada.Volley" volley).result.toBool = true := by decide +kernel
  cases hb : (build "Action.Ada.Volley" volley).result with
  | error fault => rw [hb] at h; cases h
  | ok a => exact ⟨a, rfl, build_wellTimed hb⟩

end ActionGeneral

end GameRoster
