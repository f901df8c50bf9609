import GameRoster.Action.General
import GameRoster.Action.Idle
import GameRoster.Action.Move
import GameRoster.Proofs.Directions

namespace GameRoster

open Numeric (AllFinite BothFinite)
open Value (AllPlain)

/-- Every value in a table is finite. -/
def AttributeTable.Finite (table : AttributeTable) : Prop := ∀ row ∈ table, AllFinite row.2

namespace AttributeTable

theorem row_finite (groups : List Attribute.Group) {limits : RowLimits}
    (hfirst : ∀ x ∈ limits.first, x.isFinite = true) (loc : Location) (name : String)
    {raw : Value} (h : raw.plain = true) :
    Check.Yields (fun row => AllFinite row.2) (row groups limits loc name raw) := by
  intro r hr
  obtain ⟨-, -, hvalues⟩ := row_ok hr
  exact Field.numbers_plain (Field.float_isFinite _) _ _ hfirst loc h r.2 hvalues

theorem read_finite (groups : List Attribute.Group) {limits : RowLimits}
    (hfirst : ∀ x ∈ limits.first, x.isFinite = true) (loc : Location) (raw : Value)
    (h : raw.plain = true) : Check.Yields Finite (read groups limits loc raw) := by
  unfold read
  refine .bind fun fields hfields => ?_
  have hplain := Field.object_plain loc h fields hfields
  exact Location.eachKey_mem
    (fun field hf loc => row_finite groups hfirst loc field.1 (hplain field hf).2) loc

theorem readPlus_finite (groups : List Attribute.Group) {limits : RowLimits}
    (hfirst : ∀ x ∈ limits.first, x.isFinite = true) (loc : Location) (raw : Value)
    (h : raw.plain = true) :
    Check.Yields (fun tables : Option AttributeTable × Option AttributeTable =>
      (∀ table ∈ tables.1, Finite table) ∧ ∀ table ∈ tables.2, Finite table)
      (readPlus groups limits loc raw) :=
  readPlus_all (read_finite groups hfirst loc raw h)

end AttributeTable

namespace Setting

/-- Every candidate of a setting is finite. -/
def Finite (setting : Setting Float) : Prop := AllFinite setting.candidates

theorem binding_plain {raw values : Value} {id : String} (h : raw.plain = true)
    (hb : binding? raw = some (id, values)) : values.plain = true := by
  unfold binding? at hb
  split at hb
  · rename_i name rest
    split at hb
    · obtain ⟨_, rfl⟩ := Prod.mk.inj (Option.some.inj hb)
      cases rest with
      | nil => rfl
      | cons first rest => exact Value.plain_array.mp h first (by simp)
    · cases hb
  · cases hb

theorem float_finite (limits : BindingLimits) (item : FloatLimits) (loc : Location) {raw : Value}
    (h : raw.plain = true) : Check.Yields Finite (float limits item loc raw) := by
  unfold float read
  split
  · rename_i id values hb
    refine .step fun id => .bind fun xs hxs => .pure ?_
    exact Field.floats_allFinite item _ _ values (binding_plain h hb) xs hxs
  · split
    · exact .fault
    · refine .bind fun x hx => .pure (List.forall_mem_singleton.mpr ?_)
      exact Field.float_isFinite item loc raw h x hx

end Setting

structure Capsule.Finite (c : Capsule) : Prop where
  halfHeight : c.halfHeight.isFinite = true
  radius : c.radius.isFinite = true

theorem Capsule.ofDraft_finite {draft : CapsuleDraft} (hheight : draft.halfHeight.plain = true)
    (hradius : draft.radius.plain = true) (loc : Location) :
    Check.Yields Capsule.Finite (Capsule.ofDraft draft loc) := by
  unfold Capsule.ofDraft
  refine .bind fun halfHeight hh => .bind fun radius hr => .pure ?_
  exact ⟨Field.float_isFinite _ _ _ hheight halfHeight hh,
    Field.float_isFinite _ _ _ hradius radius hr⟩

structure PhaseAttributes.Finite (a : PhaseAttributes) : Prop where
  damageReduction : a.damageReduction.Finite
  shieldDamageReduction : a.shieldDamageReduction.Finite

theorem Value.plain_given {raw value : Value} {name : String} (h : raw.plain = true)
    (hg : (raw.field? name).bind Field.present? = some value) : value.plain = true := by
  obtain ⟨field, hf, hp⟩ := Option.bind_eq_some_iff.mp hg
  obtain rfl := Field.present_eq hp
  exact plain_field h hf

theorem Value.plain_fieldOr {raw : Value} {name : String} (h : raw.plain = true) :
    ((raw.field? name).getD .null).plain = true := by
  cases hf : raw.field? name with
  | none => rfl
  | some value => exact plain_field h hf

theorem PhaseAttributes.readFloat_finite (loc : Location) {raw : Value} (h : raw.plain = true)
    (name : String) : Check.Yields Setting.Finite (readFloat loc raw name) := by
  unfold readFloat
  split
  · rename_i value hg
    exact Setting.float_finite _ _ _ (Value.plain_given h hg)
  · exact .ok (List.forall_mem_singleton.mpr (by decide +kernel))

theorem PhaseAttributes.read_finite (loc : Location) (raw : Value) (h : raw.plain = true) :
    Check.Yields PhaseAttributes.Finite (PhaseAttributes.read loc raw) := by
  unfold PhaseAttributes.read
  refine .step fun _ => .bind fun damage hdamage => .bind fun shield hshield => ?_
  refine .step fun _ => .pure ?_
  exact ⟨readFloat_finite loc h _ damage hdamage, readFloat_finite loc h _ shield hshield⟩

/-- A turn takes a finite time and has a finite angle. -/
def InputMovement.Finite : InputMovement → Prop
  | .rootMotion _ _ => True
  | .rotation duration angle => duration.isFinite = true ∧ angle.isFinite = true

theorem InputMovement.read_finite (loc : Location) (raw : Value) (h : raw.plain = true) :
    Check.Yields InputMovement.Finite (InputMovement.read loc raw).result := by
  unfold InputMovement.read
  split
  · simp only [Checked.result_bind]
    exact .step fun _ => .step fun _ => .pure trivial
  · split
    · simp only [Checked.result_bind]
      refine .bind fun duration hduration => .bind fun angle hangle => .pure ?_
      exact ⟨Field.time_isFinite _ _ _ (Value.plain_fieldOr h) duration hduration,
        Field.angle_isFinite _ _ _ angle hangle⟩
    · exact .fault

namespace Timeline

theorem itemTime_plain {raw : Value} (h : raw.plain = true) : (itemTime raw).plain = true :=
  Value.plain_fieldOr h

theorem Fragment.readAll_finite (limits : FragmentLimits Float) (loc : Location)
    {raws : List Value} (h : AllPlain raws) :
    Check.Yields (fun fragments => ∀ fragment ∈ fragments,
      fragment.start.isFinite = true ∧ fragment.stop.isFinite = true)
      (readAll limits loc raws).result := by
  intro fragments hread
  obtain ⟨ranges, hranges, _, hfragments⟩ := readAll_ok hread
  have hboth := Location.each_mem
    (fun raw hraw loc => Field.timeRange_bothFinite _ loc raw (h raw hraw)) loc ranges hranges
  apply partition_ends (P := fun x => x.isFinite = true) ?_ hfragments
  exact fun range hm _ => hboth range hm

/-- A timeline whose times are finite and whose values are as wanted. -/
structure Ranges.Finite {V : Type} (P : V → Prop) (timeline : Ranges V) : Prop where
  fragments : ∀ fragment ∈ timeline.fragments,
    fragment.start.isFinite = true ∧ fragment.stop.isFinite = true
  values : ∀ v ∈ timeline.values, P v

/-- Points at finite times, whose values are as wanted. -/
def Points.Finite {V : Type} (P : V → Prop) (timeline : Points V) : Prop :=
  ∀ point ∈ timeline.pairs, point.1.isFinite = true ∧ P point.2

section Read

variable {V : Type} {P : V → Prop} {item : Location → Value → Checked V}
  (hitem : ∀ loc raw, raw.plain = true → Check.Yields P (item loc raw).result)

include hitem

theorem Ranges.read_finite (limits : FragmentLimits Float) (loc : Location) {raw : Value}
    (h : raw.plain = true) :
    Check.Yields (Ranges.Finite P) (Ranges.read limits item loc raw).result := by
  unfold Ranges.read
  split
  · rename_i items
    have hplain := Value.plain_array.mp h
    simp only [Checked.result_bind, Location.result_each]
    refine .bind fun fragments hfragments => .bind fun values hvalues => .pure ⟨?_, ?_⟩
    · refine Fragment.readAll_finite limits loc ?_ fragments hfragments
      exact List.forall_mem_map.mpr fun item hm => itemTime_plain (hplain item hm)
    · exact Location.each_mem (fun raw hm loc => hitem loc raw (hplain raw hm)) loc values hvalues
  · rename_i fields
    have hplain := Value.plain_object.mp h
    simp only [Checked.result_bind, Location.result_eachKey]
    refine .bind fun fragments hfragments => .bind fun values hvalues => .pure ⟨?_, ?_⟩
    · refine Fragment.readAll_finite limits loc ?_ fragments hfragments
      refine List.forall_mem_map.mpr fun field hm => ?_
      simpa [Value.plain] using (hplain field hm).1
    · exact Location.eachKey_mem (fun field hm loc => hitem loc field.2 (hplain field hm).2) loc
        values hvalues
  · exact .fault

theorem Points.read_finite (duration : Float) (loc : Location) (raw : Value)
    (h : raw.plain = true) :
    Check.Yields (Points.Finite P) (Points.read duration item loc raw).result := by
  have hpairs : ∀ pairs : List (Float × V),
      (∀ point ∈ pairs, point.1.isFinite = true ∧ P point.2) → Points.Finite P (ofPairs pairs) :=
    fun pairs hp point hm => hp point (List.mem_mergeSort.mp hm)
  unfold Points.read
  dsimp only
  split
  · have hplain := Value.plain_array.mp h
    simp only [Checked.result_bind, Location.result_each]
    refine .bind fun pairs hread => .pure (hpairs pairs ?_)
    refine Location.each_mem (fun raw hm loc => ?_) loc pairs hread
    simp only [readItem, Checked.result_bind]
    refine .bind fun time htime => .bind fun value hvalue => .pure ?_
    exact ⟨Field.time_isFinite _ _ _ (itemTime_plain (hplain raw hm)) time htime,
      hitem loc raw (hplain raw hm) value hvalue⟩
  · have hplain := Value.plain_object.mp h
    simp only [Checked.result_bind, Location.result_eachKey]
    refine .bind fun pairs hread => .pure (hpairs pairs ?_)
    refine Location.eachKey_mem (fun field hm loc => ?_) loc pairs hread
    have hname : (Value.string field.1).plain = true := by
      simpa [Value.plain] using (hplain field hm).1
    simp only [readEntry, Checked.result_bind]
    refine .bind fun time htime => .bind fun value hvalue => .pure ?_
    exact ⟨Field.time_isFinite _ _ _ hname time htime,
      hitem loc field.2 (hplain field hm).2 value hvalue⟩
  · exact .fault

end Read

end Timeline

/-- The values that an author gives for a clip. -/
def AnimationDraft.raws (draft : AnimationDraft) : List Value :=
  [draft.duration, draft.fadeIn, draft.rootMotion, draft.weaponMotion]

structure Animation.Finite (clip : Animation) : Prop where
  duration : clip.duration.isFinite = true
  fadeIn : clip.fadeIn.isFinite = true

namespace Animation

theorem read_finite (limits : AnimationLimits) (loc : Location) {draft : AnimationDraft}
    (h : AllPlain draft.raws) :
    Check.Yields Finite (read limits loc draft).result := by
  unfold read
  simp only [Checked.result_bind, Field.result_orElse]
  refine .step fun _ => .bind fun duration hduration => .bind fun fadeIn hfade => ?_
  iterate 2 refine .step fun _ => ?_
  have hdraft : draft.duration.plain = true ∧ draft.fadeIn.plain = true :=
    ⟨h _ (by simp [AnimationDraft.raws]), h _ (by simp [AnimationDraft.raws])⟩
  refine .pure ⟨Field.time_isFinite _ _ _ hdraft.1 duration hduration, ?_⟩
  exact Field.orElse_at (by decide +kernel) (Field.time_isFinite _ _ _ hdraft.2) fadeIn hfade

theorem Finite.withId {clip : Animation} (h : clip.Finite) (localId : Nat) :
    Finite { clip with localId } := ⟨h.duration, h.fadeIn⟩

theorem number_finite {clips : List Animation} (h : ∀ clip ∈ clips, clip.Finite) (place : Nat) :
    ∀ clip ∈ number place clips, clip.Finite := by
  induction clips generalizing place with
  | nil => exact List.forall_mem_nil _
  | cons clip rest ih =>
    obtain ⟨hclip, hrest⟩ := List.forall_mem_cons.mp h
    exact List.forall_mem_cons.mpr ⟨hclip.withId _, ih hrest (place + 1)⟩

end Animation

def MoveStartDraft.raws (draft : MoveStartDraft) : List Value :=
  draft.anim.raws ++ [draft.enterAngle, draft.turnInPlaceEnd, draft.quickStopEnd]

def MoveTurnDraft.raws (draft : MoveTurnDraft) : List Value :=
  draft.anim.raws ++ [draft.enterAngle, draft.turnInPlaceEnd]

def MoveStopDraft.raws (draft : MoveStopDraft) : List Value :=
  draft.anim.raws ++ [draft.enterPhaseTable, draft.speedDownEnd]

structure MoveStart.Finite (s : MoveStart) : Prop where
  anim : s.anim.Finite
  enterAngle : BothFinite s.enterAngle
  turnInPlaceEnd : s.turnInPlaceEnd.isFinite = true
  quickStopEnd : s.quickStopEnd.isFinite = true

structure MoveTurn.Finite (t : MoveTurn) : Prop where
  anim : t.anim.Finite
  enterAngle : BothFinite t.enterAngle
  turnInPlaceEnd : t.turnInPlaceEnd.isFinite = true

structure PhaseRow.Finite (row : PhaseRow) : Prop where
  start : row.start.isFinite = true
  stop : row.stop.isFinite = true
  offset : row.offset.isFinite = true

structure MoveStop.Finite (s : MoveStop) : Prop where
  anim : s.anim.Finite
  enterPhaseTable : ∀ row ∈ s.enterPhaseTable, row.Finite
  speedDownEnd : s.speedDownEnd.isFinite = true

namespace ActionMove

theorem timeOr_isFinite {default : Float} (hd : default.isFinite = true) (loc : Location)
    {raw : Value} (h : raw.plain = true) :
    Check.Yields (fun x => x.isFinite = true) (timeOr default loc raw).result := by
  unfold timeOr
  rw [Field.result_orElse]
  exact Field.orElse_at hd (Field.time_isFinite _ _ _ h)

/-- Half of a clip is finite, which is where a quick stop ends when its author does not say. -/
theorem readStart_finite (loc : Location) {draft : MoveStartDraft} (h : AllPlain draft.raws) :
    Check.Yields MoveStart.Finite (readStart loc draft).result := by
  obtain ⟨hanim, hown⟩ := List.forall_mem_append.mp h
  unfold readStart
  simp only [Checked.result_bind]
  refine .bind fun clip hclip => .bind fun angles hangles => ?_
  refine .bind fun turnEnd hturn => .bind fun stopEnd hstop => .pure ?_
  have hfinite := Animation.read_finite _ _ hanim clip hclip
  constructor
  case anim => exact hfinite
  case enterAngle => exact Field.angleRange_bothFinite _ _ _ angles hangles
  case turnInPlaceEnd =>
    exact timeOr_isFinite (by decide +kernel) _ (hown _ (by simp)) turnEnd hturn
  case quickStopEnd =>
    have hhalf := Numeric.div_isFinite (y := 2) hfinite.duration (by decide +kernel)
    exact timeOr_isFinite hhalf _ (hown _ (by simp)) stopEnd hstop

theorem readTurn_finite (loc : Location) {draft : MoveTurnDraft} (h : AllPlain draft.raws) :
    Check.Yields MoveTurn.Finite (readTurn loc draft).result := by
  obtain ⟨hanim, hown⟩ := List.forall_mem_append.mp h
  unfold readTurn
  simp only [Checked.result_bind, Field.result_orElse]
  refine .bind fun clip hclip => .bind fun angles hangles => .bind fun turnEnd hturn => .pure ?_
  constructor
  case anim => exact Animation.read_finite _ _ hanim clip hclip
  case enterAngle => exact Field.angleRange_bothFinite _ _ _ angles hangles
  case turnInPlaceEnd =>
    exact Field.orElse_at (by decide +kernel) (Field.time_isFinite _ _ _ (hown _ (by simp)))
      turnEnd hturn

theorem readPhaseRow_finite (duration : Float) (loc : Location) {raw : Value}
    (h : raw.plain = true) :
    Check.Yields PhaseRow.Finite (readPhaseRow duration loc raw).result := by
  unfold readPhaseRow
  simp only [Checked.result_bind]
  refine .bind fun items hitems => ?_
  have hplain := Field.list_plain _ _ h items hitems
  split
  · simp only [Checked.result_bind]
    refine .bind fun start hstart => .bind fun stop hstop => .bind fun offset hoffset => .pure ?_
    exact ⟨Field.float_isFinite _ _ _ (hplain _ (by simp)) start hstart,
      Field.float_isFinite _ _ _ (hplain _ (by simp)) stop hstop,
      Field.time_isFinite _ _ _ (hplain _ (by simp)) offset hoffset⟩
  · exact .fault

theorem readStop_finite (loc : Location) {draft : MoveStopDraft} (h : AllPlain draft.raws) :
    Check.Yields MoveStop.Finite (readStop loc draft).result := by
  obtain ⟨hanim, hown⟩ := List.forall_mem_append.mp h
  unfold readStop readPhaseTable
  simp only [Checked.result_bind, Location.result_each]
  refine .bind fun clip hclip => .bind fun rows hrows => .bind fun slowEnd hslow => .pure ?_
  constructor
  case anim => exact Animation.read_finite _ _ hanim clip hclip
  case enterPhaseTable =>
    obtain ⟨items, hitems, hread⟩ := Check.bind_ok.mp hrows
    have hplain := Field.list_plain _ _ (hown _ (by simp)) items hitems
    exact Location.each_mem
      (fun raw hraw loc => readPhaseRow_finite clip.duration loc (hplain raw hraw)) _ rows hread
  case speedDownEnd => exact Field.time_isFinite _ _ _ (hown _ (by simp)) slowEnd hslow

theorem numberFrom_all {α : Type} {P : α → Prop} {place : Nat → α → α}
    (hplace : ∀ i a, P a → P (place i a)) {items : List α} (h : ∀ a ∈ items, P a) (i : Nat) :
    ∀ a ∈ numberFrom place i items, P a := by
  induction items generalizing i with
  | nil => exact List.forall_mem_nil _
  | cons item rest ih =>
    obtain ⟨hitem, hrest⟩ := List.forall_mem_cons.mp h
    exact List.forall_mem_cons.mpr ⟨hplace i item hitem, ih hrest (i + 1)⟩

end ActionMove

end GameRoster
