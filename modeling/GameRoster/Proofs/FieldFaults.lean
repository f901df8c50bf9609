import GameRoster.Action.Key
import GameRoster.Field.Path
import GameRoster.Field.Text
import GameRoster.Proofs.Places
import GameRoster.Time
import GameRoster.Variable.Setting

namespace GameRoster

/-- The faults that show in what an author wrote, whatever else is registered. -/
inductive Fault.OfBuilding : Fault → Prop
  | field (loc : Location) (rule : FieldRule) : OfBuilding (.field loc rule)
  | timeline (loc : Location) (rule : TimelineRule) : OfBuilding (.timeline loc rule)

/-- A sort of faults that has those of fields among it. -/
class Fault.OfFields (sort : Fault → Prop) : Prop where
  field (loc : Location) (rule : FieldRule) : sort (.field loc rule)

instance : Fault.OfFields Fault.OfBuilding := ⟨.field⟩

/-- A fault of what is read at a location, there or further in. -/
abbrev Fault.ReadAt (loc : Location) : Fault → Prop := Fault.At Fault.OfBuilding loc

/-- A reader whose faults stand in what it reads. -/
abbrev Check.Reader {α β : Type} (read : Location → α → Check β) : Prop :=
  Check.Local Fault.OfBuilding read

abbrev Checked.Reader {α β : Type} (read : Location → α → Checked β) : Prop :=
  Check.Reader fun loc item => (read loc item).result

open Check.Fails

variable {sort : Fault → Prop} [Fault.OfFields sort]

theorem Check.Fails.field {α : Type} {loc : Location} (rule : FieldRule) :
    Check.Fails (Fault.At sort loc) (Check.field loc rule : Check α) :=
  error (.here (Fault.OfFields.field loc rule) rfl)

theorem Check.Fails.timeline {α : Type} {loc : Location} (rule : TimelineRule) :
    Check.Fails (Fault.ReadAt loc) (.error (.timeline loc rule) : Check α) :=
  error (.here (.timeline loc rule) rfl)

/-- A value that may be refused before the rest is checked. -/
theorem Check.Fails.refuseIf {α : Type} {loc : Location} {broken : Prop} [Decidable broken]
    {rule : FieldRule} {rest : Unit → Check α} (h : Check.Fails (Fault.At sort loc) (rest ())) :
    Check.Fails (Fault.At sort loc)
      (if broken then Check.field loc rule >>= rest else rest ()) := by
  split
  · exact bind (field rule) fun _ _ => h
  · exact h

theorem FloatLimits.check_reader (limits : FloatLimits) : Check.Local sort limits.check := by
  intro loc x
  unfold check
  split
  · exact ok
  all_goals split
  any_goals exact field _
  any_goals exact ok
  split
  · exact field _
  · exact ok

theorem Lengths.check_reader (lengths : Lengths) : Check.Local sort lengths.check := by
  intro loc length
  unfold check
  extract_lets checkGreatest checkLeast
  have hgreatest : Check.Fails (Fault.At sort loc) (checkGreatest ()) := by
    unfold checkGreatest
    split
    · split
      · exact field _
      · exact ok
    · exact ok
  have hleast : Check.Fails (Fault.At sort loc) (checkLeast ()) := by
    unfold checkLeast
    split
    · exact refuseIf hgreatest
    · exact hgreatest
  split
  · exact refuseIf hleast
  · exact hleast

theorem TextLimits.check_reader (limits : TextLimits) : Check.Local sort limits.check := by
  intro loc text
  unfold check
  extract_lets checkPattern checkChoices checkGreatest
  have hpattern : Check.Fails (Fault.At sort loc) (checkPattern ()) := by
    unfold checkPattern
    split
    · split
      · exact field _
      · exact ok
    · exact ok
  have hchoices : Check.Fails (Fault.At sort loc) (checkChoices ()) := by
    unfold checkChoices
    split
    · exact refuseIf hpattern
    · exact hpattern
  have hgreatest : Check.Fails (Fault.At sort loc) (checkGreatest ()) := by
    unfold checkGreatest
    split
    · exact refuseIf hchoices
    · exact hchoices
  split
  · exact refuseIf hgreatest
  · exact hgreatest

namespace Field

section Numbers

theorem bool_reader : Check.Local sort bool := by
  intro loc raw
  cases raw with
  | bool b => exact ok
  | number n => exact ok
  | null => exact field _
  | string s => exact field _
  | array items => exact field _
  | object fields => exact field _

theorem intSource_reader (limits : IntLimits) : Check.Local sort (intSource limits) := by
  intro loc raw
  unfold intSource
  split
  · exact ok
  · split
    · exact ok
    · exact field _
  · exact field _

theorem int_reader (limits : IntLimits) : Check.Local sort (int limits) := by
  intro loc raw
  refine step (intSource_reader limits loc raw) fun x => ?_
  exact step (limits.toFloats.check_reader loc x) fun _ => ok

theorem floatSource_reader : Check.Local sort floatSource := by
  intro loc raw
  unfold floatSource
  split
  · exact ok
  · split
    · exact ok
    · exact field _
  · exact field _

theorem float_reader (limits : FloatLimits) : Check.Local sort (float limits) := by
  intro loc raw
  refine step (floatSource_reader loc raw) fun x => ?_
  exact step (limits.check_reader loc x) fun _ => ok

end Numbers

section Texts

theorem text_reader (limits : TextLimits) : Check.Local sort (text limits) := by
  intro loc raw
  exact step (limits.check_reader loc raw) fun _ => ok

theorem textOfValue_reader (limits : TextLimits) : Check.Local sort (textOfValue limits) := by
  intro loc raw
  unfold textOfValue
  split
  · exact text_reader limits loc _
  · exact field _

theorem path_reader (limits : PathLimits) : Check.Local sort (path limits) := by
  intro loc raw
  unfold path
  dsimp only
  split
  · exact field _
  · split
    · exact field _
    · exact ok

end Texts

section Sequences

variable {α : Type}

theorem list_reader (lengths : Lengths) : Check.Local sort (list lengths) := by
  intro loc raw
  unfold list
  split
  · exact step (lengths.check_reader loc _) fun _ => ok
  · exact field _

theorem object_reader : Check.Local sort object := by
  intro loc raw
  unfold object
  split
  · exact ok
  · exact field _

theorem listOf_reader {item : Location → Value → Check α} (h : Check.Local sort item)
    (lengths : Lengths) : Check.Local sort (listOf lengths item) := by
  intro loc raw
  exact step (list_reader lengths loc raw) fun items => each h loc items

variable [LT α] [DecidableLT α]

theorem checkOrder_reader (order : Order) :
    Check.Local sort (checkOrder order : Location → List α → Check Unit) := by
  intro loc items
  unfold checkOrder
  split
  · exact ok
  all_goals split
  · exact (field _).ofIndex
  · exact ok
  · exact (field _).ofIndex
  · exact ok

theorem numbers_reader {item : Location → Value → Check α} (h : Check.Local sort item)
    (lengths : Lengths) (order : Order) (first : Option α) :
    Check.Local sort (numbers item lengths order first) := by
  intro loc raw
  refine step (listOf_reader h lengths loc raw) fun items => ?_
  exact step (checkOrder_reader order loc items) fun _ => ok

theorem range_reader {item : Location → Value → Check α} (h : Check.Local sort item) :
    Check.Local sort (range item) := by
  intro loc raw
  refine step (numbers_reader h _ _ _ loc raw) fun items => ?_
  split
  · split
    · exact field _
    · exact ok
  · exact field _

end Sequences

theorem bools_reader (lengths : Lengths) : Check.Local sort (bools lengths) :=
  listOf_reader bool_reader lengths

theorem ints_reader (limits : IntLimits) (lengths : Lengths) :
    Check.Local sort (ints limits lengths) := numbers_reader (int_reader limits) _ _ _

theorem floats_reader (limits : FloatLimits) (lengths : Lengths) :
    Check.Local sort (floats limits lengths) := numbers_reader (float_reader limits) _ _ _

theorem intRange_reader (limits : IntLimits) : Check.Local sort (intRange limits) :=
  range_reader (int_reader limits)

section Defaults

variable {α : Type} {allowed : Fault → Prop}

theorem optional_fails {read : Value → Check α} (h : ∀ raw, Check.Fails allowed (read raw))
    (raw : Value) : Check.Fails allowed (optional read raw) := by
  unfold optional
  split
  · exact ok
  · exact step (h _) fun _ => ok

theorem orElse_fails (default : α) {read : Value → Check α}
    (h : ∀ raw, Check.Fails allowed (read raw)) (raw : Value) :
    Check.Fails allowed (orElse default read raw) := by
  unfold orElse
  split
  · exact ok
  · exact h _

end Defaults

theorem boolOr_reader (default : Bool) : Check.Local sort (boolOr default) :=
  fun loc => orElse_fails default (bool_reader loc)

section Plane

theorem degrees_reader : Check.Local sort Plane.degrees := by
  intro loc raw
  unfold Plane.degrees
  split
  · exact ok
  · split
    · exact ok
    · exact field _
  · exact field _

theorem vector_reader (normalized : Bool) (limits : FloatLimits) :
    Check.Local sort (vector normalized limits) := by
  intro loc raw
  refine step (floats_reader limits _ loc raw) fun items => ?_
  split
  · split
    · exact field _
    · exact ok
  · exact field _

theorem angle_reader (limits : FloatLimits) : Check.Local sort (angle limits) := by
  intro loc raw
  refine step (degrees_reader loc raw) fun degrees => ?_
  split
  · exact step (limits.check_reader loc degrees) fun _ => ok
  · exact field _

theorem angleRange_reader (limits : FloatLimits) : Check.Local sort (angleRange limits) := by
  intro loc raw
  refine step (listOf_reader (angle_reader limits) _ loc raw) fun items => ?_
  split
  · exact ok
  · exact field _

end Plane

end Field

theorem Capsule.ofDraft_fails (draft : CapsuleDraft) (loc : Location) :
    Check.Fails (Fault.At sort loc) (ofDraft draft loc) := by
  refine step (Field.float_reader _ _ _).ofField fun _ => ?_
  exact step (Field.float_reader _ _ _).ofField fun _ => ok

section Named

variable {α : Type} [Named α]

theorem Named.read_reader : Check.Local sort (read : Location → String → Check α) := by
  intro loc text
  unfold read
  split
  · exact ok
  · exact field _

theorem Named.readValue_reader : Check.Local sort (readValue : Location → Value → Check α) := by
  intro loc raw
  unfold readValue
  split
  · exact read_reader loc _
  · exact field _

end Named

namespace Ref

variable (family : Id.Family)

theorem ofText_reader : Check.Local sort (ofText family) := by
  intro loc text
  unfold ofText
  split
  · exact ok
  · exact field _

theorem ofValue_reader : Check.Local sort (ofValue family) := by
  intro loc raw
  unfold ofValue
  split
  · exact ofText_reader family loc _
  · exact field _

theorem listFrom_fails (repeats : Bool) (loc : Location) (i : Nat) (taken texts : List String) :
    Check.Fails (Fault.At sort loc) (listFrom family repeats loc i taken texts) := by
  induction texts generalizing i taken with
  | nil => exact ok
  | cons text rest ih =>
    unfold listFrom
    split
    · exact (field _).ofIndex
    · exact step (ofText_reader family _ text).ofIndex fun _ => step (ih _ _) fun _ => ok

theorem list_reader (lengths : Lengths) (repeats : Bool) (taken : List String) :
    Check.Local sort (list family lengths repeats taken) := by
  intro loc texts
  refine step (lengths.check_reader loc _) fun _ => ?_
  exact listFrom_fails family repeats loc 0 taken texts

theorem distinct_reader : Check.Local sort (distinct family) := list_reader family {} false []

theorem textOf_reader : Check.Local sort textOf := by
  intro loc raw
  unfold textOf
  split
  · exact ok
  · exact field _

theorem listOfValue_reader (lengths : Lengths) (repeats : Bool) (taken : List String) :
    Check.Local sort (listOfValue family lengths repeats taken) := by
  intro loc raw
  refine step (Field.list_reader {} loc raw) fun items => ?_
  refine step (each textOf_reader loc items) fun texts => ?_
  exact list_reader family lengths repeats taken loc texts

end Ref

section Times

theorem Time.source_reader (limits : TimeLimits) : Check.Local sort (source limits) := by
  intro loc raw
  unfold source
  split
  · exact ok
  · split
    · exact ok
    · exact field _
  · exact field _

theorem Time.check_reader (limits : TimeLimits) (raw : Value) :
    Checked.Local sort (check limits raw) := by
  intro loc x
  refine resultStep (limits.check_reader loc x) fun _ => ?_
  split
  · exact ok
  · exact ok

namespace Field

theorem time_reader (limits : TimeLimits) : Checked.Local sort (time limits) := by
  intro loc raw
  refine resultStep (Time.source_reader limits loc raw) fun x => ?_
  exact Time.check_reader limits raw loc x

theorem times_reader (limits : TimeLimits) (lengths : Lengths) (order : Order) :
    Checked.Local sort (times limits lengths order) := by
  intro loc raw
  refine resultStep (list_reader lengths loc raw) fun items => ?_
  refine resultStep (resultEach (time_reader limits) loc items) fun parsed => ?_
  exact resultStep (checkOrder_reader order loc parsed) fun _ => ok

theorem timePair_reader (limits : TimeLimits) : Checked.Local sort (timePair limits) := by
  intro loc raw
  dsimp only [timePair]
  split
  · split
    · refine resultStep (Time.check_reader limits _ _ _).ofIndex fun _ => ?_
      exact resultStep (Time.check_reader limits _ _ _).ofIndex fun _ => ok
    · exact field _
  · refine resultStep (times_reader limits _ _ loc _) fun items => ?_
    split
    · exact ok
    · exact field _

theorem timeRange_reader (limits : TimeLimits) : Checked.Local sort (timeRange limits) := by
  intro loc raw
  refine resultStep (timePair_reader limits loc raw) fun (first, second) => ?_
  dsimp only
  split
  · exact field _
  · exact ok

end Field

end Times

namespace Setting

variable {α : Type}

theorem read_reader (limits : BindingLimits) {one : Location → Value → Check α}
    {many : Lengths → Location → Value → Check (List α)} (hone : Check.Local sort one)
    (hmany : ∀ lengths, Check.Local sort (many lengths)) :
    Check.Local sort (read limits one many) := by
  intro loc raw
  unfold read
  split
  · refine step (Ref.ofText_reader _ _ _).ofIndex fun _ => ?_
    exact step (hmany _ _ _).ofField fun _ => ok
  · split
    · exact field _
    · exact step (hone loc raw) fun _ => ok

theorem bool_reader (limits : BindingLimits) : Check.Local sort (bool limits) :=
  read_reader limits Field.bool_reader Field.bools_reader

theorem int_reader (limits : BindingLimits) (item : IntLimits) :
    Check.Local sort (int limits item) :=
  read_reader limits (Field.int_reader item) (Field.ints_reader item)

theorem float_reader (limits : BindingLimits) (item : FloatLimits) :
    Check.Local sort (float limits item) :=
  read_reader limits (Field.float_reader item) (Field.floats_reader item)

theorem ref_reader (limits : BindingLimits) (family : Id.Family) :
    Check.Local sort (ref limits family) :=
  read_reader limits (Ref.ofValue_reader family) fun lengths =>
    Ref.listOfValue_reader family lengths true []

end Setting

end GameRoster
