import GameRoster.Proofs.Anywhere
import GameRoster.Timeline.Points

namespace GameRoster.Timeline

open Check (Agrees Anywhere)

/-- Items under their times, each with its fields. -/
def keyed (items : List (String × List (String × Value))) : Value :=
  .object (items.map fun (time, fields) => (time, .object fields))

/-- The same items in a list, where the time is one more field. -/
def listed (items : List (String × List (String × Value))) : Value :=
  .array (items.map fun (time, fields) => .object (("time", .string time) :: fields))

/-- Reading an object for its value passes over a time. -/
structure Untimed {V : Type} (item : Location → Value → Checked V) : Prop where
  anywhere : Anywhere fun loc raw => (item loc raw).result
  ignores : ∀ loc time fields,
    item loc (.object (("time", time) :: fields)) = item loc (.object fields)

theorem Untimed.agrees {V : Type} {item : Location → Value → Checked V} (h : Untimed item)
    (loc other : Location) (time : Value) (fields : List (String × Value)) :
    Agrees (item loc (.object fields)).result
      (item other (.object (("time", time) :: fields))).result := by
  rw [h.ignores]
  exact h.anywhere loc other (.object fields)

namespace Ranges

variable {V : Type} {item : Location → Value → Checked V}

theorem read_notations (h : Untimed item) (limits : FragmentLimits Float) (loc : Location)
    (items : List (String × List (String × Value))) :
    Agrees (read limits item loc (keyed items)).result
      (read limits item loc (listed items)).result := by
  unfold read keyed listed
  simp only [List.map_map, Function.comp_def]
  refine .result (.refl _) fun fragments => .result ?_ fun values => .refl _
  simp only [Location.result_each, Location.result_eachKey]
  unfold Agrees
  rw [Location.each_toOption h.anywhere loc, Location.eachKey_toOption (fun _ => h.anywhere) loc,
    List.mapM_map, List.mapM_map]
  congr 1
  funext entry
  exact h.agrees loc loc (.string entry.1) entry.2

end Ranges

namespace Points

variable {V : Type} {item : Location → Value → Checked V}

theorem readItem_anywhere (h : Anywhere fun loc raw => (item loc raw).result)
    (limits : TimeLimits) : Anywhere fun loc raw => (readItem limits item loc raw).result := by
  intro loc other raw
  refine .result (Field.time_anywhere limits _ _ _) fun time => ?_
  exact .result (h loc other raw) fun value => .refl _

theorem readEntry_anywhere (h : Untimed item) (limits : TimeLimits) (name : String) :
    Anywhere fun loc raw => (readEntry limits item loc name raw).result := by
  intro loc other raw
  refine .result (Field.time_anywhere limits _ _ _) fun time => ?_
  exact .result (h.anywhere loc other raw) fun value => .refl _

/-- An entry is the point that the item of the list form is. -/
theorem readEntry_agrees (h : Untimed item) (limits : TimeLimits) (loc other : Location)
    (name : String) (fields : List (String × Value)) :
    Agrees (readEntry limits item loc name (.object fields)).result
      (readItem limits item other (.object (("time", .string name) :: fields))).result := by
  refine .result (Field.time_anywhere limits _ _ _) fun time => ?_
  exact .result (h.agrees loc other (.string name) fields) fun value => .refl _

theorem read_notations (h : Untimed item) (duration : Float) (loc : Location)
    (items : List (String × List (String × Value))) :
    Agrees (read duration item loc (keyed items)).result
      (read duration item loc (listed items)).result := by
  unfold read keyed listed
  refine .result ?_ fun pairs => .refl _
  simp only [Location.result_each, Location.result_eachKey]
  unfold Agrees
  rw [Location.each_toOption (readItem_anywhere h.anywhere _) loc,
    Location.eachKey_toOption (readEntry_anywhere h _) loc, List.mapM_map, List.mapM_map]
  congr 1
  funext entry
  exact readEntry_agrees h _ loc loc entry.1 entry.2

end Points

/-- No attribute of a phase is its time. -/
theorem phaseAttributes_untimed :
    Untimed fun loc raw => Checked.ofCheck (PhaseAttributes.read loc raw) :=
  ⟨PhaseAttributes.read_anywhere, fun _ _ _ => rfl⟩

/-- What steers an action is not the time from which it does. -/
theorem inputMovement_untimed : Untimed InputMovement.read :=
  ⟨InputMovement.read_anywhere, fun _ _ _ => rfl⟩

/-- Attributes of phases and input movements are read alike in both notations: fragments, points and
values are the same, or both are refused. Keys need not differ for this. -/
theorem notations_agree (items : List (String × List (String × Value))) :
    (∀ limits loc, Agrees
      (Ranges.read limits (fun loc raw => Checked.ofCheck (PhaseAttributes.read loc raw)) loc
        (keyed items)).result
      (Ranges.read limits (fun loc raw => Checked.ofCheck (PhaseAttributes.read loc raw)) loc
        (listed items)).result) ∧
    ∀ duration loc, Agrees (Points.read duration InputMovement.read loc (keyed items)).result
      (Points.read duration InputMovement.read loc (listed items)).result := by
  constructor
  · intro limits loc
    exact Ranges.read_notations phaseAttributes_untimed limits loc items
  · intro duration loc
    exact Points.read_notations inputMovement_untimed duration loc items

end GameRoster.Timeline
