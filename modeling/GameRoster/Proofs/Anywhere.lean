import GameRoster.Action.InputMovement
import GameRoster.Action.Phase
import GameRoster.Proofs.Checks

namespace GameRoster

namespace Check

variable {α β : Type}

theorem toOption_bind (x : Check α) (f : α → Check β) :
    (x >>= f).toOption = x.toOption.bind fun a => (f a).toOption := by
  cases x with
  | error fault => rfl
  | ok a => rfl

/-- Two checks find the same, or both fail. -/
def Agrees (x y : Check α) : Prop := x.toOption = y.toOption

namespace Agrees

variable {x y : Check α} {f g : α → Check β}

theorem refl (x : Check α) : Agrees x x := rfl

theorem faults {first second : Fault} : Agrees (.error first : Check α) (.error second) := rfl

theorem bind (h : Agrees x y) (hf : ∀ a, Agrees (f a) (g a)) : Agrees (x >>= f) (y >>= g) := by
  unfold Agrees at *
  rw [toOption_bind, toOption_bind, h, funext hf]

/-- A check that may refuse a value before it goes on. -/
theorem refuseIf {c : Prop} [Decidable c] {loc other : Location} {rule : FieldRule}
    {f g : Unit → Check α} (h : Agrees x y) :
    Agrees (if c then Check.field loc rule >>= f else x)
      (if c then Check.field other rule >>= g else y) := by
  split
  · exact .faults
  · exact h

theorem result {x y : Checked α} {f g : α → Checked β} (h : Agrees x.result y.result)
    (hf : ∀ a, Agrees (f a).result (g a).result) : Agrees (x >>= f).result (y >>= g).result := by
  rw [Checked.result_bind, Checked.result_bind]
  exact h.bind hf

end Agrees

/-- What is read of a value is the same anywhere. -/
def Anywhere (read : Location → α → Check β) : Prop :=
  ∀ loc other a, Agrees (read loc a) (read other a)

end Check

open Check (Agrees Anywhere)

namespace Location

variable {α β : Type}

/-- Items read one by one may as well be read in one place. -/
theorem each_toOption {read : Location → α → Check β} (h : Anywhere read) (here loc : Location)
    (items : List α) :
    (loc.each read items).toOption = items.mapM fun item => (read here item).toOption := by
  unfold each
  generalize 0 = i
  induction items generalizing i with
  | nil => rfl
  | cons item rest ih =>
    rw [eachFrom, Check.toOption_bind, h _ here, List.mapM_cons]
    refine Option.bind_congr fun first _ => ?_
    rw [Check.toOption_bind, ih]
    rfl

theorem eachKey_toOption {read : Location → String → α → Check β}
    (h : ∀ name, Anywhere fun loc item => read loc name item) (here loc : Location)
    (entries : List (String × α)) :
    (loc.eachKey read entries).toOption =
      entries.mapM fun entry => (read here entry.1 entry.2).toOption := by
  induction entries with
  | nil => rfl
  | cons entry rest ih =>
    rw [eachKey, Check.toOption_bind, h entry.1 _ here, List.mapM_cons]
    refine Option.bind_congr fun first _ => ?_
    rw [Check.toOption_bind, ih]
    rfl

theorem each_anywhere {read : Location → α → Check β} (h : Anywhere read) :
    Anywhere fun loc items => loc.each read items := by
  intro loc other items
  exact (each_toOption h loc loc items).trans (each_toOption h loc other items).symm

end Location

theorem FloatLimits.check_anywhere (limits : FloatLimits) : Anywhere limits.check := by
  intro loc other x
  unfold check
  split
  · exact .refl _
  · split
    · exact .faults
    · exact .refl _
  · split
    · exact .faults
    · exact .refl _
  · split
    · exact .faults
    · split
      · exact .faults
      · exact .refl _

theorem Lengths.check_anywhere (lengths : Lengths) : Anywhere lengths.check := by
  intro loc other length
  unfold check
  extract_lets checkGreatest checkLeast otherGreatest otherLeast
  have hgreatest : Agrees (checkGreatest ()) (otherGreatest ()) := by
    unfold checkGreatest otherGreatest
    split
    · split
      · exact .faults
      · exact .refl _
    · exact .refl _
  have hleast : Agrees (checkLeast ()) (otherLeast ()) := by
    unfold checkLeast otherLeast
    split
    · exact .refuseIf hgreatest
    · exact hgreatest
  split
  · exact .refuseIf hleast
  · exact hleast

theorem Ref.ofText_anywhere (family : Id.Family) : Anywhere (ofText family) := by
  intro loc other text
  unfold ofText
  split
  · exact .refl _
  · exact .faults

namespace Field

theorem bool_anywhere : Anywhere bool := by
  intro loc other raw
  unfold bool
  split
  · exact .refl _
  · exact .refl _
  · exact .faults

theorem intSource_anywhere (limits : IntLimits) : Anywhere (intSource limits) := by
  intro loc other raw
  unfold intSource
  split
  · exact .refl _
  · split
    · exact .refl _
    · exact .faults
  · exact .faults

theorem int_anywhere (limits : IntLimits) : Anywhere (int limits) := by
  intro loc other raw
  refine (intSource_anywhere limits loc other raw).bind fun x => ?_
  exact (limits.toFloats.check_anywhere loc other x).bind fun _ => .refl _

theorem floatSource_anywhere : Anywhere floatSource := by
  intro loc other raw
  unfold floatSource
  split
  · exact .refl _
  · split
    · exact .refl _
    · exact .faults
  · exact .faults

theorem float_anywhere (limits : FloatLimits) : Anywhere (float limits) := by
  intro loc other raw
  refine (floatSource_anywhere loc other raw).bind fun x => ?_
  exact (limits.check_anywhere loc other x).bind fun _ => .refl _

theorem list_anywhere (lengths : Lengths) : Anywhere (list lengths) := by
  intro loc other raw
  unfold list
  split
  · exact (lengths.check_anywhere loc other _).bind fun _ => .refl _
  · exact .faults

theorem object_anywhere : Anywhere object := by
  intro loc other raw
  unfold object
  split
  · exact .refl _
  · exact .faults

section Sequences

variable {α : Type} {item : Location → Value → Check α} (h : Anywhere item)

theorem checkOrder_anywhere [LT α] [DecidableLT α] (order : Order) :
    Anywhere (checkOrder order : Location → List α → Check Unit) := by
  intro loc other items
  unfold checkOrder
  split
  · exact .refl _
  · split
    · exact .faults
    · exact .refl _
  · split
    · exact .faults
    · exact .refl _

include h

theorem listOf_anywhere (lengths : Lengths) : Anywhere (listOf lengths item) := by
  intro loc other raw
  refine (list_anywhere lengths loc other raw).bind fun items => ?_
  exact Location.each_anywhere h loc other items

theorem numbers_anywhere [LT α] [DecidableLT α] (lengths : Lengths) (order : Order)
    (first : Option α) : Anywhere (numbers item lengths order first) := by
  intro loc other raw
  refine (listOf_anywhere h lengths loc other raw).bind fun items => ?_
  exact (checkOrder_anywhere order loc other items).bind fun _ => .refl _

end Sequences

theorem time_anywhere (limits : TimeLimits) :
    Anywhere fun loc raw => (time limits loc raw).result := by
  intro loc other raw
  have hsource : Agrees (Time.source limits loc raw) (Time.source limits other raw) := by
    unfold Time.source
    split
    · exact .refl _
    · split
      · exact .refl _
      · exact .faults
    · exact .faults
  refine .result hsource fun x => ?_
  refine .result (limits.check_anywhere loc other x) fun _ => ?_
  split
  · exact .refl _
  · exact .refl _

theorem angle_anywhere (limits : FloatLimits) : Anywhere (angle limits) := by
  intro loc other raw
  have hdegrees : Agrees (Plane.degrees loc raw) (Plane.degrees other raw) := by
    unfold Plane.degrees
    split
    · exact .refl _
    · split
      · exact .refl _
      · exact .faults
    · exact .faults
  refine hdegrees.bind fun x => ?_
  split
  · exact (limits.check_anywhere loc other x).bind fun _ => .refl _
  · exact .faults

end Field

namespace Setting

theorem read_anywhere {α : Type} {one : Location → Value → Check α}
    {many : Lengths → Location → Value → Check (List α)} (hone : Anywhere one)
    (hmany : ∀ lengths, Anywhere (many lengths)) (limits : BindingLimits) :
    Anywhere (read limits one many) := by
  intro loc other raw
  unfold read
  split
  · refine (Ref.ofText_anywhere _ _ _ _).bind fun id => ?_
    exact (hmany _ _ _ _).bind fun values => .refl _
  · split
    · exact .faults
    · exact (hone loc other raw).bind fun a => .refl _

theorem int_anywhere (limits : BindingLimits) (item : IntLimits) : Anywhere (int limits item) :=
  read_anywhere (Field.int_anywhere item)
    (fun lengths => Field.numbers_anywhere (Field.int_anywhere item) lengths .any none) limits

theorem float_anywhere (limits : BindingLimits) (item : FloatLimits) :
    Anywhere (float limits item) :=
  read_anywhere (Field.float_anywhere item)
    (fun lengths => Field.numbers_anywhere (Field.float_anywhere item) lengths .any none) limits

end Setting

namespace PhaseAttributes

theorem readFloat_anywhere (name : String) : Anywhere fun loc raw => readFloat loc raw name := by
  intro loc other raw
  dsimp only [readFloat]
  split
  · exact Setting.float_anywhere _ _ _ _ _
  · exact .refl _

theorem readPoise_anywhere : Anywhere readPoise := by
  intro loc other raw
  unfold readPoise
  split
  · exact Setting.int_anywhere _ _ _ _ _
  · exact .refl _

theorem read_anywhere : Anywhere read := by
  intro loc other raw
  refine (Field.object_anywhere loc other raw).bind fun _ => ?_
  refine (readFloat_anywhere "damage_rdc" loc other raw).bind fun damageReduction => ?_
  refine (readFloat_anywhere "shield_dmg_rdc" loc other raw).bind fun shieldDamageReduction => ?_
  exact (readPoise_anywhere loc other raw).bind fun poiseLevel => .refl _

end PhaseAttributes

namespace InputMovement

theorem flag_anywhere (name : String) : Anywhere fun loc raw => flag loc raw name := by
  intro loc other raw
  dsimp only [flag]
  split
  · exact Field.bool_anywhere _ _ _
  · exact .refl _

theorem read_anywhere : Anywhere fun loc raw => (read loc raw).result := by
  intro loc other raw
  dsimp only [read]
  split
  · refine .result (flag_anywhere "move" loc other raw) fun main => ?_
    exact .result (flag_anywhere "move_ex" loc other raw) fun extra => .refl _
  · split
    · refine .result (Field.time_anywhere turnLimits _ _ _) fun duration => ?_
      exact .result (Field.angle_anywhere {} _ _ _) fun angle => .refl _
    · exact .faults

end InputMovement

end GameRoster
