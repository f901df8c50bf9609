import GameRoster.Proofs.Checks
import GameRoster.Proofs.Doubles
import GameRoster.Time

namespace GameRoster.Numeric
open Float.Model Float.Model.UnpackedFloat

theorem roundWithAccuracy_number (sign : Sign) (m : Nat) (e : Int) (accuracy : Accuracy) :
    roundWithAccuracy .binary64 sign m e accuracy ≠ .notANumber := by
  unfold roundWithAccuracy
  dsimp only
  split <;> simp

theorem normalize_number (m e : Int) (zeroSign : Sign) :
    UnpackedFloat.normalize .binary64 m e zeroSign ≠ .notANumber := by
  unfold UnpackedFloat.normalize
  split
  · exact round_number _ _ _
  · simp
  · exact round_number _ _ _

/-- Neither NaN nor an infinity nor a zero. -/
inductive Regular : UnpackedFloat → Prop
  | finite (s : Sign) (m : Nat) (e : Int) (hm : 0 < m) : Regular (.finite s m e hm)

instance : DecidablePred Regular
  | .finite s m e hm => .isTrue (.finite s m e hm)
  | .notANumber => .isFalse nofun
  | .infinity _ => .isFalse nofun
  | .zero _ => .isFalse nofun

section Operations

variable {u v : UnpackedFloat} (hu : u ≠ .notANumber) (hv : Regular v)

include hu hv

theorem mul_number : UnpackedFloat.mul .binary64 u v ≠ .notANumber := by
  cases hv
  cases u with
  | notANumber => exact absurd rfl hu
  | infinity t => simp [UnpackedFloat.mul]
  | zero t => simp [UnpackedFloat.mul]
  | finite t n k hn => exact roundWithAccuracy_number _ _ _ _

theorem div_number : UnpackedFloat.div .binary64 u v ≠ .notANumber := by
  cases hv
  cases u with
  | notANumber => exact absurd rfl hu
  | infinity t => simp [UnpackedFloat.div]
  | zero t => simp [UnpackedFloat.div]
  | finite t n k hn => exact roundWithAccuracy_number _ _ _ _

theorem add_number : UnpackedFloat.add .binary64 u v ≠ .notANumber := by
  cases hv
  cases u with
  | notANumber => exact absurd rfl hu
  | infinity t => simp [UnpackedFloat.add]
  | zero t => simp [UnpackedFloat.add]
  | finite t n k hn => exact normalize_number _ _ _

end Operations

section Doubles

variable {x y : Float} (hx : x.isNaN = false) (hy : Regular y.toModel.unpack)

include hx hy

theorem mul_isNaN : (x * y).isNaN = false :=
  isNaN_eq_false.mpr (pack_number (mul_number (isNaN_eq_false.mp hx) hy))

theorem div_isNaN : (x / y).isNaN = false :=
  isNaN_eq_false.mpr (pack_number (div_number (isNaN_eq_false.mp hx) hy))

theorem add_isNaN : (x + y).isNaN = false :=
  isNaN_eq_false.mpr (pack_number (add_number (isNaN_eq_false.mp hx) hy))

end Doubles

theorem ofNat_number (n : Nat) : UnpackedFloat.ofNat .binary64 n ≠ .notANumber :=
  normalize_number _ _ _

theorem powerOfTen_regular : ∀ e : Fin 23,
    Regular Float.exactlyRepresentablePowersOfTen[e].toModel.unpack := by
  decide +kernel

/-- Decimals beyond the range of doubles become zero or an infinity. -/
theorem unpackedScientific_number (m : Nat) (e : Int) :
    UnpackedFloat.ofScientific .binary64 m e ≠ .notANumber := by
  unfold UnpackedFloat.ofScientific
  split
  · simp
  · split
    · simp
    · split
      · simp
      · split
        · exact mul_number (by simp) (.finite ..)
        · exact div_number (by simp) (.finite ..)

theorem ofScientific_isNaN (m : Nat) (minus : Bool) (e : Nat) :
    (Float.ofScientific m minus e).isNaN = false := by
  unfold Float.ofScientific
  split
  · rename_i h
    have hm : m.toUInt64.toFloat.isNaN = false :=
      isNaN_eq_false.mpr (pack_number (ofNat_number _))
    have he := powerOfTen_regular ⟨e, Nat.lt_succ_of_le h.2⟩
    dsimp only
    split
    · exact div_isNaN hm he
    · exact mul_isNaN hm he
  · exact isNaN_eq_false.mpr (pack_number (unpackedScientific_number m _))

end GameRoster.Numeric

namespace GameRoster

theorem Text.Numeral.toFloat_isNaN (n : Text.Numeral) : n.toFloat.isNaN = false :=
  Numeric.ofScientific_isNaN _ _ _

theorem TimeUnit.seconds_regular (unit : TimeUnit) :
    Numeric.Regular unit.seconds.toModel.unpack := by
  cases unit <;> decide +kernel

namespace Time

theorem scaled_isNaN (numeral : Text.Numeral) (unit : TimeUnit) :
    (scaled numeral unit).isNaN = false :=
  Numeric.mul_isNaN numeral.toFloat_isNaN unit.seconds_regular

theorem ofText_isNaN {text : List Char} {x : Float} (h : ofText? text = some x) :
    x.isNaN = false := by
  unfold ofText? at h
  split at h
  · obtain ⟨unit, _, rfl⟩ := Option.map_eq_some_iff.mp h
    exact scaled_isNaN _ unit
  · cases h

theorem rangeOfText_isNaN {text : List Char} {first second : Float}
    (h : rangeOfText? text = some (first, second)) :
    first.isNaN = false ∧ second.isNaN = false := by
  simp only [rangeOfText?, Option.bind_eq_bind, Option.bind_eq_some_iff, Option.pure_def,
    Option.some.injEq, Prod.mk.injEq] at h
  obtain ⟨_, _, _, _, _, _, _, _, _, _, rfl, rfl⟩ := h
  exact ⟨scaled_isNaN _ _, scaled_isNaN _ _⟩

/-- Whatever a value says as a time is a number. -/
theorem source_isNaN (limits : TimeLimits) (loc : Location) (raw : Value) :
    Check.Yields (fun x => x.isNaN = false) (source limits loc raw) := by
  unfold source
  split
  · rename_i n
    refine .ok ?_
    split
    · exact Numeric.div_isNaN n.toFloat_isNaN (by decide +kernel)
    · exact n.toFloat_isNaN
  · split
    · rename_i x h
      exact .ok (ofText_isNaN h)
    · exact .fault
  · exact .fault

end Time

end GameRoster
