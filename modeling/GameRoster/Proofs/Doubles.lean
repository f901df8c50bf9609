import GameRoster.Value
import Mathlib

namespace GameRoster.Numeric
open Float.Model Float.Model.UnpackedFloat

/-- A mantissa fills its fifty-three bits unless the exponent is the least one. -/
structure Canonical (m : Nat) (e : Int) : Prop where
  mantissa_lt : m < 2 ^ 53
  le_exponent : -1074 ≤ e
  full : 2 ^ 52 ≤ m ∨ e = -1074

/-- A magnitude in units of the least positive double. -/
def units (m : Nat) (e : Int) : Nat := m * 2 ^ (e + 1074).toNat

theorem units_pos {m : Nat} (h : 0 < m) (e : Int) : 0 < units m e :=
  Nat.mul_pos h (Nat.two_pow_pos _)

section Order

variable {m m' : Nat} {e e' : Int} (h : Canonical m e) (h' : Canonical m' e')

include h h'

theorem Canonical.units_lt (he : e < e') : units m e < units m' e' := by
  have hlow := h.le_exponent
  have hfull : 2 ^ 52 ≤ m' := h'.full.resolve_right (by omega)
  have hk : (e + 1074).toNat + 1 ≤ (e' + 1074).toNat := by omega
  calc m * 2 ^ (e + 1074).toNat
      < 2 ^ 53 * 2 ^ (e + 1074).toNat :=
        Nat.mul_lt_mul_of_pos_right h.mantissa_lt (Nat.two_pow_pos _)
    _ = 2 ^ 52 * 2 ^ ((e + 1074).toNat + 1) := by rw [Nat.pow_succ]; ring
    _ ≤ m' * 2 ^ (e' + 1074).toNat :=
        Nat.mul_le_mul hfull (Nat.pow_le_pow_right (by decide) hk)

/-- Magnitudes are ordered by exponent first. -/
theorem Canonical.compare_units :
    (compare e e').then (compare m m') = .lt ↔ units m e < units m' e' := by
  rw [Ordering.then_eq_lt, Int.compare_eq_lt, Nat.compare_eq_lt, compare_eq_iff_eq]
  constructor
  · rintro (he | ⟨rfl, hm⟩)
    · exact h.units_lt h' he
    · exact Nat.mul_lt_mul_of_pos_right hm (Nat.two_pow_pos _)
  · intro hu
    rcases Int.lt_trichotomy e e' with he | rfl | he
    · exact .inl he
    · exact .inr ⟨rfl, Nat.lt_of_mul_lt_mul_right hu⟩
    · exact absurd (h'.units_lt h he) (Nat.lt_asymm hu)

end Order

/-- The exact value of an unpacked double in units of the least positive one. NaN and the
infinities have none. -/
inductive Exact : UnpackedFloat → Int → Prop
  | zero (s : Sign) : Exact (.zero s) 0
  | positive {m : Nat} {e : Int} (hm : 0 < m) (h : Canonical m e) :
      Exact (.finite .positive m e hm) (units m e)
  | negative {m : Nat} {e : Int} (hm : 0 < m) (h : Canonical m e) :
      Exact (.finite .negative m e hm) (-units m e)

/-- Doubles compare as their exact values do. -/
theorem Exact.compare_eq_lt {u v : UnpackedFloat} {a b : Int} (hu : Exact u a) (hv : Exact v b) :
    u.compare v = some .lt ↔ a < b := by
  cases hu with
  | zero s =>
    cases hv with
    | zero t => simp [UnpackedFloat.compare]
    | @positive m e hm h =>
      have hp := units_pos hm e
      simp only [UnpackedFloat.compare, true_iff]
      omega
    | @negative m e hm h => simp [UnpackedFloat.compare]
  | @positive m e hm h =>
    have hp := units_pos hm e
    cases hv with
    | zero t => simp [UnpackedFloat.compare]
    | @positive m' e' hm' h' =>
      simp only [UnpackedFloat.compare, Option.some.injEq, h.compare_units h']
      omega
    | @negative m' e' hm' h' =>
      simp only [UnpackedFloat.compare, Option.some.injEq, reduceCtorEq, false_iff]
      omega
  | @negative m e hm h =>
    have hp := units_pos hm e
    cases hv with
    | zero t =>
      simp only [UnpackedFloat.compare, true_iff]
      omega
    | @positive m' e' hm' h' =>
      simp only [UnpackedFloat.compare, true_iff]
      omega
    | @negative m' e' hm' h' =>
      have hs : ((compare e e').then (compare m m')).swap = .lt ↔ units m' e' < units m e := by
        rw [← h'.compare_units h, Ordering.swap_then, Int.compare_swap, Nat.compare_swap]
      simp only [UnpackedFloat.compare, Option.some.injEq, hs]
      omega

/-- What the parts of a double say when its exact value is read off its unpacked form. -/
def Binary.scaled (b : Binary) : Int :=
  if b.negative then -units b.mantissa b.exponent else units b.mantissa b.exponent

section Fields

variable (x : Float)

theorem toNat_unpackMantissa :
    (@unpackMantissa .binary64 x.toBits.toBitVec).toNat = Binary.fractionField x := by
  simp [unpackMantissa, Binary.fractionField]

theorem toNat_unpackExponent :
    (@unpackExponent .binary64 x.toBits.toBitVec).toNat = Binary.exponentField x := by
  simp [unpackExponent, Binary.exponentField, Nat.shiftRight_eq_div_pow]

theorem toNat_unpackSign :
    (@unpackSign .binary64 x.toBits.toBitVec).toNat = x.toBits.toNat / 2 ^ 63 % 2 := by
  simp [unpackSign, Nat.shiftRight_eq_div_pow]

theorem ofBitVec_unpackSign : Sign.ofBitVec (@unpackSign .binary64 x.toBits.toBitVec) =
    if Binary.isNegative x then .negative else .positive := by
  have hs := toNat_unpackSign x
  have hb : x.toBits.toNat < 2 ^ 64 := x.toBits.toNat_lt
  have hz : @unpackSign .binary64 x.toBits.toBitVec = 0#1 ↔
      Binary.isNegative x = false := by
    rw [← BitVec.toNat_inj, hs]
    simp only [Binary.isNegative, BitVec.toNat_ofNat, decide_eq_false_iff_not, Nat.pow_eq]
    omega
  unfold Sign.ofBitVec
  cases hn : Binary.isNegative x <;> simp [hz, hn]

/-- An unpacked double by the fields of its bits. -/
theorem unpack_eq : x.toModel.unpack =
    let s : Sign := if Binary.isNegative x then .negative else .positive
    if Binary.exponentField x = 2047 then
      if Binary.fractionField x = 0 then .infinity s else .notANumber
    else if Binary.exponentField x = 0 then
      if h : Binary.fractionField x = 0 then .zero s
      else .finite s (Binary.fractionField x) (-1074) (Nat.pos_of_ne_zero h)
    else .finite s (2 ^ 52 + Binary.fractionField x) (Binary.exponentField x - 1075)
      (Nat.add_pos_left (Nat.two_pow_pos 52) _) := by
  have he := toNat_unpackExponent x
  have hm := toNat_unpackMantissa x
  have hall : @unpackExponent .binary64 x.toBits.toBitVec = -1#_ ↔
      Binary.exponentField x = 2047 := by
    rw [← BitVec.toNat_inj, he]
    rfl
  have hzero : @unpackExponent .binary64 x.toBits.toBitVec = 0#_ ↔
      Binary.exponentField x = 0 := by
    rw [← BitVec.toNat_inj, he]
    rfl
  have hfrac : @unpackMantissa .binary64 x.toBits.toBitVec = 0#_ ↔
      Binary.fractionField x = 0 := by
    rw [← BitVec.toNat_inj, hm]
    rfl
  have hone : (1#1 ++ @unpackMantissa .binary64 x.toBits.toBitVec).toNat =
      2 ^ 52 + Binary.fractionField x := by
    rw [BitVec.toNat_append, ← Nat.shiftLeft_add_eq_or_of_lt (BitVec.isLt _), hm]
    simp [Nat.shiftLeft_eq]
  have hbias : (Format.binary64.exponentBias : Int) = 1023 := rfl
  change UnpackedFloat.unpack .binary64 x.toBits.toBitVec = _
  unfold UnpackedFloat.unpack
  simp only [hall, hzero, hfrac, he, hm, hone, ofBitVec_unpackSign, hbias]
  split
  · rfl
  · split
    · split
      · rfl
      · congr 1
        omega
    · congr 1

theorem Exact.ofSign (negative : Bool) {m : Nat} {e : Int} (hm : 0 < m) (h : Canonical m e) :
    Exact (.finite (if negative then .negative else .positive) m e hm)
      (Binary.scaled ⟨negative, m, e⟩) := by
  cases negative with
  | false => exact .positive hm h
  | true => exact .negative hm h

theorem Binary.exact {b : Binary} (h : Binary.ofFloat? x = some b) :
    Exact x.toModel.unpack b.scaled := by
  have hf : Binary.fractionField x < 2 ^ 52 := Nat.mod_lt _ (by decide)
  have hu := unpack_eq x
  unfold Binary.ofFloat? at h
  split at h
  · cases h
  · rename_i he
    obtain rfl := Option.some.inj h
    simp only [he] at hu
    rw [hu, if_neg (by decide), if_pos trivial]
    split
    · rename_i hz
      have h0 : Binary.scaled ⟨Binary.isNegative x, Binary.fractionField x, -1074⟩ = 0 := by
        simp [Binary.scaled, units, hz]
      rw [h0]
      exact .zero _
    · exact .ofSign _ _ ⟨by omega, by omega, .inr rfl⟩
  · rename_i e hne he
    obtain rfl := Option.some.inj h
    have hne : e ≠ 2046 := hne
    have hcast : ((e + 1 : Nat) : Int) - 1075 = e - 1074 := by omega
    simp only [he, Nat.succ_eq_add_one, hcast] at hu
    rw [hu, if_neg (by omega), if_neg (by omega)]
    exact .ofSign _ _ ⟨by omega, by omega, .inl (by omega)⟩

/-- A double without an exact value is NaN or an infinity. -/
theorem unpack_of_none (h : Binary.ofFloat? x = none) :
    x.toModel.unpack = .notANumber ∨
      x.toModel.unpack = .infinity (if Binary.isNegative x then .negative else .positive) := by
  have hu := unpack_eq x
  unfold Binary.ofFloat? at h
  split at h
  · rename_i he
    rw [hu]
    simp only [he, ↓reduceIte]
    split
    · exact .inr rfl
    · exact .inl rfl
  · cases h
  · cases h

theorem lt_iff_compare {x y : Float} :
    x < y ↔ x.toModel.unpack.compare y.toModel.unpack = some .lt := by
  change decide _ = true ↔ _
  rw [decide_eq_true_iff]
  change UnpackedFloat.lt _ _ = true ↔ _
  unfold UnpackedFloat.lt
  simp

end Fields

theorem unpack_eq_notANumber {spec : Float.Model.Format} {bits : BitVec spec.numBits} :
    UnpackedFloat.unpack spec bits = .notANumber ↔
      unpackExponent bits = -1#_ ∧ unpackMantissa bits ≠ 0#_ := by
  unfold UnpackedFloat.unpack
  dsimp only
  by_cases he : unpackExponent bits = -1#_
  · by_cases hm : unpackMantissa bits = 0#_ <;> simp [he, hm]
  · simp only [he, if_false, false_and, iff_false]
    split
    · split <;> simp
    · simp

/-- Only what is not a number packs to NaN. -/
theorem pack_number {u : UnpackedFloat} (h : u ≠ .notANumber) :
    (Float.Model.pack u).unpack ≠ .notANumber := by
  change UnpackedFloat.unpack .binary64 (UnpackedFloat.pack .binary64 u) ≠ _
  rw [Ne, unpack_eq_notANumber]
  cases u with
  | notANumber => exact absurd rfl h
  | infinity s => simp [UnpackedFloat.pack, packedInfinity]
  | zero s => simp [UnpackedFloat.pack, packedZero]
  | finite s m e hm =>
    unfold UnpackedFloat.pack
    dsimp only
    split
    · simp [packedInfinity]
    · rename_i hle
      split
      · rw [unpackExponent_packComponents]
        rintro ⟨he, _⟩
        have hn := congrArg BitVec.toNat he
        have hall : (-1#11).toNat = 2047 := rfl
        rw [BitVec.toNat_ofNat, Nat.mod_eq_of_lt (by omega), hall] at hn
        omega
      · simp

theorem round_number (sign : Sign) (m : Nat) (e : Int) :
    UnpackedFloat.round .binary64 sign m e ≠ .notANumber := by
  unfold UnpackedFloat.round roundWithAccuracy
  dsimp only
  split <;> simp

theorem ofInt_number (n : Int) : (ofInt n).toModel.unpack ≠ .notANumber := by
  refine pack_number ?_
  unfold UnpackedFloat.ofInt UnpackedFloat.normalize
  split
  · exact round_number _ _ _
  · simp
  · exact round_number _ _ _

theorem isNaN_eq_false {x : Float} : x.isNaN = false ↔ x.toModel.unpack ≠ .notANumber := by
  change x.toModel.unpack.isNaN = false ↔ _
  rw [← Bool.not_eq_true, isNaN_iff]

theorem isNaN_of_isFinite {x : Float} (h : x.isFinite = true) : x.isNaN = false := by
  rw [isNaN_eq_false]
  intro hn
  change x.toModel.unpack.isFinite = true at h
  simp [hn, UnpackedFloat.isFinite] at h

theorem ofInt_isNaN (n : Int) : (ofInt n).isNaN = false := isNaN_eq_false.mpr (ofInt_number n)

end GameRoster.Numeric

/-- No number that an author can write is NaN. -/
theorem GameRoster.Number.toFloat_isNaN (n : Number) : n.toFloat.isNaN = false := by
  cases n with
  | int n => exact Numeric.ofInt_isNaN n
  | float x finite => exact Numeric.isNaN_of_isFinite finite
