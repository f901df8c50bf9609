import GameRoster.Field.Number
import GameRoster.Proofs.Checks
import GameRoster.Proofs.Doubles

namespace GameRoster.Numeric
open Float.Model Float.Model.UnpackedFloat

/-- How many units of the least positive double make one. -/
def unitsPerOne : Nat := units 1 0

theorem unitsPerOne_pos : 0 < unitsPerOne := units_pos Nat.one_pos 0

theorem unitsPerOne_split {k : Nat} (hk : k ≤ 1074) : unitsPerOne = 2 ^ k * 2 ^ (1074 - k) := by
  have hexp : ((0 : Int) + 1074).toNat = k + (1074 - k) := by omega
  rw [unitsPerOne, units, Nat.one_mul, hexp, Nat.pow_add]

theorem units_of_neg {e : Int} (m : Nat) (he : e < 0) (hlow : -1074 ≤ e) :
    units m e = m * 2 ^ (1074 - (-e).toNat) := by
  have hk : (e + 1074).toNat = 1074 - (-e).toNat := by omega
  rw [units, hk]

theorem units_of_nonneg {e : Int} (m : Nat) (he : 0 ≤ e) :
    units m e = m * 2 ^ e.toNat * unitsPerOne := by
  have hk : (e + 1074).toNat = e.toNat + ((0 : Int) + 1074).toNat := by omega
  rw [unitsPerOne, units, units, hk, Nat.pow_add, Nat.one_mul, Nat.mul_assoc]

section Whole

variable {n m : Nat} {e : Int} (he : e < 0) (hlow : -1074 ≤ e)

include he hlow

/-- Below the exponent zero a whole number is compared with a mantissa by shifting it. -/
theorem whole_le_units : n * unitsPerOne ≤ units m e ↔ n * 2 ^ (-e).toNat ≤ m := by
  rw [units_of_neg m he hlow, unitsPerOne_split (k := (-e).toNat) (by omega), ← Nat.mul_assoc]
  exact Nat.mul_le_mul_right_iff (Nat.two_pow_pos _)

theorem units_le_whole : units m e ≤ n * unitsPerOne ↔ m ≤ n * 2 ^ (-e).toNat := by
  rw [units_of_neg m he hlow, unitsPerOne_split (k := (-e).toNat) (by omega), ← Nat.mul_assoc]
  exact Nat.mul_le_mul_right_iff (Nat.two_pow_pos _)

end Whole

namespace Binary

variable {b : Binary} (hlow : -1074 ≤ b.exponent)

include hlow

theorem le_roundedMagnitude {n : Nat} (h : n * unitsPerOne ≤ units b.mantissa b.exponent) :
    n ≤ b.roundedMagnitude := by
  unfold roundedMagnitude
  split
  · rename_i he
    rw [units_of_nonneg _ he] at h
    exact Nat.le_of_mul_le_mul_right h unitsPerOne_pos
  · rename_i he
    have hm := (whole_le_units (Int.not_le.mp he) hlow).mp h
    exact (Nat.le_div_iff_mul_le (Nat.two_pow_pos _)).mpr (Nat.le_add_right_of_le hm)

theorem roundedMagnitude_le {n : Nat} (h : units b.mantissa b.exponent ≤ n * unitsPerOne) :
    b.roundedMagnitude ≤ n := by
  unfold roundedMagnitude
  split
  · rename_i he
    rw [units_of_nonneg _ he] at h
    exact Nat.le_of_mul_le_mul_right h unitsPerOne_pos
  · rename_i he
    have hm := (units_le_whole (Int.not_le.mp he) hlow).mp h
    have hhalf : Nat.pow 2 ((-b.exponent).toNat - 1) < 2 ^ (-b.exponent).toNat :=
      Nat.pow_lt_pow_right (by decide) (by omega)
    refine Nat.le_of_lt_succ ((Nat.div_lt_iff_lt_mul (Nat.two_pow_pos _)).mpr ?_)
    rw [Nat.succ_mul]
    exact Nat.add_lt_add_of_le_of_lt hm hhalf

/-- Rounding never goes below an integer that the exact value is not below. -/
theorem le_round {n : Int} (h : n * unitsPerOne ≤ b.scaled) : n ≤ b.round := by
  have hone : 0 < (unitsPerOne : Int) := Int.natCast_pos.mpr unitsPerOne_pos
  unfold scaled at h
  unfold round
  split at h
  · rename_i hb
    rw [if_pos hb]
    have hn : n ≤ 0 := by
      by_contra hpos
      have hu := Int.mul_pos (Int.not_le.mp hpos) hone
      omega
    have hcast : ((-n).toNat : Int) = -n := Int.toNat_of_nonneg (by omega)
    have hle : units b.mantissa b.exponent ≤ (-n).toNat * unitsPerOne := by
      zify
      rw [hcast, Int.neg_mul]
      omega
    have hr := roundedMagnitude_le hlow hle
    omega
  · rename_i hb
    rw [if_neg hb]
    rcases Int.le_total n 0 with hn | hn
    · omega
    · have hcast : (n.toNat : Int) = n := Int.toNat_of_nonneg hn
      have hle : n.toNat * unitsPerOne ≤ units b.mantissa b.exponent := by
        zify
        rw [hcast]
        exact h
      have hr := le_roundedMagnitude hlow hle
      omega

/-- The same magnitude under the other sign. -/
def opposite (b : Binary) : Binary := { b with negative := !b.negative }

omit hlow in
theorem scaled_opposite : b.opposite.scaled = -b.scaled := by
  unfold opposite scaled
  cases b.negative <;> simp

omit hlow in
theorem round_opposite : b.opposite.round = -b.round := by
  unfold opposite round
  cases b.negative <;> simp [roundedMagnitude]

/-- Rounding never goes above an integer that the exact value is not above. -/
theorem round_le {n : Int} (h : b.scaled ≤ n * unitsPerOne) : b.round ≤ n := by
  have hopposite : -n * unitsPerOne ≤ b.opposite.scaled := by
    rw [scaled_opposite, Int.neg_mul]
    exact Int.neg_le_neg h
  have hle := le_round (b := b.opposite) hlow hopposite
  rw [round_opposite] at hle
  exact Int.neg_le_neg_iff.mp hle

end Binary

/-- A word whose nearest double is exact. -/
structure Representable (n : Int) : Prop where
  exact : Exact (ofInt n).toModel.unpack (n * unitsPerOne)
  wordMin_le : wordMin ≤ n
  le_wordMax : n ≤ wordMax

theorem Exact.negative_infinity_lt {u : UnpackedFloat} {a : Int} (h : Exact u a) :
    (UnpackedFloat.infinity .negative).compare u = some .lt := by
  cases h <;> rfl

theorem Exact.lt_positive_infinity {u : UnpackedFloat} {a : Int} (h : Exact u a) :
    u.compare (UnpackedFloat.infinity .positive) = some .lt := by
  cases h <;> rfl

theorem Binary.le_exponent {x : Float} {b : Binary} (h : Binary.ofFloat? x = some b) :
    -1074 ≤ b.exponent := by
  unfold ofFloat? at h
  split at h
  · cases h
  · obtain rfl := Option.some.inj h
    exact Int.le_refl _
  · obtain rfl := Option.some.inj h
    simp only
    omega

/-- Rounding to a word never goes below an exact integer that a double is not below. -/
theorem Representable.le_roundToWord {n : Int} (hn : Representable n) {x : Float}
    (hx : x.isNaN = false) (h : ¬ x < ofInt n) : n ≤ roundToWord x := by
  have hmin := hn.wordMin_le
  have hmax := hn.le_wordMax
  rw [lt_iff_compare] at h
  unfold roundToWord
  cases hb : Binary.ofFloat? x with
  | some b =>
    rw [(Binary.exact x hb).compare_eq_lt hn.exact, Int.not_lt] at h
    have hr := Binary.le_round (Binary.le_exponent hb) h
    simp only [saturate]
    omega
  | none =>
    simp only [hx, Bool.false_eq_true, if_false]
    rcases unpack_of_none x hb with hu | hu
    · exact absurd hu (isNaN_eq_false.mp hx)
    · split
      · rename_i hneg
        rw [hu, hneg, if_pos rfl, hn.exact.negative_infinity_lt] at h
        exact absurd rfl h
      · exact hmax

/-- Rounding to a word never goes above an exact integer that a double is not above. -/
theorem Representable.roundToWord_le {n : Int} (hn : Representable n) {x : Float}
    (hx : x.isNaN = false) (h : ¬ ofInt n < x) : roundToWord x ≤ n := by
  have hmin := hn.wordMin_le
  have hmax := hn.le_wordMax
  rw [lt_iff_compare] at h
  unfold roundToWord
  cases hb : Binary.ofFloat? x with
  | some b =>
    rw [hn.exact.compare_eq_lt (Binary.exact x hb), Int.not_lt] at h
    have hr := Binary.round_le (Binary.le_exponent hb) h
    simp only [saturate]
    omega
  | none =>
    simp only [hx, Bool.false_eq_true, if_false]
    rcases unpack_of_none x hb with hu | hu
    · exact absurd hu (isNaN_eq_false.mp hx)
    · split
      · exact hmin
      · rename_i hpos
        rw [hu, if_neg hpos, hn.exact.lt_positive_infinity] at h
        exact absurd rfl h

end GameRoster.Numeric

namespace GameRoster

theorem FloatLimits.check_least {limits : FloatLimits} {lo : Float}
    (hl : limits.least = some lo) {loc : Location} {x : Float}
    (h : limits.check loc x = .ok ()) : ¬ x < lo := by
  intro hlt
  unfold FloatLimits.check at h
  rw [hl] at h
  cases hg : limits.greatest <;> simp [hg, hlt, Check.field] at h

theorem FloatLimits.check_greatest {limits : FloatLimits} {hi : Float}
    (hg : limits.greatest = some hi) {loc : Location} {x : Float}
    (h : limits.check loc x = .ok ()) : ¬ hi < x := by
  intro hlt
  unfold FloatLimits.check at h
  rw [hg] at h
  cases hl : limits.least with
  | none => simp [hl, hlt, Check.field] at h
  | some lo => by_cases hlo : x < lo <;> simp [hl, hlt, hlo, Check.field] at h

namespace Field

theorem intSource_isNaN (limits : IntLimits) (loc : Location) (raw : Value) :
    Check.Yields (fun x => x.isNaN = false) (intSource limits loc raw) := by
  intro x h
  unfold intSource at h
  split at h
  · rename_i n
    obtain rfl := Except.ok.inj h
    exact n.toFloat_isNaN
  · rename_i b
    split at h
    · obtain rfl := Except.ok.inj h
      cases b <;> decide +kernel
    · cases h
  · cases h

/-- An integer field never yields less than its least value. -/
theorem int_least {limits : IntLimits} {lo : Int} (hl : limits.least = some lo)
    (hlo : Numeric.Representable lo) (loc : Location) (raw : Value) :
    Check.Yields (fun n => lo ≤ n) (int limits loc raw) := by
  unfold int
  refine .bind fun x hx => .bind fun u hu => .pure ?_
  have hleast : limits.toFloats.least = some (Numeric.ofInt lo) := by simp [IntLimits.toFloats, hl]
  exact hlo.le_roundToWord (intSource_isNaN limits loc raw x hx)
    (FloatLimits.check_least hleast hu)

/-- An integer field never yields more than its greatest value. -/
theorem int_greatest {limits : IntLimits} {hi : Int} (hg : limits.greatest = some hi)
    (hhi : Numeric.Representable hi) (loc : Location) (raw : Value) :
    Check.Yields (fun n => n ≤ hi) (int limits loc raw) := by
  unfold int
  refine .bind fun x hx => .bind fun u hu => .pure ?_
  have hgreatest : limits.toFloats.greatest = some (Numeric.ofInt hi) := by
    simp [IntLimits.toFloats, hg]
  exact hhi.roundToWord_le (intSource_isNaN limits loc raw x hx)
    (FloatLimits.check_greatest hgreatest hu)

end Field

end GameRoster
