import GameRoster.Proofs.Magnitudes
import GameRoster.Proofs.Rounding

namespace GameRoster.Numeric
open Float.Model Float.Model.UnpackedFloat

theorem unpackSign_packComponents {spec : Float.Model.Format} {s : Sign}
    {exponent : BitVec spec.exponentBits} {mantissa : BitVec spec.mantissaBitsWithoutImplicit} :
    Sign.ofBitVec (unpackSign (packComponents spec s exponent mantissa)) = s := by
  have hsign : unpackSign (packComponents spec s exponent mantissa) = s.toBitVec := by
    ext i hi
    obtain rfl : i = 0 := by omega
    simp [unpackSign, packComponents, BitVec.getLsbD_append, BitVec.getElem_append]
  rw [hsign]
  cases s <;> rfl

theorem log2_of_full {m : Nat} (hlow : 2 ^ 52 ≤ m) (hhigh : m < 2 ^ 53) : m.log2 = 52 := by
  have hne : m ≠ 0 := by omega
  have hlt := (Nat.log2_lt hne).mpr hhigh
  have hle := (Nat.le_log2 hne).mpr hlow
  omega

/-- A mantissa of fifty-three bits is unpacked as it was packed. -/
theorem unpack_pack_full (s : Sign) {m : Nat} {e : Int} (hm : 0 < m) (hlow : 2 ^ 52 ≤ m)
    (hhigh : m < 2 ^ 53) (he : -1074 ≤ e) (he' : e ≤ 971) :
    (Float.Model.pack (.finite s m e hm)).unpack = .finite s m e hm := by
  have hlog := log2_of_full hlow hhigh
  have hbits : (2 : Nat) ^ Float.Model.Format.binary64.exponentBits = 2048 := rfl
  have hbias : (Float.Model.Format.binary64.exponentBias : Int) = 1023 := rfl
  have hmant : (Float.Model.Format.binary64.mantissaBitsWithoutImplicit : Int) = 52 := rfl
  have hfull : Float.Model.Format.binary64.mantissaBits = 53 := rfl
  generalize hk : (e + 1023 + 52).toNat = k
  have hexp : (BitVec.ofNat 11 k).toNat = k := by
    rw [BitVec.toNat_ofNat, Nat.mod_eq_of_lt (by omega)]
  have hall : BitVec.ofNat 11 k ≠ -1#11 := by
    intro h
    have hn := congrArg BitVec.toNat h
    have hones : (-1#11).toNat = 2047 := rfl
    omega
  have hzero : BitVec.ofNat 11 k ≠ 0#11 := by
    intro h
    have hn := congrArg BitVec.toNat h
    have hnone : (0#11).toNat = 0 := rfl
    omega
  have hone : (1#1 ++ BitVec.ofNat 52 m).toNat = m := by
    rw [BitVec.toNat_append, ← Nat.shiftLeft_add_eq_or_of_lt (BitVec.isLt _), BitVec.toNat_ofNat]
    simp only [BitVec.toNat_ofNat, Nat.shiftLeft_eq]
    omega
  have hback : ((k : Int) - (1023 + 52)) = e := by omega
  change UnpackedFloat.unpack .binary64 (UnpackedFloat.pack .binary64 _) = _
  unfold UnpackedFloat.pack
  dsimp only
  rw [hbits, hbias, hmant, hk, hlog, if_neg (by omega), if_pos hfull.symm]
  unfold UnpackedFloat.unpack
  simp only [unpackExponent_packComponents, unpackMantissa_packComponents,
    unpackSign_packComponents]
  rw [if_neg hall, if_neg hzero]
  congr 1
  rw [hexp, hbias, hmant, hback]

/-- A mantissa that fills its bits stays as it is. -/
theorem roundWithAccuracy_full (s : Sign) {m : Nat} {e : Int} (hm : 0 < m) (hlog : m.log2 = 52)
    (he : -1074 ≤ e) : roundWithAccuracy .binary64 s m e .exact = .finite s m e hm := by
  have hstill : shiftToTargetExponent .binary64 m e .exact = (⟨m, false, false⟩, e) := by
    have htarget : target m e = e := by
      unfold target
      omega
    simp only [shiftToTargetExponent, shiftToExponent, targetExponent_eq, htarget, Int.sub_self,
      Int.toNat_zero]
    simp [HShiftRight.hShiftRight, Nat.repeat, ExtendedMantissa.ofMantissaAndAccuracy]
  have hround : ExtendedMantissa.roundedMantissa ⟨m, false, false⟩ = m := rfl
  unfold roundWithAccuracy
  simp only [hstill, hround, dif_neg (Nat.pos_iff_ne_zero.mp hm)]

/-- A natural of at most fifty-three bits, or the least one beyond them, loses nothing. -/
theorem round_whole (s : Sign) {n : Nat} (hpos : 0 < n) (hn : n ≤ 2 ^ 53) :
    ∃ m e hm, UnpackedFloat.round .binary64 s n 0 = .finite s m e hm ∧ 2 ^ 52 ≤ m ∧ m < 2 ^ 53 ∧
      -1074 ≤ e ∧ e ≤ 971 ∧ units m e = n * unitsPerOne := by
  rcases Nat.lt_or_eq_of_le hn with hlt | rfl
  · have hne := Nat.pos_iff_ne_zero.mp hpos
    have hlog : n.log2 < 53 := (Nat.log2_lt hne).mpr hlt
    generalize hk : 52 - n.log2 = k
    have hlow : 2 ^ 52 ≤ n * 2 ^ k := by
      have hsum : 52 = n.log2 + k := by omega
      rw [hsum, Nat.pow_add]
      exact Nat.mul_le_mul_right _ (Nat.log2_self_le hne)
    have hhigh : n * 2 ^ k < 2 ^ 53 := by
      have hsum : 53 = n.log2 + 1 + k := by omega
      rw [hsum, Nat.pow_add]
      exact Nat.mul_lt_mul_of_pos_right Nat.lt_log2_self (Nat.two_pow_pos k)
    have hm : 0 < n * 2 ^ k := Nat.mul_pos hpos (Nat.two_pow_pos k)
    have htarget : target n 0 = -k := by
      unfold target
      omega
    refine ⟨n * 2 ^ k, -k, hm, ?_, hlow, hhigh, by omega, by omega, ?_⟩
    · unfold UnpackedFloat.round decreaseExponent
      simp only [targetExponent_eq, htarget, Int.zero_sub, Int.neg_neg, Int.toNat_natCast,
        Nat.shiftLeft_eq]
      exact roundWithAccuracy_full s hm (log2_of_full hlow hhigh) (by omega)
    · have hexp : (-(k : Int) + 1074).toNat = 1074 - k := by omega
      rw [units, hexp, unitsPerOne_split (k := k) (by omega), Nat.mul_assoc]
  · exact ⟨2 ^ 52, 1, by decide, by cases s <;> rfl, by decide, by decide, by decide,
      by decide, by decide +kernel⟩

/-- Integers of at most fifty-three bits are doubles. -/
theorem exact_ofInt {n : Int} (hn : n.natAbs ≤ 2 ^ 53) :
    Exact (ofInt n).toModel.unpack (n * unitsPerOne) := by
  have hmodel : (ofInt n).toModel.unpack =
      (Float.Model.pack (UnpackedFloat.normalize .binary64 n 0 .positive)).unpack := rfl
  rw [hmodel]
  unfold UnpackedFloat.normalize
  rcases Int.lt_trichotomy n 0 with hneg | rfl | hpos
  · rw [compare_lt_iff_lt.mpr hneg]
    obtain ⟨m, e, hm, hround, hlow, hhigh, he, he', hunits⟩ :=
      round_whole .negative (n := (-n).toNat) (by omega) (by omega)
    have hvalue : n * unitsPerOne = -(units m e : Int) := by
      rw [hunits]
      push_cast
      rw [Int.toNat_of_nonneg (by omega), Int.neg_mul, Int.neg_neg]
    simp only [hround, unpack_pack_full _ hm hlow hhigh he he', hvalue]
    exact .negative hm ⟨hhigh, he, .inl hlow⟩
  · rw [Int.zero_mul]
    exact .zero _
  · rw [compare_gt_iff_gt.mpr hpos]
    obtain ⟨m, e, hm, hround, hlow, hhigh, he, he', hunits⟩ :=
      round_whole .positive (n := n.toNat) (by omega) (by omega)
    have hvalue : n * unitsPerOne = (units m e : Int) := by
      rw [hunits]
      push_cast
      rw [Int.toNat_of_nonneg (by omega)]
    simp only [hround, unpack_pack_full _ hm hlow hhigh he he', hvalue]
    exact .positive hm ⟨hhigh, he, .inl hlow⟩

theorem Representable.of_natAbs {n : Int} (hn : n.natAbs ≤ 2 ^ 53) : Representable n := by
  refine ⟨exact_ofInt hn, ?_, ?_⟩
  · rw [wordMin, Nat.pow_eq]
    omega
  · rw [wordMax, Nat.pow_eq]
    omega

end GameRoster.Numeric
