import GameRoster.Plane
import GameRoster.Proofs.Ordering

namespace GameRoster.Numeric
open Float.Model Float.Model.UnpackedFloat

/-- A zero, or a magnitude whose exponent is not beyond the last one. -/
inductive InRange : UnpackedFloat → Prop
  | zero (s : Sign) : InRange (.zero s)
  | finite (s : Sign) {m : Nat} {e : Int} (hm : 0 < m) (he : e ≤ 971) : InRange (.finite s m e hm)

theorem unpack_isFinite (spec : Float.Model.Format) {bits : BitVec spec.numBits}
    (h : unpackExponent bits ≠ -1#_) : (UnpackedFloat.unpack spec bits).isFinite = true := by
  unfold UnpackedFloat.unpack
  dsimp only
  rw [if_neg h]
  split
  · split <;> rfl
  · rfl

/-- What is in range packs to a finite double. -/
theorem InRange.isFinite {u : UnpackedFloat} (h : InRange u) :
    (Float.ofModel (Float.Model.pack u)).isFinite = true := by
  refine unpack_isFinite .binary64 ?_
  change unpackExponent (UnpackedFloat.pack .binary64 u) ≠ _
  cases h with
  | zero s =>
    simp only [UnpackedFloat.pack, packedZero, unpackExponent_packComponents]
    decide
  | @finite s m e hm he =>
    have hbits : (2 : Nat) ^ Float.Model.Format.binary64.exponentBits = 2048 := rfl
    have hbias : (Float.Model.Format.binary64.exponentBias : Int) = 1023 := rfl
    have hmant : (Float.Model.Format.binary64.mantissaBitsWithoutImplicit : Int) = 52 := rfl
    unfold UnpackedFloat.pack
    dsimp only
    rw [hbits, hbias, hmant, if_neg (by omega)]
    split
    · rw [unpackExponent_packComponents]
      intro hall
      have hn := congrArg BitVec.toNat hall
      have hones : (-1#11).toNat = 2047 := rfl
      rw [BitVec.toNat_ofNat, Nat.mod_eq_of_lt (by omega), hones] at hn
      omega
    · rw [unpackExponent_packComponents]
      decide

section Rounding

theorem shift_mantissa (em : ExtendedMantissa) (n : Nat) :
    (em >>> n).mantissa = em.mantissa / 2 ^ n := by
  change (Nat.repeat ExtendedMantissa.shiftRightOne n em).mantissa = _
  induction n with
  | zero => exact (Nat.div_one _).symm
  | succ n ih =>
    rw [Nat.repeat, ExtendedMantissa.shiftRightOne, ih, Nat.div_div_eq_div_mul, Nat.pow_succ]

theorem ofMantissa_mantissa (m : Nat) (accuracy : Accuracy) :
    (ExtendedMantissa.ofMantissaAndAccuracy m accuracy).mantissa = m := by
  unfold ExtendedMantissa.ofMantissaAndAccuracy
  split <;> rfl

theorem roundedMantissa_le (em : ExtendedMantissa) : em.roundedMantissa ≤ em.mantissa + 1 := by
  unfold ExtendedMantissa.roundedMantissa Accuracy.roundToNearestEven
  split <;> omega

/-- Where a mantissa is shifted to when it is made to fit. -/
def target (m : Nat) (e : Int) : Int := max (m.log2 + 1 + e - 53) (-1074)

theorem targetExponent_eq (m : Nat) (e : Int) :
    Float.Model.Format.binary64.targetExponent (totalExponent m e) = target m e := rfl

/-- Rounding a shifted mantissa gives at most one bit more than the shift leaves. -/
theorem log2_rounded (m n : Nat) {r : Nat} (hr : r ≤ m / 2 ^ n + 1) :
    r.log2 ≤ m.log2 + 1 - n := by
  rcases Nat.eq_zero_or_pos r with rfl | hpos
  · simp
  · have hlog : r.log2 < m.log2 + 1 - n + 1 := by
      rw [Nat.log2_lt (Nat.pos_iff_ne_zero.mp hpos)]
      have hdiv : m / 2 ^ n < 2 ^ (m.log2 + 1 - n) := by
        rw [Nat.div_lt_iff_lt_mul (Nat.two_pow_pos n), ← Nat.pow_add]
        exact Nat.lt_of_lt_of_le Nat.lt_log2_self (Nat.pow_le_pow_right (by decide) (by omega))
      have hpow := Nat.two_pow_pos (m.log2 + 1 - n)
      rw [Nat.pow_succ]
      omega
    omega

/-- A mantissa with a bit to spare is still in range when it is rounded. -/
theorem roundWithAccuracy_inRange {m : Nat} {e : Int} (hm : (m.log2 : Int) + 1 + e ≤ 1023)
    (he : e ≤ 971) (s : Sign) (accuracy : Accuracy) :
    InRange (roundWithAccuracy .binary64 s m e accuracy) := by
  have hr := roundedMantissa_le
    (ExtendedMantissa.ofMantissaAndAccuracy m accuracy >>> (target m e - e).toNat)
  rw [shift_mantissa, ofMantissa_mantissa] at hr
  have hlog := log2_rounded _ _ hr
  unfold roundWithAccuracy
  dsimp only
  split
  · exact .zero s
  · refine .finite s _ ?_
    simp only [shiftToTargetExponent, shiftToExponent, targetExponent_eq]
    generalize ExtendedMantissa.roundedMantissa _ = r at hlog ⊢
    unfold target at *
    omega

theorem round_inRange {m : Nat} {e : Int} (hm : (m.log2 : Int) + 1 + e ≤ 1023) (he : e ≤ 971)
    (s : Sign) : InRange (UnpackedFloat.round .binary64 s m e) := by
  unfold UnpackedFloat.round decreaseExponent
  simp only [targetExponent_eq]
  generalize (e - target m e).toNat = n
  have hlog : (m <<< n).log2 ≤ m.log2 + n := by
    rcases Nat.eq_zero_or_pos m with rfl | hpos
    · simp
    · have hlt : (m <<< n).log2 < m.log2 + n + 1 := by
        rw [Nat.shiftLeft_eq,
          Nat.log2_lt (Nat.pos_iff_ne_zero.mp (Nat.mul_pos hpos (Nat.two_pow_pos n))),
          Nat.add_right_comm, Nat.pow_add]
        exact Nat.mul_lt_mul_of_pos_right Nat.lt_log2_self (Nat.two_pow_pos n)
      omega
  exact roundWithAccuracy_inRange (by omega) (by omega) s .exact

end Rounding

/-- Whole numbers of up to seventy bits are far from the last exponent. -/
theorem normalize_inRange {n : Int} (hn : n.natAbs < 2 ^ 70) (zeroSign : Sign) :
    InRange (UnpackedFloat.normalize .binary64 n 0 zeroSign) := by
  have hbits : ∀ m : Nat, m < 2 ^ 70 → (m.log2 : Int) + 1 + 0 ≤ 1023 := by
    intro m hm
    rcases Nat.eq_zero_or_pos m with rfl | hpos
    · simp
    · have hlog := (Nat.log2_lt (Nat.pos_iff_ne_zero.mp hpos)).mpr hm
      omega
  unfold UnpackedFloat.normalize
  split
  · exact round_inRange (hbits _ (by omega)) (by omega) _
  · exact .zero _
  · exact round_inRange (hbits _ (by omega)) (by omega) _

theorem ofInt_isFinite {n : Int} (hn : n.natAbs < 2 ^ 70) : (ofInt n).isFinite = true :=
  (normalize_inRange hn .positive).isFinite

/-- What a finite double unpacks to. -/
theorem unpack_of_isFinite {x : Float} (hx : x.isFinite = true) :
    (∃ s, x.toModel.unpack = .zero s) ∨
      ∃ s m e hm, x.toModel.unpack = .finite s m e hm ∧ Canonical m e ∧ e ≤ 971 ∧
        rank x = s.apply (spelled m e) := by
  have h := ranked (isNaN_of_isFinite hx)
  change x.toModel.unpack.isFinite = true at hx
  generalize hu : x.toModel.unpack = u at h hx
  generalize hr : rank x = r at h
  cases h with
  | infinity s => cases hx
  | zero s => exact .inl ⟨s, rfl⟩
  | finite s hm h he => exact .inr ⟨s, _, _, hm, rfl, h, he, rfl⟩

/-- A magnitude of two or more. -/
def AtLeastTwo : UnpackedFloat → Bool
  | .finite _ m e _ => decide (1 ≤ m.log2 + e)
  | _ => false

theorem div_inRange {s₁ s₂ : Sign} {m₁ m₂ : Nat} {e₁ e₂ : Int} (h₁ : 0 < m₁) (h₂ : 0 < m₂)
    (hm : m₁ < 2 ^ 53) (he : e₁ ≤ 971) (htwo : 1 ≤ m₂.log2 + e₂) :
    InRange (UnpackedFloat.div .binary64 (.finite s₁ m₁ e₁ h₁) (.finite s₂ m₂ e₂ h₂)) := by
  have hlog₁ : m₁.log2 < 53 := (Nat.log2_lt (Nat.pos_iff_ne_zero.mp h₁)).mpr hm
  have htarget : Float.Model.Format.binary64.targetExponent
      (totalExponent m₁ e₁ - totalExponent m₂ e₂) ≤ 971 := by
    change max (((m₁.log2 : Int) + 1 + e₁ - (m₂.log2 + 1 + e₂)) - 53) (-1074) ≤ 971
    omega
  unfold UnpackedFloat.div divCore
  dsimp only
  generalize Float.Model.Format.targetExponent _ _ = t at htarget
  generalize hn : (e₁ - e₂ - min (e₁ - e₂) t).toNat = n
  refine roundWithAccuracy_inRange ?_ (by omega) _ _
  rcases Nat.eq_zero_or_pos (m₁ <<< n / m₂) with hq | hq
  · rw [hq]
    simp only [Nat.log2_zero]
    omega
  · have hbits : (m₁ <<< n / m₂).log2 + m₂.log2 < 53 + n := by
      rw [← Nat.pow_lt_pow_iff_right (a := 2) (by decide), Nat.pow_add, Nat.pow_add]
      calc 2 ^ (m₁ <<< n / m₂).log2 * 2 ^ m₂.log2
          ≤ m₁ <<< n / m₂ * m₂ :=
            Nat.mul_le_mul (Nat.log2_self_le (Nat.pos_iff_ne_zero.mp hq))
              (Nat.log2_self_le (Nat.pos_iff_ne_zero.mp h₂))
        _ ≤ m₁ <<< n := Nat.div_mul_le_self _ _
        _ = m₁ * 2 ^ n := Nat.shiftLeft_eq _ _
        _ < 2 ^ 53 * 2 ^ n := Nat.mul_lt_mul_of_pos_right hm (Nat.two_pow_pos n)
    omega

/-- A quotient by two or more is finite. -/
theorem div_isFinite {x y : Float} (hx : x.isFinite = true)
    (hy : AtLeastTwo y.toModel.unpack = true) : (x / y).isFinite = true := by
  refine InRange.isFinite (u := UnpackedFloat.div .binary64 x.toModel.unpack y.toModel.unpack) ?_
  cases hv : y.toModel.unpack with
  | finite s₂ m₂ e₂ h₂ =>
    rw [hv] at hy
    rcases unpack_of_isFinite hx with ⟨s₁, hu⟩ | ⟨s₁, m₁, e₁, h₁, hu, hc, he, _⟩
    · rw [hu]
      exact .zero _
    · rw [hu]
      exact div_inRange h₁ h₂ hc.mantissa_lt he (of_decide_eq_true hy)
  | _ => simp [hv, AtLeastTwo] at hy

theorem mul_inRange {s₁ s₂ : Sign} {m₁ m₂ : Nat} {e₁ e₂ : Int} (h₁ : 0 < m₁) (h₂ : 0 < m₂)
    (hm₁ : m₁ < 2 ^ 53) (hm₂ : m₂ < 2 ^ 53) (he : e₁ + e₂ ≤ 900) :
    InRange (UnpackedFloat.mul .binary64 (.finite s₁ m₁ e₁ h₁) (.finite s₂ m₂ e₂ h₂)) := by
  have hlog : (m₁ * m₂).log2 < 106 :=
    (Nat.log2_lt (Nat.pos_iff_ne_zero.mp (Nat.mul_pos h₁ h₂))).mpr
      (calc m₁ * m₂ < 2 ^ 53 * 2 ^ 53 := Nat.mul_lt_mul'' hm₁ hm₂
        _ = 2 ^ 106 := by decide)
  exact roundWithAccuracy_inRange (by omega) (by omega) _ _

/-- What lies within half a turn has an exponent far from the last one. -/
theorem unpack_of_halfTurn {x : Float} (h : -180 ≤ x ∧ x ≤ 180) :
    (∃ s, x.toModel.unpack = .zero s) ∨
      ∃ s m e hm, x.toModel.unpack = .finite s m e hm ∧ m < 2 ^ 53 ∧ e ≤ 0 := by
  have hx := (isNaN_of_le h.2).1
  have hlow := (le_iff_rank (isNaN_of_le h.1).1 hx).mp h.1
  have hhigh := (le_iff_rank hx (isNaN_of_le h.2).2).mp h.2
  have hleast : rank (-180) = -4640537203540230144 := by decide +kernel
  have hgreatest : rank 180 = 4640537203540230144 := by decide +kernel
  rw [hleast] at hlow
  rw [hgreatest] at hhigh
  have hranked := ranked hx
  generalize x.toModel.unpack = u at hranked
  generalize rank x = r at hranked hlow hhigh
  cases hranked with
  | infinity s => cases s <;> simp only [Sign.apply] at hlow hhigh <;> omega
  | zero s => exact .inl ⟨s, rfl⟩
  | finite s hm hc _ =>
    refine .inr ⟨s, _, _, hm, rfl, hc.mantissa_lt, ?_⟩
    unfold spelled at hlow hhigh
    cases s <;> simp only [Sign.apply] at hlow hhigh <;> omega

theorem mul_isFinite {x y : Float} (hx : -180 ≤ x ∧ x ≤ 180) (hy : -180 ≤ y ∧ y ≤ 180) :
    (x * y).isFinite = true := by
  refine InRange.isFinite (u := UnpackedFloat.mul .binary64 x.toModel.unpack y.toModel.unpack) ?_
  rcases unpack_of_halfTurn hx with ⟨s₁, hu⟩ | ⟨s₁, m₁, e₁, h₁, hu, hm₁, he₁⟩
  · rcases unpack_of_halfTurn hy with ⟨s₂, hv⟩ | ⟨s₂, m₂, e₂, h₂, hv, hm₂, he₂⟩
    · rw [hu, hv]
      exact .zero _
    · rw [hu, hv]
      exact .zero _
  · rcases unpack_of_halfTurn hy with ⟨s₂, hv⟩ | ⟨s₂, m₂, e₂, h₂, hv, hm₂, he₂⟩
    · rw [hu, hv]
      exact .zero _
    · rw [hu, hv]
      exact mul_inRange h₁ h₂ hm₁ hm₂ (by omega)

end GameRoster.Numeric

/-- An angle of at most half a turn is finite in radians. -/
theorem GameRoster.Plane.toRadians_isFinite {x : Float} (h : -180 ≤ x ∧ x ≤ 180) :
    (toRadians x).isFinite = true := by
  have hpi : -180 ≤ pi ∧ pi ≤ 180 := by decide +kernel
  exact Numeric.div_isFinite (Numeric.mul_isFinite h hpi) (by decide +kernel)
