import GameRoster.Proofs.NumberFields
import GameRoster.Proofs.WholeDoubles

namespace GameRoster

namespace Numeric

/-- The exact value of the parts of a double. -/
def Binary.value (b : Binary) : ℚ :=
  (if b.negative then -1 else 1) * (b.mantissa * 2 ^ b.exponent)

/-- The exact value of a double. NaN and the infinities have none. -/
def value? (x : Float) : Option ℚ := (Binary.ofFloat? x).map Binary.value

/-- The integer nearest to a value; of two equally near ones it is that further from zero. -/
structure Nearest (v : ℚ) (n : ℤ) : Prop where
  near : |v - n| ≤ 1 / 2
  away : |v - n| = 1 / 2 → |v| < |(n : ℚ)|

namespace Nearest

/-- An integer is nearest to itself only. -/
theorem eq_of_int {m n : ℤ} (h : Nearest m n) : n = m := by
  have hnear := h.near
  rw [← Int.cast_sub, ← Int.cast_abs] at hnear
  have hlt : |m - n| < 1 := by
    have hq : ((|m - n| : ℤ) : ℚ) < 1 := by linarith
    exact_mod_cast hq
  have hzero := Int.abs_lt_one_iff.mp hlt
  omega

theorem neg {v : ℚ} {n : ℤ} (h : Nearest v n) : Nearest (-v) (-n) := by
  have hsub : -v - ((-n : ℤ) : ℚ) = -(v - n) := by
    push_cast
    ring
  constructor
  · rw [hsub, abs_neg]
    exact h.near
  · rw [hsub, abs_neg, abs_neg, Int.cast_neg, abs_neg]
    exact h.away

/-- Above zero a half goes up. -/
theorem of_bounds {v : ℚ} {n : ℕ} (hv : 0 ≤ v) (hlow : (n : ℚ) - 1 / 2 ≤ v)
    (hhigh : v < n + 1 / 2) : Nearest v n := by
  have hcast : ((n : ℤ) : ℚ) = n := Int.cast_natCast n
  constructor
  · rw [hcast, abs_le]
    exact ⟨by linarith, by linarith⟩
  · intro htie
    rw [hcast] at htie ⊢
    rw [abs_of_nonneg hv, abs_of_nonneg (by positivity)]
    rcases abs_choice (v - n) with h | h
    · linarith
    · linarith

end Nearest

theorem two_pow_shift {e k : ℤ} (h : 0 ≤ e + k) :
    ((2 ^ (e + k).toNat : ℕ) : ℚ) = 2 ^ e * 2 ^ k := by
  rw [Nat.cast_pow, Nat.cast_ofNat, ← zpow_natCast, Int.toNat_of_nonneg h, zpow_add₀ (by norm_num)]

theorem units_cast (m : ℕ) {e : ℤ} (h : -1074 ≤ e) :
    ((units m e : ℕ) : ℚ) = m * 2 ^ e * 2 ^ (1074 : ℤ) := by
  rw [units, Nat.cast_mul, two_pow_shift (by omega), mul_assoc]

theorem unitsPerOne_cast_pos : (0 : ℚ) < unitsPerOne := Nat.cast_pos.mpr unitsPerOne_pos

namespace Binary

variable {b : Binary}

theorem scaled_eq (hlow : -1074 ≤ b.exponent) : (b.scaled : ℚ) = b.value * unitsPerOne := by
  have hunits : ((units b.mantissa b.exponent : ℕ) : ℚ) =
      b.mantissa * 2 ^ b.exponent * unitsPerOne := by
    rw [unitsPerOne, units_cast _ hlow, units_cast _ (by decide)]
    generalize (2 : ℚ) ^ (1074 : ℤ) = unit
    simp
  unfold scaled value
  generalize unitsPerOne = unit at hunits ⊢
  cases b.negative with
  | false => simp [hunits]
  | true => simp [hunits]

/-- A magnitude without a fraction is kept. -/
theorem exact_magnitude (b : Binary) (he : 0 ≤ b.exponent) :
    (b.roundedMagnitude : ℚ) = b.mantissa * 2 ^ b.exponent := by
  have hexp := two_pow_shift (e := b.exponent) (k := 0) (by omega)
  simp only [add_zero, zpow_zero, mul_one] at hexp
  rw [roundedMagnitude, if_pos he, Nat.cast_mul, Nat.pow_eq, hexp]

/-- The magnitude is rounded with a half going up. -/
theorem roundedMagnitude_bounds (b : Binary) :
    (b.roundedMagnitude : ℚ) - 1 / 2 ≤ b.mantissa * 2 ^ b.exponent ∧
      (b.mantissa * 2 ^ b.exponent : ℚ) < b.roundedMagnitude + 1 / 2 := by
  by_cases he : 0 ≤ b.exponent
  · rw [b.exact_magnitude he]
    exact ⟨by linarith, by linarith⟩
  · rw [roundedMagnitude, if_neg he]
    obtain ⟨s, hs⟩ : ∃ s : ℕ, (-b.exponent).toNat = s + 1 := ⟨(-b.exponent).toNat - 1, by omega⟩
    have hexp : b.exponent = -((s + 1 : ℕ) : ℤ) := by omega
    have hpow : (0 : ℚ) < 2 ^ s := by positivity
    simp only [hs, Nat.add_sub_cancel, Nat.pow_eq]
    rw [hexp, zpow_neg, zpow_natCast, ← div_eq_mul_inv]
    have hsplit := Nat.div_add_mod (b.mantissa + 2 ^ s) (2 ^ (s + 1))
    have hrest := Nat.mod_lt (b.mantissa + 2 ^ s) (Nat.two_pow_pos (s + 1))
    generalize (b.mantissa + 2 ^ s) / 2 ^ (s + 1) = quotient at hsplit ⊢
    generalize (b.mantissa + 2 ^ s) % 2 ^ (s + 1) = rest at hsplit hrest
    have hsplit : (2 ^ s * 2 * quotient + rest : ℚ) = b.mantissa + 2 ^ s := by
      rw [← pow_succ]
      exact_mod_cast hsplit
    have hrest : (rest : ℚ) < 2 ^ s * 2 := by
      rw [← pow_succ]
      exact_mod_cast hrest
    have hzero : (0 : ℚ) ≤ rest := Nat.cast_nonneg rest
    rw [le_div_iff₀ (by positivity), div_lt_iff₀ (by positivity), pow_succ]
    constructor
    · linarith
    · linarith

theorem round_nearest (b : Binary) : Nearest b.value b.round := by
  obtain ⟨hlow, hhigh⟩ := b.roundedMagnitude_bounds
  have hpos : (0 : ℚ) ≤ b.mantissa * 2 ^ b.exponent := by positivity
  have hmagnitude := Nearest.of_bounds hpos hlow hhigh
  unfold value round
  cases b.negative with
  | false => simpa using hmagnitude
  | true => simpa using hmagnitude.neg

theorem abs_value (b : Binary) : |b.value| = b.mantissa * 2 ^ b.exponent := by
  have hpos : (0 : ℚ) ≤ b.mantissa * 2 ^ b.exponent := by positivity
  unfold value
  cases b.negative <;> simp

/-- A double below the end of the range of words is not rounded beyond it: where doubles are dense
enough to come near, they are far smaller. -/
theorem roundedMagnitude_lt (hm : b.mantissa < 2 ^ 53) (h : |b.value| < 2 ^ 63) :
    b.roundedMagnitude < 2 ^ 63 := by
  rw [abs_value] at h
  rcases Int.le_total 0 b.exponent with he | he
  · have hvalue := b.exact_magnitude he
    rw [← hvalue] at h
    exact_mod_cast h
  · obtain ⟨hlow, -⟩ := b.roundedMagnitude_bounds
    have hone : (2 : ℚ) ^ b.exponent ≤ 1 := zpow_le_one_of_nonpos₀ (by norm_num) he
    have hmantissa : (b.mantissa : ℚ) < 2 ^ 53 := by exact_mod_cast hm
    have hbound : (b.mantissa : ℚ) * 2 ^ b.exponent ≤ b.mantissa :=
      mul_le_of_le_one_right (Nat.cast_nonneg _) hone
    have hq : (b.roundedMagnitude : ℚ) < 2 ^ 63 := by linarith
    exact_mod_cast hq

theorem mantissa_lt {x : Float} (h : ofFloat? x = some b) : b.mantissa < 2 ^ 53 := by
  have hf : fractionField x < 2 ^ 52 := Nat.mod_lt _ (by decide)
  unfold ofFloat? at h
  split at h
  · cases h
  · obtain rfl := Option.some.inj h
    simp only
    omega
  · obtain rfl := Option.some.inj h
    simp only [Nat.pow_eq]
    omega

end Binary

section Values

variable {x : Float} {v : ℚ} (hv : value? x = some v)

include hv

theorem roundToWord_nearest (hsmall : |v| < 2 ^ 63) : Nearest v (roundToWord x) := by
  obtain ⟨b, hb, rfl⟩ := Option.map_eq_some_iff.mp hv
  have hlt := Binary.roundedMagnitude_lt (Binary.mantissa_lt hb) hsmall
  have hround : saturate b.round = b.round := by
    unfold saturate wordMin wordMax Binary.round
    rw [Nat.pow_eq]
    split <;> omega
  simp only [roundToWord, hb, hround]
  exact b.round_nearest

section Bounds

variable {n : ℤ} (hn : n.natAbs ≤ 2 ^ 53)

include hn

theorem lt_ofInt_iff : x < ofInt n ↔ v < n := by
  obtain ⟨b, hb, rfl⟩ := Option.map_eq_some_iff.mp hv
  rw [lt_iff_compare, (Binary.exact x hb).compare_eq_lt (exact_ofInt hn), ← Int.cast_lt (R := ℚ),
    Binary.scaled_eq (Binary.le_exponent hb), Int.cast_mul, Int.cast_natCast]
  exact mul_lt_mul_iff_left₀ unitsPerOne_cast_pos

theorem ofInt_lt_iff : ofInt n < x ↔ n < v := by
  obtain ⟨b, hb, rfl⟩ := Option.map_eq_some_iff.mp hv
  rw [lt_iff_compare, (exact_ofInt hn).compare_eq_lt (Binary.exact x hb), ← Int.cast_lt (R := ℚ),
    Binary.scaled_eq (Binary.le_exponent hb), Int.cast_mul, Int.cast_natCast]
  exact mul_lt_mul_iff_left₀ unitsPerOne_cast_pos

end Bounds

end Values

theorem Exact.unique {u : Float.Model.UnpackedFloat} {a b : Int} (h : Exact u a)
    (h' : Exact u b) : a = b := by
  cases h <;> cases h' <;> rfl

/-- An integer of at most fifty-three bits is the value of its double. -/
theorem value?_ofInt {n : ℤ} (hn : n.natAbs ≤ 2 ^ 53) : value? (ofInt n) = some (n : ℚ) := by
  have hexact := exact_ofInt hn
  cases hb : Binary.ofFloat? (ofInt n) with
  | none =>
    rcases unpack_of_none _ hb with hu | hu <;> rw [hu] at hexact <;> cases hexact
  | some b =>
    have hscaled := (Binary.exact _ hb).unique hexact
    have hvalue : b.value * unitsPerOne = n * unitsPerOne := by
      rw [← Binary.scaled_eq (Binary.le_exponent hb), hscaled, Int.cast_mul, Int.cast_natCast]
    rw [value?, hb, Option.map_some, mul_right_cancel₀ (ne_of_gt unitsPerOne_cast_pos) hvalue]

end Numeric

/-- What a number was written as: an integer, or the value of a double. -/
def Number.value? : Number → Option ℚ
  | .int n => some n
  | .float x _ => Numeric.value? x

namespace IntLimits

/-- Bounds of at most fifty-three bits. -/
structure Precise (limits : IntLimits) : Prop where
  least : ∀ lo ∈ limits.least, lo.natAbs ≤ 2 ^ 53
  greatest : ∀ hi ∈ limits.greatest, hi.natAbs ≤ 2 ^ 53

theorem Precise.atLeast {lo : ℤ} (hlo : lo.natAbs ≤ 2 ^ 53) : (IntLimits.atLeast lo).Precise := by
  constructor
  · rintro _ ⟨⟩
    exact hlo
  · rintro _ ⟨⟩

theorem Precise.between {lo hi : ℤ} (hlo : lo.natAbs ≤ 2 ^ 53) (hhi : hi.natAbs ≤ 2 ^ 53) :
    (IntLimits.between lo hi).Precise := by
  constructor
  · rintro _ ⟨⟩
    exact hlo
  · rintro _ ⟨⟩
    exact hhi

/-- A value between the bounds. -/
structure Contains (limits : IntLimits) (v : ℚ) : Prop where
  least : ∀ lo ∈ limits.least, (lo : ℚ) ≤ v
  greatest : ∀ hi ∈ limits.greatest, v ≤ hi

variable {limits : IntLimits}

/-- Precise bounds exclude the doubles whose values lie beyond them. -/
theorem Precise.check_ok (hl : limits.Precise) {loc : Location} {x : Float} {v : ℚ}
    (hv : Numeric.value? x = some v) :
    limits.toFloats.check loc x = .ok () ↔ limits.Contains v := by
  rw [FloatLimits.check_ok]
  simp only [toFloats, Option.mem_def, Option.map_eq_some_iff, forall_exists_index, and_imp,
    forall_apply_eq_imp_iff₂]
  constructor
  · rintro ⟨hleast, hgreatest⟩
    constructor
    · intro lo hlo
      rw [← not_lt, ← Numeric.lt_ofInt_iff hv (hl.least lo hlo)]
      exact hleast lo hlo
    · intro hi hhi
      rw [← not_lt, ← Numeric.ofInt_lt_iff hv (hl.greatest hi hhi)]
      exact hgreatest hi hhi
  · intro h
    constructor
    · intro lo hlo
      rw [Numeric.lt_ofInt_iff hv (hl.least lo hlo), not_lt]
      exact h.least lo hlo
    · intro hi hhi
      rw [Numeric.ofInt_lt_iff hv (hl.greatest hi hhi), not_lt]
      exact h.greatest hi hhi

end IntLimits

namespace Field

variable {limits : IntLimits}

theorem int_number_ok {loc : Location} {n : Number} {k : ℤ} :
    int limits loc (.number n) = .ok k ↔
      limits.toFloats.check loc n.toFloat = .ok () ∧ Numeric.roundToWord n.toFloat = k := by
  have hint : int limits loc (.number n) =
      (do limits.toFloats.check loc n.toFloat; return Numeric.roundToWord n.toFloat) := rfl
  rw [hint, Check.then_ok, Check.pure_ok]

/-- An integer between the bounds is read as it is written. -/
theorem int_written (hl : limits.Precise) {loc : Location} {n : ℤ} (hn : limits.Contains n)
    (hbits : n.natAbs ≤ 2 ^ 53) : int limits loc (.int n) = .ok n := by
  have hvalue := Numeric.value?_ofInt hbits
  have hsmall : |(n : ℚ)| < 2 ^ 63 := by
    rw [← Int.cast_abs, Int.abs_eq_natAbs]
    have hword : (n.natAbs : ℤ) < 2 ^ 63 := by omega
    exact_mod_cast hword
  refine int_number_ok.mpr ⟨(hl.check_ok hvalue).mpr hn, ?_⟩
  exact (Numeric.roundToWord_nearest hvalue hsmall).eq_of_int

/-- The bounds are checked before a double is rounded, and hold afterwards as well. -/
theorem int_contains (hl : limits.Precise) (loc : Location) (raw : Value) :
    Check.Yields (fun n : ℤ => limits.Contains (n : ℚ)) (int limits loc raw) := by
  intro n h
  constructor
  · intro lo hlo
    exact_mod_cast int_least hlo (.of_natAbs (hl.least lo hlo)) loc raw n h
  · intro hi hhi
    exact_mod_cast int_greatest hhi (.of_natAbs (hl.greatest hi hhi)) loc raw n h

/-- The double of an integer that is written in at most fifty-three bits has that value. -/
theorem value?_toFloat {n : Number} {v : ℚ} {m : ℤ} (hv : Numeric.value? n.toFloat = some v)
    (hm : n.value? = some (m : ℚ)) (hsmall : m.natAbs ≤ 2 ^ 53) : v = m := by
  cases n with
  | int k =>
    obtain rfl : k = m := by exact_mod_cast Option.some.inj hm
    exact Option.some.inj (hv.symm.trans (Numeric.value?_ofInt hsmall))
  | float x finite => exact Option.some.inj (hv.symm.trans hm)

/-- Between bounds of at most fifty-three bits an integer field accepts a number exactly if its
double lies within the bounds, and holds the nearest integer, a half going away from zero. That
integer lies within the bounds too, and is the number that was written if that is an integer of at
most fifty-three bits. The ends of a range are within the bounds and in order. -/
theorem ints_bounded (hl : limits.Precise) (loc : Location) :
    (∀ (n : Number) (v : ℚ), Numeric.value? n.toFloat = some v → |v| < 2 ^ 63 →
      ((∃ k, int limits loc (.number n) = .ok k) ↔ limits.Contains v) ∧
      ∀ k, int limits loc (.number n) = .ok k →
        Numeric.Nearest v k ∧ limits.Contains k ∧
          ∀ m : ℤ, n.value? = some (m : ℚ) → m.natAbs ≤ 2 ^ 53 → k = m) ∧
    ∀ raw a b, intRange limits loc raw = .ok (a, b) →
      limits.Contains a ∧ limits.Contains b ∧ a ≤ b := by
  constructor
  · intro n v hv hsmall
    constructor
    · have haccepts : limits.toFloats.check loc n.toFloat = .ok () ↔ limits.Contains v :=
        hl.check_ok hv
      rw [← haccepts]
      simp [int_number_ok]
    · intro k hk
      obtain ⟨-, rfl⟩ := int_number_ok.mp hk
      have hnearest := Numeric.roundToWord_nearest hv hsmall
      refine ⟨hnearest, int_contains hl loc _ _ hk, fun m hm hbits => ?_⟩
      rw [value?_toFloat hv hm hbits] at hnearest
      exact hnearest.eq_of_int
  · intro raw a b h
    obtain ⟨first, second, -, hfirst, hsecond, hle⟩ := range_ok.mp h
    exact ⟨int_contains hl _ _ a hfirst, int_contains hl _ _ b hsecond, Int.not_lt.mp hle⟩

/-- Halfway between two integers, of which one is the least that is accepted. -/
def halfway : Number := .float (-2.5) (by decide +kernel)

theorem halfway_value : Numeric.value? halfway.toFloat = some (-5 / 2) := by
  have hparts : Numeric.Binary.ofFloat? halfway.toFloat = some ⟨true, 5 * 2 ^ 50, -51⟩ := by
    decide +kernel
  rw [Numeric.value?, hparts, Option.map_some, Numeric.Binary.value]
  norm_num

theorem halfway_bounded : (IntLimits.between (-3) (2 ^ 53)).Precise ∧ |(-5 / 2 : ℚ)| < 2 ^ 63 ∧
    (∃ k, int (.between (-3) (2 ^ 53)) (.label "x") (.number halfway) = .ok k ∧
      Numeric.Nearest (-5 / 2) k ∧ (IntLimits.between (-3) (2 ^ 53)).Contains k) ∧
    ∃ a b, intRange (.between (-3) (2 ^ 53)) (.label "x")
      (.array [.number halfway, .int (2 ^ 53)]) = .ok (a, b) ∧ a ≤ b := by
  have hprecise : (IntLimits.between (-3) (2 ^ 53)).Precise :=
    .between (by decide) (by decide)
  have hsmall : |(-5 / 2 : ℚ)| < 2 ^ 63 := by norm_num
  obtain ⟨hnumbers, hranges⟩ := ints_bounded hprecise (.label "x")
  obtain ⟨-, hreads⟩ := hnumbers halfway _ halfway_value hsmall
  obtain ⟨k, hk⟩ := Check.exists_of_isOk
    (x := int (.between (-3) (2 ^ 53)) (.label "x") (.number halfway)) (by decide +kernel)
  obtain ⟨⟨a, b⟩, hrange⟩ := Check.exists_of_isOk
    (x := intRange (.between (-3) (2 ^ 53)) (.label "x")
      (.array [.number halfway, .int (2 ^ 53)])) (by decide +kernel)
  obtain ⟨hnearest, hwithin, -⟩ := hreads k hk
  obtain ⟨-, -, hle⟩ := hranges _ a b hrange
  exact ⟨hprecise, hsmall, ⟨k, hk, hnearest, hwithin⟩, a, b, hrange, hle⟩

end Field

end GameRoster
