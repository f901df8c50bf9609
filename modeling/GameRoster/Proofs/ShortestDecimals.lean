import GameRoster.Numeric.Shortest
import GameRoster.Proofs.IntFields

namespace GameRoster.Numeric

/-- What a decimal says exactly. -/
def Decimal.value (d : Decimal) : ℚ := d.digits * 10 ^ d.exponent

theorem Decimal.value_nonneg (d : Decimal) : 0 ≤ d.value := by
  unfold value
  positivity

/-- A value that no double is nearer to than this one. -/
def ReadsAs (v : ℚ) (x : Float) : Prop :=
  ∃ u, value? x = some u ∧ ∀ y w, value? y = some w → |v - u| ≤ |v - w|

theorem zpow_split {a : ℚ} (ha : a ≠ 0) (e : ℤ) : a ^ e * a ^ (-e).toNat = a ^ e.toNat := by
  rw [← zpow_natCast, ← zpow_natCast, ← zpow_add₀ ha]
  congr 1
  omega

namespace Reach

/-- A decimal in reach lies between the ends. -/
theorem contains_bounds {r : Reach} {d : Decimal} (hunit : 0 < r.unit) (h : r.contains d = true) :
    (r.low : ℚ) / r.unit ≤ d.value ∧ d.value ≤ (r.high : ℚ) / r.unit := by
  have hpos : (0 : ℚ) < r.unit := Nat.cast_pos.mpr hunit
  have hpow : (0 : ℚ) < 10 ^ (-d.exponent).toNat := by positivity
  have hdecimal : ((d.digits * Nat.pow 10 d.exponent.toNat * r.unit : ℕ) : ℚ) =
      d.value * r.unit * 10 ^ (-d.exponent).toNat := by
    unfold Decimal.value
    push_cast [Nat.pow_eq]
    rw [← zpow_split (by norm_num) d.exponent]
    ring
  have hend : ∀ n : ℕ, ((n * Nat.pow 10 (-d.exponent).toNat : ℕ) : ℚ) =
      n * 10 ^ (-d.exponent).toNat := by
    intro n
    push_cast [Nat.pow_eq]
    rfl
  have hbetween : r.low * Nat.pow 10 (-d.exponent).toNat ≤
        d.digits * Nat.pow 10 d.exponent.toNat * r.unit ∧
      d.digits * Nat.pow 10 d.exponent.toNat * r.unit ≤
        r.high * Nat.pow 10 (-d.exponent).toNat := by
    unfold contains compareWith at h
    simp only [Bool.and_eq_true, Bool.or_eq_true, beq_iff_eq, Nat.compare_eq_gt,
      Nat.compare_eq_lt, Nat.compare_eq_eq] at h
    omega
  obtain ⟨hlow, hhigh⟩ := hbetween
  rw [← Nat.cast_le (α := ℚ), hdecimal, hend] at hlow hhigh
  rw [div_le_iff₀ hpos, le_div_iff₀ hpos]
  exact ⟨le_of_mul_le_mul_right hlow hpow, le_of_mul_le_mul_right hhigh hpow⟩

/-- The part of a step by which a lesser neighbour's half is away. -/
def shareBelow (b : Binary) : ℚ := if narrowBelow b then 1 / 4 else 1 / 2

theorem ofBinary_unit (b : Binary) : 0 < (ofBinary b).unit := Nat.two_pow_pos _

theorem scale_div_unit (e : ℤ) :
    ((Nat.pow 2 (e - 2).toNat : ℕ) : ℚ) / (Nat.pow 2 (2 - e).toNat : ℕ) = 2 ^ e / 4 := by
  have hsplit := zpow_split (a := 2) (by norm_num) (e - 2)
  have hpos : (0 : ℚ) < 2 ^ (2 - e).toNat := by positivity
  have hneg : (-(e - 2)).toNat = (2 - e).toNat := by omega
  rw [hneg] at hsplit
  push_cast [Nat.pow_eq]
  rw [← hsplit, mul_div_cancel_right₀ _ hpos.ne', zpow_sub₀ (by norm_num)]
  norm_num

theorem ofBinary_low (b : Binary) (hm : b.mantissa ≠ 0) :
    ((ofBinary b).low : ℚ) / (ofBinary b).unit =
      (b.mantissa - shareBelow b) * 2 ^ b.exponent := by
  have hstep : ((4 * b.mantissa - if narrowBelow b then 1 else 2 : ℕ) : ℚ) =
      4 * (b.mantissa - shareBelow b) := by
    unfold shareBelow
    split
    · rw [Nat.cast_sub (by omega)]
      push_cast
      ring
    · rw [Nat.cast_sub (by omega)]
      push_cast
      ring
  unfold ofBinary
  dsimp only
  rw [Nat.cast_mul, mul_div_assoc, scale_div_unit, hstep]
  ring

theorem ofBinary_high (b : Binary) :
    ((ofBinary b).high : ℚ) / (ofBinary b).unit = (b.mantissa + 1 / 2) * 2 ^ b.exponent := by
  unfold ofBinary
  dsimp only
  rw [Nat.cast_mul, mul_div_assoc, scale_div_unit]
  push_cast
  ring

end Reach

namespace Decimal

/-- Between the halves of the steps to its neighbours a value reads as a double. -/
structure Within (v : ℚ) (b : Binary) : Prop where
  low : (b.mantissa - Reach.shareBelow b) * 2 ^ b.exponent ≤ v
  high : v ≤ (b.mantissa + 1 / 2) * 2 ^ b.exponent

theorem within_self (b : Binary) : Within (b.mantissa * 2 ^ b.exponent) b := by
  have hpos : (0 : ℚ) < 2 ^ b.exponent := by positivity
  have hshare : 0 ≤ Reach.shareBelow b := by
    unfold Reach.shareBelow
    split <;> norm_num
  constructor
  · exact mul_le_mul_of_nonneg_right (by linarith) hpos.le
  · exact mul_le_mul_of_nonneg_right (by linarith) hpos.le

theorem strip_value (fuel : ℕ) (d : Decimal) : (strip fuel d).value = d.value := by
  induction fuel generalizing d with
  | zero => rfl
  | succ fuel ih =>
    unfold strip
    split
    · rename_i h
      rw [ih]
      obtain ⟨k, hk⟩ := Nat.dvd_of_mod_eq_zero h.2
      have hdiv : d.digits / 10 = k := by omega
      unfold value
      rw [hdiv, hk, zpow_add_one₀ (by norm_num)]
      push_cast
      ring
    · rfl

theorem exact_value (b : Binary) : (exact b).value = b.mantissa * 2 ^ b.exponent := by
  unfold exact value
  split
  · rename_i he
    have hexp := zpow_split (a := 2) (by norm_num) b.exponent
    have hnone : (-b.exponent).toNat = 0 := by omega
    rw [hnone, pow_zero, mul_one] at hexp
    push_cast [Nat.pow_eq]
    rw [hexp, mul_one]
  · rename_i he
    obtain ⟨k, hk⟩ : ∃ k : ℕ, b.exponent = -(k : ℤ) := ⟨(-b.exponent).toNat, by omega⟩
    have hnat : (-b.exponent).toNat = k := by omega
    push_cast [Nat.pow_eq]
    rw [hnat, hk, zpow_neg, zpow_neg, zpow_natCast, zpow_natCast]
    have hten : (10 : ℚ) ^ k = 2 ^ k * 5 ^ k := by rw [← mul_pow]; norm_num
    rw [hten]
    field_simp

theorem withDigits_contains {r : Reach} {tie : Tie} {count : ℕ} {d : Decimal}
    (h : withDigits r tie count = some d) : r.contains d = true := by
  unfold withDigits at h
  dsimp only at h
  split at h
  · rename_i hbelow habove
    obtain rfl := Option.some.inj h
    unfold nearer
    split
    · exact hbelow
    · exact habove
    · split
      · exact habove
      · split
        · exact hbelow
        · exact habove
  · rename_i hbelow _
    obtain rfl := Option.some.inj h
    exact hbelow
  · rename_i _ habove
    obtain rfl := Option.some.inj h
    exact habove
  · cases h

/-- The shortest decimal is as near to the double as it has to be. -/
theorem shortest_within (tie : Tie) (b : Binary) : Within (shortest tie b).value b := by
  unfold shortest
  split
  · rename_i hzero
    have hself := within_self b
    rw [hzero] at hself
    simpa [value] using hself
  · rename_i hm
    dsimp only
    rw [strip_value]
    cases hfound : (List.range 17).findSome? fun n =>
        withDigits (Reach.ofBinary b) tie (n + 1) with
    | none =>
      rw [Option.getD_none, exact_value]
      exact within_self b
    | some d =>
      obtain ⟨n, -, hd⟩ := List.exists_of_findSome?_eq_some hfound
      obtain ⟨hlow, hhigh⟩ :=
        Reach.contains_bounds (Reach.ofBinary_unit b) (withDigits_contains hd)
      rw [Reach.ofBinary_low b hm] at hlow
      rw [Reach.ofBinary_high b] at hhigh
      exact ⟨hlow, hhigh⟩

end Decimal

theorem Binary.canonical {x : Float} {b : Binary} (h : Binary.ofFloat? x = some b) :
    Canonical b.mantissa b.exponent := by
  refine ⟨mantissa_lt h, le_exponent h, ?_⟩
  unfold ofFloat? at h
  split at h
  · cases h
  · obtain rfl := Option.some.inj h
    exact .inr rfl
  · obtain rfl := Option.some.inj h
    exact .inl (Nat.le_add_right _ _)

section Neighbours

variable {b c : Binary} (hb : Canonical b.mantissa b.exponent)
  (hc : Canonical c.mantissa c.exponent)

include hb hc

/-- A magnitude of a lesser exponent stays below the least full mantissa by half a step. -/
theorem lesser_exponent (he : c.exponent < b.exponent) : 2 ^ 52 ≤ b.mantissa ∧
    (c.mantissa * 2 ^ c.exponent : ℚ) ≤ (2 ^ 52 - 1 / 2) * 2 ^ b.exponent := by
  have hlow := hc.le_exponent
  refine ⟨hb.full.resolve_right (by omega), ?_⟩
  have hmantissa : (c.mantissa : ℚ) ≤ 2 ^ 53 - 1 := by
    have hlt := hc.mantissa_lt
    have hle : c.mantissa + 1 ≤ 2 ^ 53 := hlt
    have hcast : ((c.mantissa + 1 : ℕ) : ℚ) ≤ 2 ^ 53 := by exact_mod_cast hle
    push_cast at hcast
    linarith
  have hpow : (2 : ℚ) ^ c.exponent ≤ 2 ^ (b.exponent - 1) :=
    zpow_le_zpow_right₀ (by norm_num) (by omega)
  calc (c.mantissa * 2 ^ c.exponent : ℚ)
      ≤ (2 ^ 53 - 1) * 2 ^ (b.exponent - 1) :=
        mul_le_mul hmantissa hpow (by positivity) (by norm_num)
    _ = (2 ^ 52 - 1 / 2) * 2 ^ b.exponent := by
        rw [zpow_sub_one₀ (by norm_num)]
        ring

omit hb hc in
/-- A magnitude of no lesser exponent is a whole number of steps. -/
theorem whole_steps (he : b.exponent ≤ c.exponent) :
    ∃ n : ℕ, (c.mantissa * 2 ^ c.exponent : ℚ) = n * 2 ^ b.exponent := by
  obtain ⟨k, hk⟩ := Int.le.dest he
  refine ⟨c.mantissa * 2 ^ k, ?_⟩
  rw [← hk, zpow_add₀ (by norm_num), zpow_natCast]
  push_cast
  ring

/-- A magnitude above another is a whole step above it. -/
theorem step_above (h : (b.mantissa * 2 ^ b.exponent : ℚ) < c.mantissa * 2 ^ c.exponent) :
    ((b.mantissa + 1) * 2 ^ b.exponent : ℚ) ≤ c.mantissa * 2 ^ c.exponent := by
  have hpos : (0 : ℚ) < 2 ^ b.exponent := by positivity
  rcases lt_or_ge c.exponent b.exponent with he | he
  · obtain ⟨hfull, hle⟩ := lesser_exponent hb hc he
    have hfull : (2 ^ 52 : ℚ) ≤ b.mantissa := by exact_mod_cast hfull
    have hstep := mul_le_mul_of_nonneg_right hfull hpos.le
    linarith
  · obtain ⟨n, hn⟩ := whole_steps he
    rw [hn] at h ⊢
    have hlt : b.mantissa + 1 ≤ n := by exact_mod_cast lt_of_mul_lt_mul_right h hpos.le
    exact mul_le_mul_of_nonneg_right (by exact_mod_cast hlt) hpos.le

theorem step_below (h : (c.mantissa * 2 ^ c.exponent : ℚ) < b.mantissa * 2 ^ b.exponent) :
    (c.mantissa * 2 ^ c.exponent : ℚ) ≤
      (b.mantissa - 2 * Reach.shareBelow b) * 2 ^ b.exponent := by
  have hpos : (0 : ℚ) < 2 ^ b.exponent := by positivity
  rcases lt_or_ge c.exponent b.exponent with he | he
  · obtain ⟨hfull, hle⟩ := lesser_exponent hb hc he
    refine hle.trans (mul_le_mul_of_nonneg_right ?_ hpos.le)
    unfold Reach.shareBelow
    split
    · have hfull : (2 ^ 52 : ℚ) ≤ b.mantissa := by exact_mod_cast hfull
      linarith
    · rename_i hwide
      have hlow := hc.le_exponent
      have hne : b.mantissa ≠ 2 ^ 52 := by
        intro heq
        exact hwide (by simp [Reach.narrowBelow, heq]; omega)
      have hmore : 2 ^ 52 + 1 ≤ b.mantissa := by omega
      have hmore : (2 ^ 52 + 1 : ℚ) ≤ b.mantissa := by exact_mod_cast hmore
      linarith
  · obtain ⟨n, hn⟩ := whole_steps he
    rw [hn] at h ⊢
    have hlt : n + 1 ≤ b.mantissa := by exact_mod_cast lt_of_mul_lt_mul_right h hpos.le
    have hlt : (n + 1 : ℚ) ≤ b.mantissa := by exact_mod_cast hlt
    refine mul_le_mul_of_nonneg_right ?_ hpos.le
    unfold Reach.shareBelow
    split <;> linarith

/-- Within half a step no other magnitude is nearer. -/
theorem Decimal.Within.nearest {v : ℚ} (h : Within v b) :
    |v - b.mantissa * 2 ^ b.exponent| ≤ |v - c.mantissa * 2 ^ c.exponent| := by
  obtain ⟨hlow, hhigh⟩ := h
  have hpos : (0 : ℚ) < 2 ^ b.exponent := by positivity
  rcases lt_trichotomy (b.mantissa * 2 ^ b.exponent : ℚ) (c.mantissa * 2 ^ c.exponent) with
    hlt | heq | hgt
  · have hstep := step_above hb hc hlt
    rw [abs_le]
    have hle : v ≤ c.mantissa * 2 ^ c.exponent := by nlinarith
    rw [abs_of_nonpos (by linarith)]
    constructor <;> linarith
  · rw [heq]
  · have hstep := step_below hb hc hgt
    rw [abs_le]
    have hle : c.mantissa * 2 ^ c.exponent ≤ v := by nlinarith
    rw [abs_of_nonneg (by linarith)]
    constructor <;> linarith

end Neighbours

/-- The shortest decimal under the sign of a double reads as the double. Under the other sign a
magnitude is only further away. -/
theorem shortest_readsAs {x : Float} {b : Binary} (h : Binary.ofFloat? x = some b) (tie : Tie) :
    ReadsAs ((if b.negative then -1 else 1) * (Decimal.shortest tie b).value) x := by
  refine ⟨b.value, by rw [value?, h]; rfl, fun y w hy => ?_⟩
  obtain ⟨c, hc, rfl⟩ := Option.map_eq_some_iff.mp hy
  have hnearest := (Decimal.shortest_within tie b).nearest (Binary.canonical h)
    (Binary.canonical hc)
  have hnonneg := (Decimal.shortest tie b).value_nonneg
  generalize (Decimal.shortest tie b).value = v at hnearest hnonneg ⊢
  have hown : |(if b.negative then -1 else 1) * v - b.value| =
      |v - b.mantissa * 2 ^ b.exponent| := by
    unfold Binary.value
    rw [← mul_sub, abs_mul]
    split <;> simp
  have hsign : |(if b.negative then -1 else 1) * v| = v := by
    rw [abs_mul, abs_of_nonneg hnonneg]
    split <;> simp
  calc |(if b.negative then -1 else 1) * v - b.value|
      = |v - b.mantissa * 2 ^ b.exponent| := hown
    _ ≤ |v - c.mantissa * 2 ^ c.exponent| := hnearest
    _ = |(|(if b.negative then -1 else 1) * v| - |c.value|)| := by rw [hsign, Binary.abs_value]
    _ ≤ |(if b.negative then -1 else 1) * v - c.value| := abs_abs_sub_abs_le_abs_sub _ _

end GameRoster.Numeric
