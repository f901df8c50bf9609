import GameRoster.Numeric.Literal
import GameRoster.Proofs.Doubles

namespace GameRoster.Numeric
open Float.Model Float.Model.UnpackedFloat

/-- What the bits of a mantissa and an exponent spell behind the sign. -/
def spelled (m : Nat) (e : Int) : Int := (e + 1074) * 2 ^ 52 + m

namespace Canonical

variable {m m' : Nat} {e e' : Int} (h : Canonical m e) (h' : Canonical m' e')

include h

theorem spelled_pos (hm : 0 < m) : 0 < spelled m e := by
  have he := h.le_exponent
  unfold spelled
  omega

/-- An infinity is spelled by the exponent beyond the last one. -/
theorem spelled_lt (he : e ≤ 971) : spelled m e < 2047 * 2 ^ 52 := by
  have hm := h.mantissa_lt
  unfold spelled
  omega

include h'

theorem spelled_lt_spelled (he : e < e') : spelled m e < spelled m' e' := by
  have hm := h.mantissa_lt
  have hlow := h.le_exponent
  have hfull : 2 ^ 52 ≤ m' := h'.full.resolve_right (by omega)
  unfold spelled
  omega

/-- Spellings are ordered by exponent first. -/
theorem compare_spelled :
    (compare e e').then (compare m m') = compare (spelled m e) (spelled m' e') := by
  rcases Int.lt_trichotomy e e' with hlt | rfl | hgt
  · rw [compare_lt_iff_lt.mpr hlt, compare_lt_iff_lt.mpr (h.spelled_lt_spelled h' hlt)]
    rfl
  · have hadd : ∀ k : Int, compare (k + m) (k + m') = compare m m' := by
      intro k
      rcases Nat.lt_trichotomy m m' with hlt | rfl | hgt
      · rw [compare_lt_iff_lt.mpr hlt, compare_lt_iff_lt.mpr (by omega)]
      · rw [compare_eq_iff_eq.mpr rfl, compare_eq_iff_eq.mpr rfl]
      · rw [compare_gt_iff_gt.mpr hgt, compare_gt_iff_gt.mpr (by omega)]
    rw [compare_eq_iff_eq.mpr rfl, spelled, spelled, hadd]
    rfl
  · rw [compare_gt_iff_gt.mpr hgt, compare_gt_iff_gt.mpr (h'.spelled_lt_spelled h hgt)]
    rfl

end Canonical

/-- The rank of an unpacked double: its spelling under its sign. The two zeros rank the same, and
NaN has no rank. -/
inductive Ranked : UnpackedFloat → Int → Prop
  | infinity (s : Sign) : Ranked (.infinity s) (s.apply (2047 * 2 ^ 52))
  | zero (s : Sign) : Ranked (.zero s) 0
  | finite (s : Sign) {m : Nat} {e : Int} (hm : 0 < m) (h : Canonical m e) (he : e ≤ 971) :
      Ranked (.finite s m e hm) (s.apply (spelled m e))

/-- Signs keep a spelling between those of the infinities. -/
theorem Canonical.apply_bounds {m : Nat} {e : Int} (h : Canonical m e) (hm : 0 < m) (he : e ≤ 971)
    (s : Sign) :
    -(2047 * 2 ^ 52) < s.apply (spelled m e) ∧ s.apply (spelled m e) < 2047 * 2 ^ 52 := by
  have hpos := h.spelled_pos hm
  have hlt := h.spelled_lt he
  cases s with
  | negative => exact ⟨Int.neg_lt_neg hlt, by simp only [Sign.apply]; omega⟩
  | positive => exact ⟨by simp only [Sign.apply]; omega, hlt⟩

/-- No rank is beyond those of the infinities. -/
theorem Ranked.bounds {u : UnpackedFloat} {a : Int} (h : Ranked u a) :
    -(2047 * 2 ^ 52) ≤ a ∧ a ≤ 2047 * 2 ^ 52 := by
  cases h with
  | infinity s => cases s <;> simp [Sign.apply]
  | zero s => simp
  | finite s hm h he =>
    obtain ⟨hlow, hhigh⟩ := h.apply_bounds hm he s
    exact ⟨hlow.le, hhigh.le⟩

section Compare

variable {a b : Int}

theorem some_lt (h : a < b) : some .lt = some (compare a b) := by
  rw [compare_lt_iff_lt.mpr h]

theorem some_gt (h : b < a) : some .gt = some (compare a b) := by
  rw [compare_gt_iff_gt.mpr h]

theorem compare_neg : compare (-a) (-b) = (compare a b).swap := by
  rcases Int.lt_trichotomy a b with hlt | rfl | hgt
  · rw [compare_lt_iff_lt.mpr hlt, compare_gt_iff_gt.mpr (Int.neg_lt_neg hlt)]
    rfl
  · rw [compare_eq_iff_eq.mpr rfl, compare_eq_iff_eq.mpr rfl]
    rfl
  · rw [compare_gt_iff_gt.mpr hgt, compare_lt_iff_lt.mpr (Int.neg_lt_neg hgt)]
    rfl

end Compare

/-- Doubles compare as their ranks do. -/
theorem Ranked.compare {u v : UnpackedFloat} {a b : Int} (hu : Ranked u a) (hv : Ranked v b) :
    u.compare v = some (compare a b) := by
  cases hu with
  | infinity s =>
    cases hv with
    | infinity t => cases s <;> cases t <;> rfl
    | zero t => cases s <;> rfl
    | finite t hm h he =>
      obtain ⟨hlow, hhigh⟩ := h.apply_bounds hm he t
      cases s with
      | negative => exact some_lt hlow
      | positive => exact some_gt hhigh
  | zero s =>
    cases hv with
    | infinity t => cases t <;> rfl
    | zero t => rfl
    | finite t hm h he =>
      have hpos := h.spelled_pos hm
      cases t with
      | negative => exact some_gt (Int.neg_neg_of_pos hpos)
      | positive => exact some_lt hpos
  | finite s hm h he =>
    have hpos := h.spelled_pos hm
    cases hv with
    | infinity t =>
      obtain ⟨hlow, hhigh⟩ := h.apply_bounds hm he s
      cases t with
      | negative => cases s <;> exact some_gt hlow
      | positive => cases s <;> exact some_lt hhigh
    | zero t =>
      cases s with
      | negative => exact some_lt (Int.neg_neg_of_pos hpos)
      | positive => exact some_gt hpos
    | finite t hm' h' he' =>
      have hpos' := h'.spelled_pos hm'
      cases s with
      | negative =>
        cases t with
        | negative =>
          simp only [UnpackedFloat.compare, Sign.apply, compare_neg, h.compare_spelled h']
        | positive => exact some_lt ((Int.neg_neg_of_pos hpos).trans hpos')
      | positive =>
        cases t with
        | negative => exact some_gt ((Int.neg_neg_of_pos hpos').trans hpos)
        | positive => simp only [UnpackedFloat.compare, Sign.apply, h.compare_spelled h']

/-- Doubles in their order as integers. Unlike in the total order, the two zeros are one. -/
def rank (x : Float) : Int := if orderKey x < 0 then orderKey x + 1 else orderKey x

/-- The rank of a double, by the fields of its bits. -/
theorem rank_eq (x : Float) : rank x =
    (if Binary.isNegative x then Sign.negative else .positive).apply
      (Binary.exponentField x * 2 ^ 52 + Binary.fractionField x) := by
  have hb : x.toBits.toNat < 2 ^ 64 := x.toBits.toNat_lt
  unfold rank orderKey wordMax Binary.isNegative Binary.exponentField Binary.fractionField
  simp only [Nat.pow_eq, decide_eq_true_eq]
  by_cases hlow : x.toBits.toNat < 2 ^ 63
  · simp only [hlow, Nat.not_le.mpr hlow, if_true, if_false, Sign.apply]
    omega
  · simp only [hlow, Nat.not_lt.mp hlow, if_true, if_false, Sign.apply]
    omega

/-- Every double but NaN has a rank. -/
theorem ranked {x : Float} (hx : x.isNaN = false) : Ranked x.toModel.unpack (rank x) := by
  have hf : Binary.fractionField x < 2 ^ 52 := Nat.mod_lt _ (by decide)
  have he : Binary.exponentField x < 2 ^ 11 := Nat.mod_lt _ (by decide)
  have hn := isNaN_eq_false.mp hx
  rw [rank_eq]
  rw [unpack_eq] at hn ⊢
  generalize (if Binary.isNegative x then Sign.negative else .positive) = s at hn ⊢
  dsimp only at hn ⊢
  split
  · rename_i hall
    rw [if_pos hall] at hn
    split
    · rename_i hzero
      rw [hall, hzero]
      exact .infinity s
    · rename_i hfrac
      exact absurd (if_neg hfrac) hn
  · rename_i hnot
    split
    · rename_i hsub
      split
      · rename_i hzero
        rw [hsub, hzero]
        cases s <;> exact .zero _
      · have hs : (Binary.exponentField x * 2 ^ 52 + Binary.fractionField x : Int) =
            spelled (Binary.fractionField x) (-1074) := by
          unfold spelled
          omega
        rw [hs]
        exact .finite s _ ⟨by omega, by omega, .inr rfl⟩ (by omega)
    · have hs : (Binary.exponentField x * 2 ^ 52 + Binary.fractionField x : Int) =
          spelled (2 ^ 52 + Binary.fractionField x) (Binary.exponentField x - 1075) := by
        unfold spelled
        omega
      rw [hs]
      exact .finite s _ ⟨by omega, by omega, .inl (by omega)⟩ (by omega)

theorem le_iff_compare {x y : Float} :
    x ≤ y ↔ ∃ o, x.toModel.unpack.compare y.toModel.unpack = some o ∧ o.isLE := by
  change decide _ = true ↔ _
  rw [decide_eq_true_iff]
  change UnpackedFloat.le _ _ = true ↔ _
  unfold UnpackedFloat.le
  simp [Option.any_eq_true]

section Comparisons

variable {x y : Float}

theorem lt_iff_rank (hx : x.isNaN = false) (hy : y.isNaN = false) : x < y ↔ rank x < rank y := by
  rw [lt_iff_compare, (ranked hx).compare (ranked hy), Option.some.injEq, compare_lt_iff_lt]

theorem le_iff_rank (hx : x.isNaN = false) (hy : y.isNaN = false) : x ≤ y ↔ rank x ≤ rank y := by
  rw [le_iff_compare, (ranked hx).compare (ranked hy), ← Int.isLE_compare]
  simp

theorem not_lt_iff_le (hx : x.isNaN = false) (hy : y.isNaN = false) : ¬ x < y ↔ y ≤ x := by
  rw [lt_iff_rank hx hy, le_iff_rank hy hx, Int.not_lt]

theorem le_infinity (hx : x.isNaN = false) : x ≤ Numeric.infinity := by
  have hrank : rank Numeric.infinity = 2047 * 2 ^ 52 := by decide +kernel
  rw [le_iff_rank hx rfl, hrank]
  exact (ranked hx).bounds.2

theorem neg_infinity_le (hx : x.isNaN = false) : -Numeric.infinity ≤ x := by
  have hrank : rank (-Numeric.infinity) = -(2047 * 2 ^ 52) := by decide +kernel
  rw [le_iff_rank rfl hx, hrank]
  exact (ranked hx).bounds.1

/-- A number that stands before another in the total order is not above it. -/
theorem le_of_orderKey (hx : x.isNaN = false) (hy : y.isNaN = false)
    (h : orderKey x ≤ orderKey y) : x ≤ y := by
  rw [le_iff_rank hx hy]
  unfold rank
  split <;> split <;> omega

end Comparisons

theorem le_of_lt {x y : Float} (h : x < y) : x ≤ y :=
  le_iff_compare.mpr ⟨.lt, lt_iff_compare.mp h, rfl⟩

/-- NaN is below nothing and above nothing. -/
theorem isNaN_of_le {x y : Float} (h : x ≤ y) : x.isNaN = false ∧ y.isNaN = false := by
  obtain ⟨o, ho, _⟩ := le_iff_compare.mp h
  rw [isNaN_eq_false, isNaN_eq_false]
  constructor
  · intro hx
    rw [hx] at ho
    cases ho
  · intro hy
    rw [hy] at ho
    cases hx : x.toModel.unpack <;> rw [hx] at ho <;> cases ho

theorem le_trans {x y z : Float} (hxy : x ≤ y) (hyz : y ≤ z) : x ≤ z := by
  obtain ⟨hx, hy⟩ := isNaN_of_le hxy
  have hz := (isNaN_of_le hyz).2
  rw [le_iff_rank hx hy] at hxy
  rw [le_iff_rank hy hz] at hyz
  rw [le_iff_rank hx hz]
  exact Int.le_trans hxy hyz

theorem lt_of_lt_of_le {x y z : Float} (hxy : x < y) (hyz : y ≤ z) : x < z := by
  obtain ⟨hx, hy⟩ := isNaN_of_le (le_of_lt hxy)
  have hz := (isNaN_of_le hyz).2
  rw [lt_iff_rank hx hy] at hxy
  rw [le_iff_rank hy hz] at hyz
  rw [lt_iff_rank hx hz]
  exact Int.lt_of_lt_of_le hxy hyz

theorem lt_of_le_of_lt {x y z : Float} (hxy : x ≤ y) (hyz : y < z) : x < z := by
  obtain ⟨hx, hy⟩ := isNaN_of_le hxy
  have hz := (isNaN_of_le (le_of_lt hyz)).2
  rw [le_iff_rank hx hy] at hxy
  rw [lt_iff_rank hy hz] at hyz
  rw [lt_iff_rank hx hz]
  exact Int.lt_of_le_of_lt hxy hyz

end GameRoster.Numeric
