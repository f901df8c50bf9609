import GameRoster.Action.Derive
import GameRoster.Proofs.FloatFields
import GameRoster.Proofs.Plain

namespace GameRoster

/-- The library's cosine of a finite number. -/
def Numeric.IsCosine (c : Float) : Prop := ∃ x : Float, x.isFinite = true ∧ c = x.cos

theorem Numeric.IsCosine.isFinite {c : Float} (h : IsCosine c)
    (hcos : ∀ x : Float, x.isFinite = true → x.cos.isFinite = true) : c.isFinite = true := by
  obtain ⟨x, hx, rfl⟩ := h
  exact hcos x hx

namespace Text

/-- Behind the ASCII digits, no decimal digit is left before those of Arabic. -/
theorem isDecimalDigit_bounds {c : Char} (h : isDecimalDigit c = true) :
    c.toNat ≤ 57 ∨ 1632 ≤ c.toNat := by
  have hranges : ∀ range ∈ decimalDigitRanges, range.2 ≤ 57 ∨ 1632 ≤ range.1 := by decide
  obtain ⟨range, hm, hc⟩ := List.any_eq_true.mp h
  obtain ⟨hfirst, hlast⟩ := Bool.and_eq_true_iff.mp hc
  have hfirst := of_decide_eq_true hfirst
  have hlast := of_decide_eq_true hlast
  rcases hranges range hm with hlow | hhigh
  · exact .inl (Nat.le_trans hlast hlow)
  · exact .inr (Nat.le_trans hhigh hfirst)

theorem SaysNaN.letter {text : List Char} (h : SaysNaN text) : ∃ c ∈ text, c.toLower = 'n' := by
  have hword : ∀ word : List Char, word.map Char.toLower = ['n', 'a', 'n'] →
      ∃ c ∈ word, c.toLower = 'n' := by
    intro word hw
    have hn : 'n' ∈ word.map Char.toLower := by
      rw [hw]
      exact List.mem_cons_self
    exact List.mem_map.mp hn
  cases h with
  | bare hw => exact hword _ hw
  | plus hw | minus hw =>
    obtain ⟨c, hc, hn⟩ := hword _ hw
    exact ⟨c, List.mem_cons_of_mem _ hc, hn⟩

theorem SpellsNaN.letter {text : List Char} (h : SpellsNaN text) :
    ∃ c ∈ text, c.toLower = 'n' := by
  obtain ⟨before, said, after, rfl, hsaid, -, -⟩ := h
  obtain ⟨c, hc, hn⟩ := hsaid.letter
  exact ⟨c, List.mem_append_right _ (List.mem_append_left _ hc), hn⟩

end Text

namespace Direction
open Numeric (IsCosine)

theorem isTolerance_chars {text : List Char} (h : isTolerance text = true) :
    ∀ c ∈ text, Text.isDecimalDigit c = true ∨ c = '.' := by
  unfold isTolerance at h
  obtain ⟨-, hrest⟩ := Bool.and_eq_true_iff.mp h
  rw [← List.takeWhile_append_dropWhile (p := Text.isDecimalDigit) (l := text)]
  refine List.forall_mem_append.mpr ⟨fun c hc => .inl (List.mem_takeWhile_imp hc), ?_⟩
  intro c hc
  cases hd : text.dropWhile Text.isDecimalDigit with
  | nil => simp [hd] at hc
  | cons point rest =>
    rw [hd] at hc hrest
    obtain ⟨hpoint, hall⟩ := Bool.and_eq_true_iff.mp hrest
    rcases List.mem_cons.mp hc with rfl | hm
    · exact .inr (by simpa using hpoint)
    · exact .inl (List.all_eq_true.mp hall c hm)

/-- Tolerances are digits and points, so none of them spells NaN. -/
theorem isTolerance_number {text : List Char} (h : isTolerance text = true) :
    ¬ Text.SpellsNaN text := by
  intro hnan
  obtain ⟨c, hc, hn⟩ := hnan.letter
  rcases isTolerance_chars h c hc with hd | rfl
  · have hbounds := Text.isDecimalDigit_bounds hd
    rcases Text.toLower_cases c with hcapital | hsame
    · omega
    · rw [hsame] at hn
      subst hn
      revert hbounds
      decide
  · exact absurd hn (by decide)

theorem tolerance_numbers : tolerance.Numbers := by
  constructor
  · rintro _ ⟨⟩
    decide +kernel
  · rintro _ ⟨⟩
    decide +kernel

/-- Half a turn at most is a finite number of radians. -/
theorem ofDegrees_isCosine (side : Side) {degrees : Float} (h : tolerance.Contains degrees) :
    IsCosine (ofDegrees side degrees).cosine := by
  have hpi : -180 ≤ Plane.pi / 180 ∧ Plane.pi / 180 ≤ 180 := by decide +kernel
  have hleast : -180 ≤ degrees :=
    Numeric.le_trans (by decide +kernel) (h.least 0 rfl)
  exact ⟨_, Numeric.mul_isFinite ⟨hleast, h.greatest 180 rfl⟩ hpi, rfl⟩

theorem ofText_isCosine (loc : Location) (text : List Char) :
    Check.Yields (fun d => IsCosine d.cosine) (ofText loc text) := by
  unfold ofText
  split
  · split
    · rename_i rest side _ htolerance
      refine .bind fun degrees hdegrees => .pure ?_
      have hreads := Field.float_reads tolerance_numbers loc _ degrees hdegrees
      refine ofDegrees_isCosine side (hreads.within ?_)
      simpa [Value.SpellsNaN] using isTolerance_number htolerance
    · exact .fault
  · exact .fault

/-- A direction that is read has the cosine of a finite angle. -/
theorem read_isCosine (loc : Location) {raw : Value} (h : raw.plain = true) :
    Check.Yields (fun d => IsCosine d.cosine) (read loc raw) := by
  unfold read
  split
  · exact ofText_isCosine loc _
  · refine .bind fun items hitems => ?_
    have hplain := Field.list_plain _ loc h items hitems
    split
    · refine .step fun side => .bind fun degrees hdegrees => .pure ?_
      have hfinite := Field.float_isFinite _ _ _ (hplain _ (by simp)) degrees hdegrees
      have hreads := Field.float_reads tolerance_numbers _ _ degrees hdegrees
      refine ofDegrees_isCosine side (hreads.within fun hnan => ?_)
      have hnumber := Numeric.isNaN_of_isFinite hfinite
      rw [hreads.nan.mpr hnan] at hnumber
      cases hnumber
    · exact .fault

end Direction

/-- The direction of a key, if it has one, has the cosine of a finite angle. -/
def KeyInput.Finite (input : KeyInput) : Prop :=
  ∀ direction ∈ input.direction, Numeric.IsCosine direction.cosine

theorem KeyInput.read_finite (loc : Location) (raw : Value) (h : raw.plain = true) :
    Check.Yields KeyInput.Finite (read loc raw) := by
  unfold read
  split
  · refine .bind fun items hitems => ?_
    have hplain := Field.list_plain _ loc h items hitems
    split
    · refine .step fun key => .bind fun direction hd => .pure ?_
      rintro _ ⟨⟩
      exact Direction.read_isCosine _ (hplain _ (by simp)) direction hd
    · exact .fault
  · refine .step fun key => .pure ?_
    rintro _ ⟨⟩

def DeriveRuleDraft.raws (draft : DeriveRuleDraft) : List Value :=
  [draft.key, draft.level, draft.action]

theorem DeriveRule.read_finite (loc : Location) {draft : DeriveRuleDraft}
    (h : Value.AllPlain draft.raws) :
    Check.Yields (fun rule => rule.key.Finite) (read loc draft) := by
  unfold read
  refine .bind fun key hkey => .step fun _ => .step fun _ => .pure ?_
  exact KeyInput.read_finite _ _ (h _ (by simp [DeriveRuleDraft.raws])) key hkey

end GameRoster
