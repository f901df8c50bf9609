import GameRoster.Proofs.Arithmetic
import GameRoster.Proofs.NumberFields
import GameRoster.Proofs.Numerals
import GameRoster.Proofs.Ordering

namespace GameRoster

namespace Numeric
open Float.Model Float.Model.UnpackedFloat

theorem neg_isNaN (x : Float) : (-x).isNaN = x.isNaN := by
  have hneg : (-x).toModel.unpack = (Float.Model.pack x.toModel.unpack.neg).unpack := rfl
  cases hx : x.isNaN with
  | false =>
    have hnumber := isNaN_eq_false.mp hx
    rw [isNaN_eq_false, hneg]
    refine pack_number ?_
    cases hu : x.toModel.unpack <;> simp_all [UnpackedFloat.neg]
  | true =>
    have hu : x.toModel.unpack = .notANumber := isNaN_iff.mp hx
    change (-x).toModel.unpack.isNaN = true
    rw [hneg, hu]
    decide +kernel

end Numeric

namespace Text

/-- The word for NaN in any case, perhaps with a sign. -/
inductive SaysNaN : List Char → Prop
  | bare {word : List Char} (h : word.map Char.toLower = ['n', 'a', 'n']) : SaysNaN word
  | plus {word : List Char} (h : word.map Char.toLower = ['n', 'a', 'n']) : SaysNaN ('+' :: word)
  | minus {word : List Char} (h : word.map Char.toLower = ['n', 'a', 'n']) : SaysNaN ('-' :: word)

/-- A text that says NaN between white space. -/
def SpellsNaN (text : List Char) : Prop :=
  ∃ before said after, text = before ++ (said ++ after) ∧ SaysNaN said ∧
    (∀ c ∈ before, isBlank c = true) ∧ ∀ c ∈ after, isBlank c = true

theorem trim_around {before core after : List Char} (hbefore : ∀ c ∈ before, isBlank c = true)
    (hafter : ∀ c ∈ after, isBlank c = true) (hne : core ≠ [])
    (hfirst : ∀ c ∈ core.head?, isBlank c = false)
    (hlast : ∀ c ∈ core.getLast?, isBlank c = false) :
    trim (before ++ (core ++ after)) = core := by
  have hfront : (before ++ (core ++ after)).dropWhile isBlank = core ++ after := by
    refine dropWhile_run hbefore fun c hc => hfirst c ?_
    rwa [List.head?_append_of_ne_nil _ hne] at hc
  have hback : (core ++ after).reverse.dropWhile isBlank = core.reverse := by
    rw [List.reverse_append]
    refine dropWhile_run (fun c hc => hafter c (List.mem_reverse.mp hc)) fun c hc => hlast c ?_
    rwa [List.head?_reverse] at hc
  rw [trim, hfront, hback, List.reverse_reverse]

theorem trim_parts (text : List Char) : ∃ before after, text = before ++ (trim text ++ after) ∧
    (∀ c ∈ before, isBlank c = true) ∧ ∀ c ∈ after, isBlank c = true := by
  refine ⟨text.takeWhile isBlank, ((text.dropWhile isBlank).reverse.takeWhile isBlank).reverse,
    ?_, ?_, ?_⟩
  · rw [trim, ← List.reverse_append, List.takeWhile_append_dropWhile, List.reverse_reverse,
      List.takeWhile_append_dropWhile]
  · exact fun c hc => List.mem_takeWhile_imp hc
  · exact fun c hc => List.mem_takeWhile_imp (List.mem_reverse.mp hc)

theorem isDigit_bounds {c : Char} (h : isDigit c = true) : 48 ≤ c.toNat ∧ c.toNat ≤ 57 := by
  simpa [isDigit, Char.isDigit, UInt32.le_iff_toNat_le] using h

theorem not_digit_of_blank {c : Char} (h : isBlank c = true) : isDigit c = false := by
  by_contra hd
  have hbounds := isDigit_bounds (Bool.eq_true_of_not_eq_false hd)
  simp only [isBlank, blankRanges, List.any_cons, List.any_nil, Bool.or_false, Bool.or_eq_true,
    Bool.and_eq_true, decide_eq_true_eq] at h
  omega

/-- A character is a capital letter, or the same in lower case. -/
theorem toLower_cases (c : Char) : 65 ≤ c.toNat ∧ c.toNat ≤ 90 ∨ c.toLower = c := by
  unfold Char.toLower
  split
  · rename_i h
    exact .inl h
  · exact .inr rfl

/-- The letters of the word are neither white space nor digits. -/
theorem letter_of_toLower {c : Char} (h : c.toLower = 'n' ∨ c.toLower = 'a') :
    isBlank c = false ∧ isDigit c = false := by
  rcases toLower_cases c with hc | hc
  · constructor
    · simp only [isBlank, blankRanges, List.any_cons, List.any_nil, Bool.or_false,
        Bool.or_eq_false_iff, Bool.and_eq_false_iff, decide_eq_false_iff_not]
      omega
    · by_contra hd
      have hbounds := isDigit_bounds (Bool.eq_true_of_not_eq_false hd)
      omega
  · rw [hc] at h
    rcases h with rfl | rfl <;> decide

theorem SaysNaN.chars {text : List Char} (h : SaysNaN text) :
    text ≠ [] ∧ ∀ c ∈ text, isBlank c = false ∧ isDigit c = false := by
  have hword : ∀ word : List Char, word.map Char.toLower = ['n', 'a', 'n'] →
      word ≠ [] ∧ ∀ c ∈ word, isBlank c = false ∧ isDigit c = false := by
    intro word hw
    refine ⟨fun hnil => by simp [hnil] at hw, fun c hc => letter_of_toLower ?_⟩
    have hm := List.mem_map_of_mem (f := Char.toLower) hc
    rw [hw] at hm
    simp only [List.mem_cons, List.not_mem_nil, or_false] at hm
    tauto
  cases h with
  | bare hw => exact hword _ hw
  | plus hw => exact ⟨by simp, List.forall_mem_cons.mpr ⟨by decide, (hword _ hw).2⟩⟩
  | minus hw => exact ⟨by simp, List.forall_mem_cons.mpr ⟨by decide, (hword _ hw).2⟩⟩

theorem SpellsNaN.not_digit {text : List Char} (h : SpellsNaN text) :
    ∀ c ∈ text, isDigit c = false := by
  obtain ⟨before, said, after, rfl, hsaid, hbefore, hafter⟩ := h
  simp only [List.forall_mem_append]
  refine ⟨?_, fun c hc => (hsaid.chars.2 c hc).2, ?_⟩
  · exact fun c hc => not_digit_of_blank (hbefore c hc)
  · exact fun c hc => not_digit_of_blank (hafter c hc)

theorem spellsNaN_iff {text : List Char} : SpellsNaN text ↔ SaysNaN (trim text) := by
  constructor
  · rintro ⟨before, said, after, rfl, hsaid, hbefore, hafter⟩
    obtain ⟨hne, hchars⟩ := hsaid.chars
    rwa [trim_around hbefore hafter hne (fun c hc => (hchars c (List.mem_of_mem_head? hc)).1)
      fun c hc => (hchars c (List.mem_of_mem_getLast? hc)).1]
  · intro h
    obtain ⟨before, after, htext, hbefore, hafter⟩ := trim_parts text
    exact ⟨before, _, after, htext, h, hbefore, hafter⟩

end Text

namespace Numeric
open Text (SaysNaN)

theorem word?_nan {text : List Char} (h : text.map Char.toLower = ['n', 'a', 'n']) :
    word? text = some notANumber := by
  unfold word?
  rw [h]
  rfl

theorem word?_isNaN {text : List Char} {x : Float} (h : word? text = some x) :
    x.isNaN = true ↔ text.map Char.toLower = ['n', 'a', 'n'] := by
  have hspelled : ∀ {word : String}, String.ofList (text.map Char.toLower) = word →
      text.map Char.toLower = word.toList := by
    rintro _ rfl
    exact (String.toList_ofList).symm
  have hinfinity : infinity.isNaN = false := by decide +kernel
  unfold word? at h
  split at h
  · rename_i hw
    obtain rfl := Option.some.inj h
    rw [hspelled hw, hinfinity]
    decide
  · rename_i hw
    obtain rfl := Option.some.inj h
    rw [hspelled hw, hinfinity]
    decide
  · rename_i hw
    obtain rfl := Option.some.inj h
    exact iff_of_true (by decide +kernel) (hspelled hw)
  · cases h

theorem scaled_isNaN (digits : List Char) (exponent : Int) :
    (scaled digits exponent).isNaN = false := by
  unfold scaled
  split
  · exact ofScientific_isNaN _ _ _
  · exact ofScientific_isNaN _ _ _

theorem unsignedDecimal?_isNaN {text : List Char} {x : Float}
    (h : unsignedDecimal? text = some x) : x.isNaN = false := by
  have hscaled : ∃ digits exponent, scaled digits exponent = x := by
    unfold unsignedDecimal? at h
    dsimp only at h
    split at h
    all_goals
      dsimp only at h
      split at h
      · simp at h
      · split at h
        · exact ⟨_, _, Option.some.inj h⟩
        · split at h
          · obtain ⟨exponent, -, he⟩ := Option.bind_eq_some_iff.mp h
            exact ⟨_, _, Option.some.inj he⟩
          · simp at h
  obtain ⟨digits, exponent, rfl⟩ := hscaled
  exact scaled_isNaN digits exponent

/-- What stands behind the sign of a text decides whether it says NaN. -/
theorem saysNaN_iff {text : List Char} :
    SaysNaN text ↔ (takeSign text).2.map Char.toLower = ['n', 'a', 'n'] := by
  constructor
  · intro h
    cases h with
    | plus h => exact h
    | minus h => exact h
    | bare h =>
      unfold takeSign
      split
      · simp at h
      · simp at h
      · exact h
  · intro h
    unfold takeSign at h
    split at h
    · exact .minus h
    · exact .plus h
    · exact .bare h

instance (text : List Char) : Decidable (Text.SpellsNaN text) :=
  decidable_of_iff _ (Text.spellsNaN_iff.trans saysNaN_iff).symm

theorem literal?_isNaN {text : List Char} {x : Float} (h : literal? text = some x) :
    x.isNaN = true ↔ SaysNaN text := by
  rw [saysNaN_iff]
  unfold literal? at h
  generalize takeSign text = signed at h ⊢
  obtain ⟨minus, body⟩ := signed
  obtain ⟨y, hy, rfl⟩ := Option.map_eq_some_iff.mp h
  have hsign : (if minus then -y else y).isNaN = y.isNaN := by
    cases minus
    · rfl
    · exact neg_isNaN y
  rw [hsign]
  split at hy
  · rename_i z hz
    obtain rfl := Option.some.inj hy
    exact word?_isNaN hz
  · rename_i hnone
    rw [unsignedDecimal?_isNaN hy]
    refine iff_of_false (by simp) fun hw => ?_
    rw [word?_nan hw] at hnone
    cases hnone

theorem literal?_of_saysNaN {text : List Char} (h : SaysNaN text) :
    ∃ x, literal? text = some x ∧ x.isNaN = true := by
  have hsome : ∃ x, literal? text = some x := by
    rw [saysNaN_iff] at h
    simp [literal?, word?_nan h]
  obtain ⟨x, hx⟩ := hsome
  exact ⟨x, hx, (literal?_isNaN hx).mpr h⟩

end Numeric

namespace Field
open Text (SpellsNaN)

/-- A percent begins with a digit, and there is none in a text that spells NaN. -/
theorem percent?_of_spellsNaN {text : List Char} (h : SpellsNaN text) : percent? text = none := by
  have htake : text.takeWhile Text.isDigit = [] := by
    cases text with
    | nil => rfl
    | cons c rest => simp [h.not_digit c List.mem_cons_self]
  simp [percent?, Text.Numeral.take?, htake]

theorem percent?_isNaN {text : List Char} {x : Float} (h : percent? text = some x) :
    x.isNaN = false := by
  unfold percent? at h
  split at h
  · obtain rfl := Option.some.inj h
    exact Numeric.div_isNaN (Text.Numeral.toFloat_isNaN _) (by decide +kernel)
  · cases h

/-- A text is read as NaN if it spells NaN, and never otherwise. -/
theorem floatOfText?_isNaN {text : List Char} {x : Float} (h : floatOfText? text = some x) :
    x.isNaN = true ↔ SpellsNaN text := by
  unfold floatOfText? at h
  split at h
  · rename_i y hy
    obtain rfl := Option.some.inj h
    rw [percent?_isNaN hy]
    refine iff_of_false (by simp) fun hs => ?_
    rw [percent?_of_spellsNaN hs] at hy
    cases hy
  · rw [Numeric.literal?_isNaN h, Text.spellsNaN_iff]

theorem floatOfText?_of_spellsNaN {text : List Char} (h : SpellsNaN text) :
    ∃ x, floatOfText? text = some x ∧ x.isNaN = true := by
  unfold floatOfText?
  rw [percent?_of_spellsNaN h]
  exact Numeric.literal?_of_saysNaN (Text.spellsNaN_iff.mp h)

end Field

/-- A value that a float field reads as NaN. -/
def Value.SpellsNaN : Value → Prop
  | .string s => Text.SpellsNaN s.toList
  | _ => False

instance : DecidablePred Value.SpellsNaN
  | .string s => inferInstanceAs (Decidable (Text.SpellsNaN s.toList))
  | .null => inferInstanceAs (Decidable False)
  | .bool _ => inferInstanceAs (Decidable False)
  | .number _ => inferInstanceAs (Decidable False)
  | .array _ => inferInstanceAs (Decidable False)
  | .object _ => inferInstanceAs (Decidable False)

namespace FloatLimits

/-- Bounds that are numbers. -/
structure Numbers (limits : FloatLimits) : Prop where
  least : ∀ lo ∈ limits.least, lo.isNaN = false
  greatest : ∀ hi ∈ limits.greatest, hi.isNaN = false

/-- A number between the bounds. -/
structure Contains (limits : FloatLimits) (x : Float) : Prop where
  number : x.isNaN = false
  least : ∀ lo ∈ limits.least, lo ≤ x
  greatest : ∀ hi ∈ limits.greatest, x ≤ hi

/-- What a field makes of a value: NaN of what spells it, and a number between the bounds of
everything else. -/
structure Reads (limits : FloatLimits) (raw : Value) (x : Float) : Prop where
  nan : x.isNaN = true ↔ raw.SpellsNaN
  within : ¬ raw.SpellsNaN → limits.Contains x

end FloatLimits

/-- All items stand in order. -/
def Order.Sorts (order : Order) (items : List Float) : Prop :=
  match order with
  | .any => True
  | .ascending => items.Pairwise fun a b => a ≤ b
  | .descending => items.Pairwise fun a b => b ≤ a

/-- Numbers that are in order with their neighbours are in order with each other. -/
theorem Order.Keeps.sorts {order : Order} {items : List Float}
    (hnumbers : ∀ x ∈ items, x.isNaN = false) (h : order.Keeps items) : order.Sorts items := by
  cases order with
  | any => trivial
  | ascending =>
    have : Trans (fun a b : Float => a ≤ b) (fun a b => a ≤ b) (fun a b => a ≤ b) :=
      ⟨Numeric.le_trans⟩
    refine (List.IsChain.imp_of_mem_imp (fun a b ha hb hab => ?_) h).pairwise
    exact (Numeric.not_lt_iff_le (hnumbers b hb) (hnumbers a ha)).mp hab
  | descending =>
    have : Trans (fun a b : Float => b ≤ a) (fun a b => b ≤ a) (fun a b => b ≤ a) :=
      ⟨fun hab hbc => Numeric.le_trans hbc hab⟩
    refine (List.IsChain.imp_of_mem_imp (fun a b ha hb hab => ?_) h).pairwise
    exact (Numeric.not_lt_iff_le (hnumbers a ha) (hnumbers b hb)).mp hab

namespace Field

variable {limits : FloatLimits} {loc : Location} {raw : Value}

theorem floatSource_isNaN {x : Float} (h : floatSource loc raw = .ok x) :
    x.isNaN = true ↔ raw.SpellsNaN := by
  unfold floatSource at h
  split at h
  · rename_i n
    obtain rfl := Except.ok.inj h
    rw [n.toFloat_isNaN]
    exact iff_of_false (by simp) id
  · split at h
    · rename_i y hy
      obtain rfl := Except.ok.inj h
      exact floatOfText?_isNaN hy
    · cases h
  · cases h

/-- Nothing is below NaN or above it, so no bound excludes it. -/
theorem float_of_spellsNaN (h : raw.SpellsNaN) : ∃ x, float limits loc raw = .ok x := by
  cases raw with
  | string s =>
    obtain ⟨x, hx, hnan⟩ := floatOfText?_of_spellsNaN h
    refine ⟨x, float_ok.mpr ⟨by simp [floatSource, hx], fun lo _ hlt => ?_, fun hi _ hlt => ?_⟩⟩
    · exact Bool.false_ne_true ((Numeric.isNaN_of_le (Numeric.le_of_lt hlt)).1.symm.trans hnan)
    · exact Bool.false_ne_true ((Numeric.isNaN_of_le (Numeric.le_of_lt hlt)).2.symm.trans hnan)
  | _ => exact h.elim

theorem float_reads (hl : limits.Numbers) (loc : Location) (raw : Value) :
    Check.Yields (limits.Reads raw) (float limits loc raw) := by
  intro x h
  obtain ⟨hsource, hleast, hgreatest⟩ := float_ok.mp h
  have hnan := floatSource_isNaN hsource
  refine ⟨hnan, fun hspells => ?_⟩
  have hnumber : x.isNaN = false := Bool.eq_false_iff.mpr (mt hnan.mp hspells)
  constructor
  case number => exact hnumber
  case least =>
    exact fun lo hlo => (Numeric.not_lt_iff_le hnumber (hl.least lo hlo)).mp (hleast lo hlo)
  case greatest =>
    exact fun hi hhi => (Numeric.not_lt_iff_le (hl.greatest hi hhi) hnumber).mp (hgreatest hi hhi)

/-- A float field, each item of a list of floats and both ends of a range hold a number within the
bounds, unless what is written there spells NaN, which every bound lets pass. A list without NaN
is in order as a whole, and so are the ends of a range; with NaN only neighbours are compared. -/
theorem floats_bounded (hl : limits.Numbers) (loc : Location) (raw : Value) :
    (∀ x, float limits loc raw = .ok x → limits.Reads raw x) ∧
    (raw.SpellsNaN → ∃ x, float limits loc raw = .ok x) ∧
    (∀ lengths order first found, numbers (float limits) lengths order first loc raw = .ok found →
      ∃ raws parsed, raw = .array raws ∧ found = first.toList ++ parsed ∧
        List.Forall₂ limits.Reads raws parsed ∧ order.Keeps parsed ∧
        ((∀ item ∈ raws, ¬ item.SpellsNaN) → order.Sorts parsed)) ∧
    ∀ a b, floatRange limits loc raw = .ok (a, b) →
      ∃ first second, raw = .array [first, second] ∧ limits.Reads first a ∧
        limits.Reads second b ∧ (¬ first.SpellsNaN → ¬ second.SpellsNaN → a ≤ b) := by
  refine ⟨float_reads hl loc raw, float_of_spellsNaN, ?_, ?_⟩
  · intro lengths order first found h
    obtain ⟨raws, parsed, hraw, -, heach, hkeeps, hfound⟩ := numbers_ok.mp h
    have hreads : List.Forall₂ limits.Reads raws parsed :=
      Location.each_related (float_reads hl) loc raws parsed heach
    refine ⟨raws, parsed, hraw, hfound.symm, hreads, hkeeps, fun hnone => hkeeps.sorts ?_⟩
    exact Location.each_mem (fun item hitem loc x hx =>
      ((float_reads hl loc item x hx).within (hnone item hitem)).number) loc parsed heach
  · intro a b h
    obtain ⟨first, second, hraw, hfirst, hsecond, hle⟩ := range_ok.mp h
    have ha := float_reads hl _ _ a hfirst
    have hb := float_reads hl _ _ b hsecond
    refine ⟨first, second, hraw, ha, hb, fun hfa hsb => ?_⟩
    exact (Numeric.not_lt_iff_le (hb.within hsb).number (ha.within hfa).number).mp hle

theorem unit_numbers : (FloatLimits.between 0 1).Numbers := by
  constructor
  · rintro _ ⟨⟩
    decide +kernel
  · rintro _ ⟨⟩
    decide +kernel

/-- A percent and a decimal, the smaller one first. -/
def rising : List Value := [.string "10%", .string " 0.5 "]

theorem rising_bounded : (FloatLimits.between 0 1).Numbers ∧
    ∃ parsed, numbers (float (.between 0 1)) {} .ascending none (.label "x") (.array rising) =
      .ok parsed ∧ List.Forall₂ (FloatLimits.between 0 1).Reads rising parsed ∧
      Order.ascending.Sorts parsed := by
  obtain ⟨parsed, hread⟩ := Check.exists_of_isOk (x := numbers (float (.between 0 1)) {} .ascending
    none (.label "x") (.array rising)) (by decide +kernel)
  obtain ⟨-, -, hlists, -⟩ := floats_bounded unit_numbers (.label "x") (.array rising)
  obtain ⟨raws, found, hraws, hfound, hreads, -, hsorts⟩ := hlists _ _ _ _ hread
  obtain rfl := Value.array.inj hraws
  obtain rfl : parsed = found := hfound
  exact ⟨unit_numbers, parsed, hread, hreads, hsorts (by decide +kernel)⟩

/-- A text that spells NaN is accepted between any bounds, and lies between none. -/
theorem bounds_passed_by_nan : ¬ ∀ limits loc raw x, FloatLimits.Numbers limits →
    float limits loc raw = .ok x → limits.Contains x := by
  intro h
  have hspells : (Value.string "NaN").SpellsNaN := by decide +kernel
  obtain ⟨x, hx⟩ : ∃ x, float (.between 0 1) (.label "x") (.string "NaN") = .ok x :=
    float_of_spellsNaN hspells
  have hnan := (float_reads unit_numbers _ _ x hx).nan.mpr hspells
  exact Bool.false_ne_true ((h _ _ _ x unit_numbers hx).number.symm.trans hnan)

end Field

end GameRoster
