import GameRoster.Numeric.Layout
import GameRoster.Proofs.Numerals
import GameRoster.Proofs.ShortestDecimals

namespace GameRoster

namespace Text

theorem digitsValue_eq (digits : List Char) :
    digitsValue digits = Nat.ofDigitChars 10 digits 0 := by
  rfl

theorem digitsValue_toDigits (n : ℕ) : digitsValue (Nat.toDigits 10 n) = n := by
  rw [digitsValue_eq, Nat.ofDigitChars_toDigits (by decide) (by decide)]

theorem digitsValue_append (digits more : List Char) :
    digitsValue (digits ++ more) = digitsValue digits * 10 ^ more.length + digitsValue more := by
  induction more using List.reverseRecOn with
  | nil => simp [digitsValue]
  | append_singleton more c ih =>
    have hsnoc : ∀ front : List Char,
        digitsValue (front ++ [c]) = 10 * digitsValue front + (c.toNat - '0'.toNat) := by
      intro front
      simp [digitsValue]
    rw [← List.append_assoc, hsnoc, hsnoc, ih, List.length_append, List.length_singleton, pow_succ]
    ring

theorem digitsValue_zeros (k : ℕ) : digitsValue (List.replicate k '0') = 0 := by
  induction k with
  | zero => rfl
  | succ k ih =>
    rw [List.replicate_succ', digitsValue_append, ih]
    rfl

theorem toDigits_isDigit {n : ℕ} : ∀ c ∈ Nat.toDigits 10 n, isDigit c = true :=
  fun _ hc => Nat.isDigit_of_mem_toDigits (by decide) (by decide) hc

/-- Digits do not begin with a zero that could be left out. -/
def Led (digits : List Char) : Prop := digits = ['0'] ∨ digits.head? ≠ some '0'

theorem toDigits_head {n : ℕ} (hn : 0 < n) : (Nat.toDigits 10 n).head? ≠ some '0' := by
  induction n using Nat.strongRecOn with
  | ind n ih =>
    rw [Nat.toDigits_eq_if (by decide)]
    split
    · interval_cases n <;> decide
    · rw [List.head?_append_of_ne_nil _ Nat.toDigits_ne_nil]
      exact ih (n / 10) (by omega) (by omega)

namespace Numeral

/-- The value of a numeral. -/
def value (n : Numeral) : ℚ := digitsValue (n.whole ++ n.fraction) / 10 ^ n.fraction.length

/-- Digits, the last `places` of which make the fraction. -/
def split (digits : List Char) (places : ℕ) : Numeral :=
  ⟨digits.take (digits.length - places), digits.drop (digits.length - places)⟩

variable {digits : List Char} {places : ℕ}

theorem split_joined : (split digits places).whole ++ (split digits places).fraction = digits :=
  List.take_append_drop _ _

theorem split_fraction_length (h : places ≤ digits.length) :
    (split digits places).fraction.length = places := by
  rw [split, List.length_drop]
  omega

theorem split_wellFormed (hall : ∀ c ∈ digits, isDigit c = true) (h : places < digits.length) :
    (split digits places).WellFormed := by
  constructor
  case nonempty =>
    intro hnil
    have hlength := congrArg List.length hnil
    rw [split, List.length_take, List.length_nil] at hlength
    omega
  case whole => exact fun c hc => hall c (List.mem_of_mem_take hc)
  case fraction => exact fun c hc => hall c (List.mem_of_mem_drop hc)

theorem split_value (h : places ≤ digits.length) :
    (split digits places).value = digitsValue digits / 10 ^ places := by
  rw [value, split_joined, split_fraction_length h]

end Numeral

end Text

namespace Numeric
open Text (Numeral Led)

/-- The text of a number without its sign, and its value: a numeral with a fraction, or a numeral
with a power of ten behind it. -/
inductive WritesMagnitude : List Char → ℚ → Prop
  | fraction {n : Numeral} (h : n.WellFormed) (hled : Led n.whole) (hne : n.fraction ≠ []) :
      WritesMagnitude n.text n.value
  | power {n : Numeral} (h : n.WellFormed) (hled : Led n.whole) (e : ℤ) :
      WritesMagnitude
        (n.text ++ 'e' :: (if e < 0 then '-' else '+') :: Nat.toDigits 10 e.natAbs)
        (n.value * 10 ^ e)

/-- The text of a double: its sign, and a magnitude that reads as the double. -/
inductive WritesDouble (x : Float) : List Char → Prop
  | positive {text : List Char} {v : ℚ} (hs : Binary.isNegative x = false)
      (h : WritesMagnitude text v) (hr : ReadsAs v x) : WritesDouble x text
  | negative {text : List Char} {v : ℚ} (hs : Binary.isNegative x = true)
      (h : WritesMagnitude text v) (hr : ReadsAs (-v) x) : WritesDouble x ('-' :: text)

namespace Layout

variable {l : Layout} {d : Decimal}

theorem zeros_isDigit (k : ℕ) : ∀ c ∈ zeros k, Text.isDigit c = true := by
  intro c hc
  rw [List.eq_of_mem_replicate hc]
  rfl

theorem digitChars_led {n : ℕ} (hn : n ≠ 0) (more : List Char) : Led (digitChars n ++ more) := by
  right
  rw [digitChars, List.head?_append_of_ne_nil _ Nat.toDigits_ne_nil]
  exact Text.toDigits_head (Nat.pos_of_ne_zero hn)

/-- Zeros stand between the digits and the point. -/
theorem positionalText_whole (hl : l.wholeFraction = true) (he : 0 ≤ d.exponent)
    (hd : d.digits ≠ 0 ∨ d.exponent = 0) : WritesMagnitude (l.positionalText d) d.value := by
  have hformed : (⟨digitChars d.digits ++ zeros d.exponent.toNat, ['0']⟩ : Numeral).WellFormed := by
    constructor
    case nonempty => simp [digitChars, Nat.toDigits_ne_nil]
    case whole => exact List.forall_mem_append.mpr ⟨Text.toDigits_isDigit, zeros_isDigit _⟩
    case fraction => simp [Text.isDigit]
  have hled : Led (digitChars d.digits ++ zeros d.exponent.toNat) := by
    by_cases hzero : d.digits = 0
    · have hexp := hd.resolve_left (not_not.mpr hzero)
      left
      rw [hzero, hexp]
      rfl
    · exact digitChars_led hzero _
  have hvalue : (⟨digitChars d.digits ++ zeros d.exponent.toNat, ['0']⟩ : Numeral).value =
      d.value := by
    have hexp := zpow_natCast (10 : ℚ) d.exponent.toNat
    rw [Int.toNat_of_nonneg he] at hexp
    unfold Numeral.value Decimal.value
    rw [Text.digitsValue_append, Text.digitsValue_append, digitChars, zeros,
      Text.digitsValue_toDigits, Text.digitsValue_zeros, hexp]
    simp [Text.digitsValue]
  have htext : l.positionalText d =
      (⟨digitChars d.digits ++ zeros d.exponent.toNat, ['0']⟩ : Numeral).text := by
    simp [positionalText, he, hl, Numeral.text]
  rw [htext, ← hvalue]
  exact .fraction hformed hled (by simp)

/-- The digits of a number, with zeros in front until there are more of them than places. -/
def padded (n places : ℕ) : List Char :=
  zeros (places + 1 - (digitChars n).length) ++ digitChars n

theorem lt_length_padded (n places : ℕ) : places < (padded n places).length := by
  rw [padded, List.length_append, zeros, List.length_replicate]
  omega

theorem padded_isDigit (n places : ℕ) : ∀ c ∈ padded n places, Text.isDigit c = true :=
  List.forall_mem_append.mpr ⟨zeros_isDigit _, Text.toDigits_isDigit⟩

theorem padded_value (n places : ℕ) : Text.digitsValue (padded n places) = n := by
  rw [padded, Text.digitsValue_append, zeros, digitChars, Text.digitsValue_zeros,
    Text.digitsValue_toDigits, Nat.zero_mul, Nat.zero_add]

/-- A zero stands in front of the point only where no digit does. -/
theorem padded_led {n : ℕ} (hn : n ≠ 0) (places : ℕ) :
    Led (Numeral.split (padded n places) places).whole := by
  have hlt := lt_length_padded n places
  rcases Nat.lt_or_ge places (digitChars n).length with hmany | hfew
  · have hnone : places + 1 - (digitChars n).length = 0 := by omega
    have hne := (Numeral.split_wellFormed (padded_isDigit n places) hlt).nonempty
    have hjoined : (Numeral.split (padded n places) places).whole ++
        (Numeral.split (padded n places) places).fraction = padded n places := Numeral.split_joined
    have hhead : (padded n places).head? ≠ some '0' := by
      rw [padded, hnone]
      exact Text.toDigits_head (Nat.pos_of_ne_zero hn)
    rw [← hjoined, List.head?_append_of_ne_nil _ hne] at hhead
    exact .inr hhead
  · obtain ⟨k, hk⟩ : ∃ k, places + 1 - (digitChars n).length = k + 1 :=
      ⟨places - (digitChars n).length, by omega⟩
    have hone : (padded n places).length - places = 1 := by
      rw [padded, List.length_append, zeros, List.length_replicate]
      omega
    left
    rw [Numeral.split, hone, padded, hk, zeros, List.replicate_succ]
    rfl

theorem positionalText_fraction (he : d.exponent < 0) (hd : d.digits ≠ 0) :
    WritesMagnitude (l.positionalText d) d.value := by
  obtain ⟨places, hplaces⟩ : ∃ places : ℕ, d.exponent = -(places : ℤ) :=
    ⟨(-d.exponent).toNat, by omega⟩
  have hcount : (-d.exponent).toNat = places := by omega
  have hlt := lt_length_padded d.digits places
  have hne : (Numeral.split (padded d.digits places) places).fraction ≠ [] := by
    intro hnil
    have hlength := Numeral.split_fraction_length hlt.le
    rw [hnil, List.length_nil] at hlength
    omega
  have hvalue : (Numeral.split (padded d.digits places) places).value = d.value := by
    rw [Numeral.split_value hlt.le, padded_value, Decimal.value, hplaces, zpow_neg, zpow_natCast,
      div_eq_mul_inv]
  have htext : l.positionalText d = (Numeral.split (padded d.digits places) places).text := by
    unfold positionalText
    simp only [Int.not_le.mpr he, if_false, hcount]
    rw [Numeral.text, if_neg (by simpa using hne)]
    rfl
  rw [htext, ← hvalue]
  exact .fraction (Numeral.split_wellFormed (padded_isDigit _ _) hlt) (padded_led hd places) hne

/-- The first digit stands before the point. -/
theorem scientificText_writes (hd : d.digits ≠ 0) :
    WritesMagnitude (scientificText d) d.value := by
  obtain ⟨first, rest, hdigits⟩ := List.exists_cons_of_ne_nil
    (Nat.toDigits_ne_nil (n := d.digits) (b := 10))
  have hall : ∀ c ∈ first :: rest, Text.isDigit c = true := hdigits ▸ Text.toDigits_isDigit
  obtain ⟨hfirst, hrest⟩ := List.forall_mem_cons.mp hall
  have hformed : (⟨[first], rest⟩ : Numeral).WellFormed :=
    ⟨List.cons_ne_nil _ _, by simpa using hfirst, hrest⟩
  have hled : Led [first] := by
    right
    have hhead := Text.toDigits_head (Nat.pos_of_ne_zero hd)
    rw [hdigits] at hhead
    exact hhead
  have hpower : leadingPower d = d.exponent + rest.length := by
    unfold leadingPower digitChars
    rw [hdigits, List.length_cons]
    push_cast
    ring
  have hvalue : (⟨[first], rest⟩ : Numeral).value * 10 ^ leadingPower d = d.value := by
    have hdigit : Text.digitsValue (first :: rest) = d.digits := by
      rw [← hdigits, Text.digitsValue_toDigits]
    unfold Numeral.value Decimal.value
    rw [List.singleton_append, hdigit, hpower, zpow_add₀ (by norm_num), zpow_natCast]
    field_simp
  have htext : scientificText d = (⟨[first], rest⟩ : Numeral).text ++
      'e' :: (if leadingPower d < 0 then '-' else '+') ::
        Nat.toDigits 10 (leadingPower d).natAbs := by
    unfold scientificText digitChars
    rw [hdigits]
    cases rest <;> simp [Numeral.text, exponentText, digitChars]
  rw [htext, ← hvalue]
  exact .power hformed hled _

theorem magnitudeText_writes (hl : l.wholeFraction = true) (hd : d.digits ≠ 0 ∨ d.exponent = 0) :
    WritesMagnitude (l.magnitudeText d) d.value := by
  have hpositional : WritesMagnitude (l.positionalText d) d.value := by
    rcases Int.lt_or_le d.exponent 0 with he | he
    · exact positionalText_fraction he (hd.resolve_right he.ne)
    · exact positionalText_whole hl he hd
  unfold magnitudeText
  split
  · exact hpositional
  · split
    · exact hpositional
    · rename_i hrange
      exact scientificText_writes fun hzero => hrange (.inl hzero)

end Layout

/-- Only zero has no digit but zero, and its decimal has no power of ten. -/
theorem Decimal.shortest_digits (tie : Tie) (b : Binary) :
    (shortest tie b).digits ≠ 0 ∨ (shortest tie b).exponent = 0 := by
  by_cases hm : b.mantissa = 0
  · right
    simp [shortest, hm]
  · left
    intro hzero
    have hlow := (shortest_within tie b).low
    have hpos : (0 : ℚ) < 2 ^ b.exponent := by positivity
    have hone : (1 : ℚ) ≤ b.mantissa := by exact_mod_cast Nat.pos_of_ne_zero hm
    have hshare : Reach.shareBelow b ≤ 1 / 2 := by
      unfold Reach.shareBelow
      split <;> norm_num
    have hvalue : (shortest tie b).value = 0 := by simp [value, hzero]
    rw [hvalue] at hlow
    nlinarith

theorem Binary.ofFloat?_of_isFinite {x : Float} (hx : x.isFinite = true) :
    ∃ b, ofFloat? x = some b ∧ b.negative = isNegative x := by
  cases hb : ofFloat? x with
  | none =>
    change x.toModel.unpack.isFinite = true at hx
    rcases unpack_of_none x hb with hu | hu <;> rw [hu] at hx <;> cases hx
  | some b =>
    refine ⟨b, rfl, ?_⟩
    unfold ofFloat? at hb
    split at hb
    · cases hb
    · obtain rfl := Option.some.inj hb
      rfl
    · obtain rfl := Option.some.inj hb
      rfl

theorem Layout.render_writes {l : Layout} (hl : l.wholeFraction = true) {x : Float}
    (hx : x.isFinite = true) : WritesDouble x (l.render x).toList := by
  obtain ⟨b, hb, hsign⟩ := Binary.ofFloat?_of_isFinite hx
  have hwrites := magnitudeText_writes hl (Decimal.shortest_digits l.tie b)
  have hreads := shortest_readsAs hb l.tie
  simp only [render, hb, String.toList_ofList]
  cases hs : b.negative with
  | false =>
    rw [hs] at hreads hsign
    exact .positive hsign.symm hwrites (by simpa using hreads)
  | true =>
    rw [hs] at hreads hsign
    exact .negative hsign.symm hwrites (by simpa using hreads)

end Numeric

end GameRoster
