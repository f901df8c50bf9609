import GameRoster.Proofs.Families
import GameRoster.Proofs.Ids

namespace GameRoster

namespace Text

/-- A point before each piece is a point in front of all and one between any two. -/
theorem cons_join (separator : Char) (first : List Char) (others : List (List Char)) :
    separator :: join separator (first :: others) = (first :: others).flatMap (separator :: ·) := by
  induction others generalizing first with
  | nil => simp [join]
  | cons next others ih =>
    rw [join, List.flatMap_cons, ih]
    rfl

end Text

namespace Id

def Digit (c : Char) : Prop := '0' ≤ c ∧ c ≤ '9'

def Capital (c : Char) : Prop := 'A' ≤ c ∧ c ≤ 'Z'

def Small (c : Char) : Prop := 'a' ≤ c ∧ c ≤ 'z'

/-- One to sixty-four letters, digits, underscores and dashes. -/
structure Word (text : List Char) : Prop where
  least : 1 ≤ text.length
  greatest : text.length ≤ 64
  chars : ∀ c ∈ text, Capital c ∨ Small c ∨ Digit c ∨ c = '_' ∨ c = '-'

/-- Only the first symbol may be a hash mark, and then it is nothing else. -/
inductive FirstSymbol : List Char → Prop
  | hash : FirstSymbol ['#']
  | word {text : List Char} (h : Word text) : FirstSymbol text

inductive Symbols : List (List Char) → Prop
  | one {first : List Char} (hfirst : FirstSymbol first) : Symbols [first]
  | two {first second : List Char} (hfirst : FirstSymbol first) (hsecond : Word second) :
      Symbols [first, second]
  | three {first second third : List Char} (hfirst : FirstSymbol first) (hsecond : Word second)
      (hthird : Word third) : Symbols [first, second, third]

inductive Mark : List Char → Prop
  | one {c : Char} (hc : Digit c ∨ Capital c) : Mark [c]
  | digitFirst {c d : Char} (hc : Digit c) (hd : Digit d ∨ Capital d) : Mark [c, d]
  | capitalFirst {c d : Char} (hc : Capital c) (hd : Digit d) : Mark [c, d]

/-- A text is an id of a family with these symbols and this mark. -/
structure Derives (family : Family) (text : String) (symbols : List (List Char))
    (mark : Option (List Char)) : Prop where
  ordered : Symbols symbols
  marked : ∀ m ∈ mark, Mark m
  spelled : text.toList = family.tag.toList ++ symbols.flatMap ('.' :: ·) ++
    mark.elim [] ('^' :: ·)

section Characters

variable {c : Char}

theorem isDigit_iff : c.isDigit = true ↔ Digit c := by
  simp [Char.isDigit, Digit, Char.le_def]

theorem isUpper_iff : c.isUpper = true ↔ Capital c := by
  have hbounds : c.isUpper = decide ('A' ≤ c ∧ c ≤ 'Z') := rfl
  simp only [hbounds, decide_eq_true_eq, Capital]

theorem isLower_iff : c.isLower = true ↔ Small c := by
  have hbounds : c.isLower = (decide ('a' ≤ c) && decide (c ≤ 'z')) := rfl
  simp only [hbounds, Bool.and_eq_true, decide_eq_true_eq, Small]

theorem isSymbolChar_iff : isSymbolChar c = true ↔
    Capital c ∨ Small c ∨ Digit c ∨ c = '_' ∨ c = '-' := by
  have halpha : c.isAlpha = (c.isUpper || c.isLower) := rfl
  simp only [isSymbolChar, Char.isAlphanum, halpha, Bool.or_eq_true, beq_iff_eq, isUpper_iff,
    isLower_iff, isDigit_iff, or_assoc]

end Characters

theorem isSymbol_iff {text : List Char} : isSymbol text = true ↔ Word text := by
  simp only [isSymbol, Bool.and_eq_true, Bool.not_eq_true', List.isEmpty_eq_false_iff,
    decide_eq_true_eq, List.all_eq_true, isSymbolChar_iff, ← List.length_pos_iff]
  constructor
  · rintro ⟨⟨hleast, hgreatest⟩, hchars⟩
    exact ⟨hleast, hgreatest, hchars⟩
  · intro h
    exact ⟨⟨h.least, h.greatest⟩, h.chars⟩

theorem isMark_iff {text : List Char} : isMark text = true ↔ Mark text := by
  constructor
  · intro h
    unfold isMark at h
    split at h
    · rename_i c
      rw [Bool.or_eq_true, isDigit_iff, isUpper_iff] at h
      exact .one h
    · rename_i c d
      simp only [Bool.or_eq_true, Bool.and_eq_true, isDigit_iff, isUpper_iff] at h
      rcases h with ⟨hc, hd⟩ | ⟨hc, hd⟩
      · exact .digitFirst hc hd
      · exact .capitalFirst hc hd
    · cases h
  · intro h
    cases h with
    | one hc => simpa [isMark, isDigit_iff, isUpper_iff] using hc
    | digitFirst hc hd =>
      simp only [isMark, Bool.or_eq_true, Bool.and_eq_true, isDigit_iff, isUpper_iff]
      exact .inl ⟨hc, hd⟩
    | capitalFirst hc hd =>
      simp only [isMark, Bool.or_eq_true, Bool.and_eq_true, isDigit_iff, isUpper_iff]
      exact .inr ⟨hc, hd⟩

namespace Parts

variable {p : Parts}

/-- There are never more than two symbols after the first. -/
theorem symbols_iff : Symbols p.symbols ↔
    FirstSymbol p.first ∧ p.others.length ≤ 2 ∧ ∀ symbol ∈ p.others, Word symbol := by
  obtain ⟨first, others, mark⟩ := p
  constructor
  · intro h
    cases h with
    | one hfirst => exact ⟨hfirst, by simp, by simp⟩
    | two hfirst hsecond => exact ⟨hfirst, by simp, by simpa using hsecond⟩
    | three hfirst hsecond hthird => exact ⟨hfirst, by simp, by simpa using ⟨hsecond, hthird⟩⟩
  · rintro ⟨hfirst, hlength, hothers⟩
    match others with
    | [] => exact .one hfirst
    | [second] => exact .two hfirst (hothers second (by simp))
    | [second, third] => exact .three hfirst (hothers second (by simp)) (hothers third (by simp))
    | _ :: _ :: _ :: rest =>
      simp only [List.length_cons] at hlength
      omega

/-- Parts are valid if the grammar has them. -/
theorem isValid_iff : p.isValid = true ↔ Symbols p.symbols ∧ ∀ m ∈ p.mark, Mark m := by
  have hfirst : (p.first == ['#'] || isSymbol p.first) = true ↔ FirstSymbol p.first := by
    rw [Bool.or_eq_true, beq_iff_eq, isSymbol_iff]
    constructor
    · rintro (heq | hword)
      · exact heq ▸ .hash
      · exact .word hword
    · intro h
      generalize hs : p.first = first at h
      cases h with
      | hash => exact .inl rfl
      | word hword => exact .inr hword
  have hmark : p.mark.all isMark = true ↔ ∀ m ∈ p.mark, Mark m := by
    cases p.mark with
    | none => simp
    | some m => simpa using isMark_iff
  rw [symbols_iff]
  simp only [isValid, Bool.and_eq_true, hfirst, hmark, decide_eq_true_eq, List.all_eq_true,
    isSymbol_iff, and_assoc]

theorem text_eq : p.text = p.symbols.flatMap ('.' :: ·) ++ p.mark.elim [] ('^' :: ·) := by
  obtain ⟨first, others, mark⟩ := p
  have hsymbols := Text.cons_join '.' first others
  cases mark with
  | none => simpa [Parts.text, symbols] using hsymbols
  | some mark => simpa [Parts.text, symbols] using congrArg (· ++ '^' :: mark) hsymbols

end Parts

/-- What the grammar derives is spelled by parts that can be read. -/
theorem derives_iff {family : Family} {text : String} {symbols : List (List Char)}
    {mark : Option (List Char)} :
    Derives family text symbols mark ↔
      ∃ p, parts? family text = .ok p ∧ p.symbols = symbols ∧ p.mark = mark := by
  constructor
  · intro h
    obtain ⟨first, others, rfl⟩ : ∃ first others, symbols = first :: others := by
      cases h.ordered <;> exact ⟨_, _, rfl⟩
    refine ⟨⟨first, others, mark⟩, parts?_ok.mpr ⟨?_, ?_⟩, rfl, rfl⟩
    · exact Parts.isValid_iff.mpr ⟨h.ordered, h.marked⟩
    · rw [Parts.text_eq, ← List.append_assoc]
      exact h.spelled
  · rintro ⟨p, hp, rfl, rfl⟩
    obtain ⟨hvalid, htext⟩ := parts?_ok.mp hp
    obtain ⟨hsymbols, hmark⟩ := Parts.isValid_iff.mp hvalid
    rw [Parts.text_eq, ← List.append_assoc] at htext
    exact ⟨hsymbols, hmark, htext⟩

/-- The text of an id determines everything about it. -/
theorem Derives.unique {f g : Family} {text : String} {symbols others : List (List Char)}
    {mark other : Option (List Char)} (hf : Derives f text symbols mark)
    (hg : Derives g text others other) : f = g ∧ symbols = others ∧ mark = other := by
  obtain ⟨p, hp, rfl, rfl⟩ := derives_iff.mp hf
  obtain ⟨q, hq, rfl, rfl⟩ := derives_iff.mp hg
  obtain rfl := family_unique hp hq
  obtain rfl := Except.ok.inj (hp.symm.trans hq)
  exact ⟨rfl, rfl, rfl⟩

theorem strip?_eq_none {front text : List Char} :
    Text.strip? front text = none ↔ ¬ front <+: text := by
  constructor
  · rintro h ⟨rest, rfl⟩
    rw [Text.strip?_append] at h
    cases h
  · intro h
    cases hs : Text.strip? front text with
    | none => rfl
    | some rest => exact absurd ⟨rest, (Text.eq_append_of_strip? hs).symm⟩ h

/-- The tag is looked at first. -/
theorem parts?_tag {family : Family} {text : String} :
    parts? family text = .error .tag ↔ ¬ family.tag.toList <+: text.toList := by
  rw [← strip?_eq_none]
  unfold parts?
  split
  · rename_i hstrip
    simp [hstrip]
  · rename_i hstrip
    split <;> simp [hstrip]

theorem symbols?_error {family : Family} {text : String} {violation : Violation} :
    symbols? family text = .error violation ↔ parts? family text = .error violation := by
  unfold symbols?
  cases parts? family text <;> simp [Except.map]

theorem symbols?_derives {family : Family} {text : String} {found : List String} :
    symbols? family text = .ok found ↔
      ∃ symbols mark, Derives family text symbols mark ∧ symbols.map String.ofList = found := by
  rw [symbols?_ok]
  constructor
  · rintro ⟨p, hp, rfl⟩
    exact ⟨p.symbols, p.mark, derives_iff.mpr ⟨p, parts?_ok.mpr hp, rfl, rfl⟩, rfl⟩
  · rintro ⟨symbols, mark, h, rfl⟩
    obtain ⟨p, hp, rfl, rfl⟩ := derives_iff.mp h
    exact ⟨p, parts?_ok.mp hp, rfl⟩

/-- A text that opens with the tag is refused for its pattern if the grammar does not derive it. -/
theorem symbols?_pattern {family : Family} {text : String} :
    symbols? family text = .error .pattern ↔
      family.tag.toList <+: text.toList ∧ ∀ symbols mark, ¬ Derives family text symbols mark := by
  have htag : symbols? family text = .error .tag ↔ ¬ family.tag.toList <+: text.toList :=
    symbols?_error.trans parts?_tag
  rw [← not_not (a := family.tag.toList <+: text.toList), ← htag]
  have hderives : (∀ symbols mark, ¬ Derives family text symbols mark) ↔
      ∀ found, symbols? family text ≠ .ok found := by
    constructor
    · intro h found hfound
      obtain ⟨symbols, mark, hd, _⟩ := symbols?_derives.mp hfound
      exact h symbols mark hd
    · intro h symbols mark hd
      exact h _ (symbols?_derives.mpr ⟨symbols, mark, hd, rfl⟩)
  rw [hderives]
  cases symbols? family text with
  | ok found => simp
  | error violation => cases violation <;> simp

/-- Reading an id finds the symbols that the grammar derives it from, and there is no other way to
derive it, in this family or another one. What is not derived is refused for its tag, and for its
pattern if it opens with the tag. -/
theorem symbols_determined (family : Family) (text : String) :
    (∀ found, symbols? family text = .ok found ↔
      ∃ symbols mark, Derives family text symbols mark ∧ symbols.map String.ofList = found) ∧
    (∀ symbols mark, Derives family text symbols mark →
      ∀ other symbols' mark', Derives other text symbols' mark' →
        family = other ∧ symbols = symbols' ∧ mark = mark') ∧
    (symbols? family text = .error .tag ↔ ¬ family.tag.toList <+: text.toList) ∧
    (symbols? family text = .error .pattern ↔
      family.tag.toList <+: text.toList ∧ ∀ symbols mark, ¬ Derives family text symbols mark) := by
  refine ⟨fun found => symbols?_derives, ?_, symbols?_error.trans parts?_tag, symbols?_pattern⟩
  intro symbols mark h other symbols' mark' h'
  exact h.unique h'

/-- An id whose tag begins with the tag of another family. -/
def ring : String := "AccessoryPool.#.Ring-1^1A"

theorem ring_determined :
    Derives .accessoryPool ring [['#'], "Ring-1".toList] (some ['1', 'A']) ∧
      symbols? .accessoryPool ring = .ok ["#", "Ring-1"] ∧
      Family.accessory.tag.toList <+: ring.toList ∧
      symbols? .accessory ring = .error .pattern := by
  have h : Derives .accessoryPool ring [['#'], "Ring-1".toList] (some ['1', 'A']) :=
    derives_iff.mpr ⟨⟨['#'], ["Ring-1".toList], some ['1', 'A']⟩, by decide +kernel, rfl, rfl⟩
  have htag : Family.accessory.tag.toList <+: ring.toList := by decide +kernel
  obtain ⟨hfound, hunique, -⟩ := symbols_determined .accessoryPool ring
  obtain ⟨-, -, -, hpattern⟩ := symbols_determined .accessory ring
  refine ⟨h, (hfound _).mpr ⟨_, _, h, by decide +kernel⟩, htag, hpattern.mpr ⟨htag, ?_⟩⟩
  intro symbols mark h'
  have heq := (hunique _ _ h _ _ _ h').1
  cases heq

end Id

end GameRoster
