import GameRoster.Proofs.IntFields
import GameRoster.Proofs.Numerals
import GameRoster.Resource.Slots
import Mathlib.Data.List.Perm.Subperm

namespace GameRoster.JewelSlots

/-- A slot letter with decimal digits of any script after it. -/
structure Group.WellFormed (group : Group) : Prop where
  letter : isLetter group.letter = true
  nonempty : group.digits ≠ []
  digits : ∀ c ∈ group.digits, Text.isDecimalDigit c = true

def Group.text (group : Group) : List Char := group.letter :: group.digits

/-- The number that ASCII digits write. -/
def Group.number (group : Group) : Nat := Text.digitsValue group.digits

/-- A group whose number is in ASCII digits and is a word. -/
structure Group.Fits (group : Group) : Prop where
  ascii : ∀ c ∈ group.digits, Text.isDigit c = true
  word : group.number < 2 ^ 63

/-- A text that is one group after the other. -/
structure Writes (groups : List Group) (text : List Char) : Prop where
  wellFormed : ∀ group ∈ groups, group.WellFormed
  text : groups.flatMap Group.text = text

variable {groups : List Group} {text rest : List Char}

instance (group : Group) : Decidable group.WellFormed :=
  decidable_of_iff (isLetter group.letter = true ∧ group.digits ≠ [] ∧
    group.digits.all Text.isDecimalDigit = true)
    ⟨fun h => ⟨h.1, h.2.1, List.all_eq_true.mp h.2.2⟩,
      fun h => ⟨h.letter, h.nonempty, List.all_eq_true.mpr h.digits⟩⟩

instance (group : Group) : Decidable group.Fits :=
  decidable_of_iff (group.digits.all Text.isDigit = true ∧ group.number < 2 ^ 63)
    ⟨fun h => ⟨List.all_eq_true.mp h.1, h.2⟩, fun h => ⟨List.all_eq_true.mpr h.ascii, h.word⟩⟩

instance (groups : List Group) (text : List Char) : Decidable (Writes groups text) :=
  decidable_of_iff ((∀ group ∈ groups, group.WellFormed) ∧ groups.flatMap Group.text = text)
    ⟨fun h => ⟨h.1, h.2⟩, fun h => ⟨h.wellFormed, h.text⟩⟩

theorem not_digit_of_letter {c : Char} (h : isLetter c = true) : Text.isDecimalDigit c = false := by
  simp only [isLetter, Bool.or_eq_true, beq_iff_eq] at h
  rcases h with (rfl | rfl) | rfl <;> decide

/-- What follows a group does not go on with a digit. -/
theorem takeGroup?_iff {group : Group} : takeGroup? text = some (group, rest) ↔
    group.WellFormed ∧ text = group.text ++ rest ∧
      ∀ c ∈ rest.head?, Text.isDecimalDigit c = false := by
  constructor
  · intro h
    unfold takeGroup? at h
    split at h
    · cases h
    · rename_i c tail
      dsimp only at h
      split at h
      · rename_i hgroup
        obtain ⟨rfl, rfl⟩ := Prod.mk.inj (Option.some.inj h)
        simp only [Bool.and_eq_true, Bool.not_eq_true', List.isEmpty_eq_false_iff] at hgroup
        have hsplit : tail = tail.takeWhile Text.isDecimalDigit ++
            tail.dropWhile Text.isDecimalDigit := List.takeWhile_append_dropWhile.symm
        refine ⟨⟨hgroup.1, hgroup.2, fun c hc => List.mem_takeWhile_imp hc⟩,
          congrArg (c :: ·) hsplit, fun d hd => ?_⟩
        have hhead := List.head?_dropWhile_not Text.isDecimalDigit tail
        rw [Option.mem_def.mp hd] at hhead
        exact hhead
      · cases h
  · rintro ⟨⟨hletter, hne, hdigits⟩, rfl, hrest⟩
    obtain ⟨letter, digits⟩ := group
    have hsome : digits.isEmpty = false := List.isEmpty_eq_false_iff.mpr hne
    have htext : Group.text ⟨letter, digits⟩ ++ rest = letter :: (digits ++ rest) := rfl
    simp only [htext, takeGroup?, Text.takeWhile_run hdigits hrest,
      Text.dropWhile_run hdigits hrest]
    simp [hletter, hsome]

/-- A group begins with its letter. -/
theorem Writes.head (h : Writes groups text) :
    ∀ c ∈ text.head?, Text.isDecimalDigit c = false := by
  obtain ⟨hwellFormed, rfl⟩ := h
  cases groups with
  | nil => simp
  | cons group others =>
    rintro c ⟨⟩
    exact not_digit_of_letter (hwellFormed group List.mem_cons_self).letter

theorem groups?_iff {n : Nat} : groups? n text = some groups ↔
    Writes groups text ∧ groups.length ≤ n := by
  induction n generalizing groups text with
  | zero =>
    cases text with
    | nil =>
      constructor
      · rintro ⟨⟩
        exact ⟨⟨by simp, rfl⟩, Nat.le_refl 0⟩
      · rintro ⟨-, hlength⟩
        rw [List.length_eq_zero_iff.mp (Nat.le_zero.mp hlength)]
        rfl
    | cons c tail =>
      refine iff_of_false (by simp [groups?]) ?_
      rintro ⟨⟨-, htext⟩, hlength⟩
      rw [List.length_eq_zero_iff.mp (Nat.le_zero.mp hlength)] at htext
      cases htext
  | succ n ih =>
    cases text with
    | nil =>
      constructor
      · rintro ⟨⟩
        exact ⟨⟨by simp, rfl⟩, Nat.zero_le _⟩
      · rintro ⟨⟨-, htext⟩, -⟩
        cases groups with
        | nil => rfl
        | cons group others => cases htext
    | cons c tail =>
      constructor
      · intro h
        unfold groups? at h
        split at h
        · rename_i group rest htake
          obtain ⟨others, hothers, rfl⟩ := Option.map_eq_some_iff.mp h
          obtain ⟨hgroup, htext, -⟩ := takeGroup?_iff.mp htake
          obtain ⟨⟨hwellFormed, rfl⟩, hlength⟩ := ih.mp hothers
          exact ⟨⟨List.forall_mem_cons.mpr ⟨hgroup, hwellFormed⟩, htext.symm⟩,
            Nat.succ_le_succ hlength⟩
        · cases h
      · rintro ⟨⟨hwellFormed, htext⟩, hlength⟩
        cases groups with
        | nil => cases htext
        | cons group others =>
          obtain ⟨hgroup, hothers⟩ := List.forall_mem_cons.mp hwellFormed
          have hrest : Writes others (others.flatMap Group.text) := ⟨hothers, rfl⟩
          have htake : takeGroup? (c :: tail) = some (group, others.flatMap Group.text) :=
            takeGroup?_iff.mpr ⟨hgroup, htext.symm, hrest.head⟩
          unfold groups?
          rw [htake]
          simp [ih.mpr ⟨hrest, Nat.le_of_succ_le_succ hlength⟩]

theorem read_text {loc : Location} {s : String} {slots : JewelSlots} :
    read loc (.string s) = .ok slots ↔
      ∃ groups, Writes groups s.toList ∧ groups.length ≤ 3 ∧ groups.foldl set empty = slots := by
  have hread : read loc (.string s) = .ok slots ↔ ofText? s.toList = some slots := by
    unfold read
    dsimp only
    split
    · rename_i h
      rw [h]
      simp
    · rename_i h
      rw [h]
      simp [Check.field]
  rw [hread, ofText?, Option.map_eq_some_iff]
  simp only [groups?_iff, and_assoc]

/-- The slots that a letter names. -/
def slot (slots : JewelSlots) (letter : Char) : Int :=
  if letter == 'S' then slots.special
  else if letter == 'A' then slots.attack
  else slots.defense

@[simp] theorem slot_empty (letter : Char) : empty.slot letter = 0 := by
  simp [slot, empty]

variable {slots : JewelSlots} {letter : Char}

theorem slot_set {group : Group} (hgroup : isLetter group.letter = true)
    (hletter : isLetter letter = true) :
    (slots.set group).slot letter =
      if group.letter = letter then group.count else slots.slot letter := by
  obtain ⟨written, digits⟩ := group
  simp only [isLetter, Bool.or_eq_true, beq_iff_eq] at hgroup hletter
  rcases hgroup with (rfl | rfl) | rfl <;> rcases hletter with (rfl | rfl) | rfl <;> rfl

/-- A slot that no group names stays. -/
theorem slot_foldl (hwellFormed : ∀ group ∈ groups, group.WellFormed)
    (hletter : isLetter letter = true) (hunwritten : ∀ group ∈ groups, group.letter ≠ letter) :
    (groups.foldl set slots).slot letter = slots.slot letter := by
  induction groups generalizing slots with
  | nil => rfl
  | cons group others ih =>
    obtain ⟨hgroup, hothers⟩ := List.forall_mem_cons.mp hwellFormed
    obtain ⟨hne, hunwritten⟩ := List.forall_mem_cons.mp hunwritten
    rw [List.foldl_cons, ih hothers hunwritten, slot_set hgroup.letter hletter, if_neg hne]

theorem slot_foldl_last {before after : List Group} {group : Group}
    (hwellFormed : ∀ g ∈ before ++ group :: after, g.WellFormed)
    (hlast : ∀ later ∈ after, later.letter ≠ group.letter) :
    ((before ++ group :: after).foldl set slots).slot group.letter = group.count := by
  have hgroup := (hwellFormed group (by simp)).letter
  have hafter : ∀ g ∈ after, g.WellFormed := fun g hg => hwellFormed g (by simp [hg])
  rw [List.foldl_append, List.foldl_cons, slot_foldl hafter hgroup hlast, slot_set hgroup hgroup,
    if_pos rfl]

theorem le_wordMax_iff {n : Nat} : (n : Int) ≤ Numeric.wordMax ↔ n < 2 ^ 63 := by
  unfold Numeric.wordMax
  rw [Nat.pow_eq]
  omega

theorem Group.count_fits {group : Group} (h : group.Fits) : group.count = group.number := by
  have hascii : group.digits.all Text.isDigit = true := List.all_eq_true.mpr h.ascii
  have hword : (Text.digitsValue group.digits : Int) ≤ Numeric.wordMax := le_wordMax_iff.mpr h.word
  simp [count, number, hascii, hword]

theorem Group.count_lost {group : Group} (h : ¬ group.Fits) : group.count = 0 := by
  unfold count
  dsimp only
  split
  · rename_i hfits
    rw [Bool.and_eq_true, List.all_eq_true, decide_eq_true_eq] at hfits
    exact (h ⟨hfits.1, le_wordMax_iff.mp hfits.2⟩).elim
  · rfl

/-- What slots hold of a text: the number of the last group of each letter, if it is a word in
ASCII, and zero otherwise. -/
structure Holds (slots : JewelSlots) (groups : List Group) : Prop where
  last : ∀ before group after, groups = before ++ group :: after →
    (∀ later ∈ after, later.letter ≠ group.letter) →
    (group.Fits → slots.slot group.letter = group.number) ∧
      (¬ group.Fits → slots.slot group.letter = 0)
  unwritten : ∀ letter, isLetter letter = true → letter ∉ groups.map Group.letter →
    slots.slot letter = 0

/-- Each number that is written is kept, and other slots are zero. -/
structure Keeps (slots : JewelSlots) (groups : List Group) : Prop where
  written : ∀ group ∈ groups, slots.slot group.letter = group.number
  unwritten : ∀ letter, isLetter letter = true → letter ∉ groups.map Group.letter →
    slots.slot letter = 0

theorem holds_foldl (hwellFormed : ∀ group ∈ groups, group.WellFormed) :
    (groups.foldl set empty).Holds groups := by
  constructor
  case last =>
    rintro before group after rfl hlast
    rw [slot_foldl_last hwellFormed hlast]
    exact ⟨Group.count_fits, Group.count_lost⟩
  case unwritten =>
    intro letter hletter hunwritten
    rw [slot_foldl hwellFormed hletter, slot_empty]
    rintro group hgroup rfl
    exact hunwritten (List.mem_map_of_mem hgroup)

theorem Holds.keeps (h : slots.Holds groups) (hdistinct : (groups.map Group.letter).Nodup)
    (hfits : ∀ group ∈ groups, group.Fits) : slots.Keeps groups := by
  refine ⟨fun group hgroup => ?_, h.unwritten⟩
  obtain ⟨before, after, rfl⟩ := List.append_of_mem hgroup
  refine (h.last before group after rfl fun later hlater heq => ?_).1 (hfits group hgroup)
  rw [List.map_append, List.map_cons] at hdistinct
  refine (List.nodup_cons.mp hdistinct.of_append_right).1 ?_
  exact heq ▸ List.mem_map_of_mem hlater

/-- There are three letters. -/
theorem length_le_of_distinct (hwellFormed : ∀ group ∈ groups, group.WellFormed)
    (hdistinct : (groups.map Group.letter).Nodup) : groups.length ≤ 3 := by
  have hletters : groups.map Group.letter ⊆ ['A', 'D', 'S'] := by
    intro letter hletter
    obtain ⟨group, hgroup, rfl⟩ := List.mem_map.mp hletter
    have h := (hwellFormed group hgroup).letter
    simpa [isLetter, or_assoc] using h
  simpa using (List.subperm_of_subset hdistinct hletters).length_le

theorem Keeps.bounds (h : slots.Keeps groups) (hsmall : ∀ group ∈ groups, group.number ≤ 2 ^ 53)
    (hletter : isLetter letter = true) :
    0 ≤ slots.slot letter ∧ slots.slot letter ≤ 2 ^ 53 := by
  by_cases hwritten : letter ∈ groups.map Group.letter
  · obtain ⟨group, hgroup, rfl⟩ := List.mem_map.mp hwritten
    have hnumber := hsmall group hgroup
    rw [h.written group hgroup]
    omega
  · rw [h.unwritten letter hletter hwritten]
    decide

theorem read_triple {loc : Location}
    (hspecial : 0 ≤ slots.special ∧ slots.special ≤ 2 ^ 53)
    (hattack : 0 ≤ slots.attack ∧ slots.attack ≤ 2 ^ 53)
    (hdefense : 0 ≤ slots.defense ∧ slots.defense ≤ 2 ^ 53) :
    read loc (.array [.int slots.special, .int slots.attack, .int slots.defense]) = .ok slots := by
  have hitem : ∀ (loc : Location) (n : Int), 0 ≤ n ∧ n ≤ 2 ^ 53 →
      Field.int (.atLeast 0) loc (.int n) = .ok n := by
    rintro loc n ⟨hlow, hhigh⟩
    refine Field.int_written (.atLeast (by decide)) ⟨?_, by rintro _ ⟨⟩⟩ (by omega)
    rintro _ ⟨⟩
    exact_mod_cast hlow
  have heach : loc.each (Field.int (.atLeast 0)) [.int slots.special, .int slots.attack,
      .int slots.defense] = .ok [slots.special, slots.attack, slots.defense] := by
    simp [Location.each_iff, hitem _ _ hspecial, hitem _ _ hattack, hitem _ _ hdefense]
  have hlength : (Lengths.exactly 3).check loc 3 = .ok () := rfl
  have hints : Field.ints (.atLeast 0) (.exactly 3) loc (.array [.int slots.special,
      .int slots.attack, .int slots.defense]) = .ok [slots.special, slots.attack, slots.defense] :=
    Field.numbers_ok.mpr ⟨_, _, rfl, Lengths.check_ok.mp hlength, heach, trivial, rfl⟩
  exact Check.bind_ok.mpr ⟨_, hints, rfl⟩

/-- A slot text is accepted exactly if it is at most three groups. A slot holds the number of the
last group of its letter, or zero if that is no word in ASCII. Groups of distinct letters are
accepted in any order, and if all numbers are words in ASCII they are all kept. With numbers of at
most fifty-three bits the triple of the counts is then read as the same slots. -/
theorem slots_written (loc : Location) (s : String) :
    (∀ slots, read loc (.string s) = .ok slots →
      ∃ groups, Writes groups s.toList ∧ groups.length ≤ 3) ∧
    ∀ groups, Writes groups s.toList →
      (groups.length ≤ 3 → ∃ slots, read loc (.string s) = .ok slots ∧ slots.Holds groups) ∧
      ((groups.map Group.letter).Nodup → (∀ group ∈ groups, group.Fits) →
        ∃ slots, read loc (.string s) = .ok slots ∧ slots.Keeps groups ∧
          ((∀ group ∈ groups, group.number ≤ 2 ^ 53) → read loc (.array [.int slots.special,
            .int slots.attack, .int slots.defense]) = .ok slots)) := by
  have hread : ∀ groups, Writes groups s.toList → groups.length ≤ 3 →
      ∃ slots, read loc (.string s) = .ok slots ∧ slots.Holds groups :=
    fun groups hwrites hlength =>
      ⟨_, read_text.mpr ⟨groups, hwrites, hlength, rfl⟩, holds_foldl hwrites.wellFormed⟩
  constructor
  · intro slots h
    obtain ⟨groups, hwrites, hlength, -⟩ := read_text.mp h
    exact ⟨groups, hwrites, hlength⟩
  · intro groups hwrites
    refine ⟨hread groups hwrites, fun hdistinct hfits => ?_⟩
    obtain ⟨slots, hslots, hhold⟩ :=
      hread groups hwrites (length_le_of_distinct hwrites.wellFormed hdistinct)
    have hkeep := hhold.keeps hdistinct hfits
    refine ⟨slots, hslots, hkeep, fun hsmall => ?_⟩
    have hbounds : ∀ letter, isLetter letter = true →
        0 ≤ slots.slot letter ∧ slots.slot letter ≤ 2 ^ 53 :=
      fun letter hletter => hkeep.bounds hsmall hletter
    exact read_triple (hbounds 'S' rfl) (hbounds 'A' rfl) (hbounds 'D' rfl)

/-- Each letter once, not in the order of a triple. -/
def scrambled : List Group := [⟨'D', ['3']⟩, ⟨'A', ['0', '2']⟩, ⟨'S', ['1']⟩]

theorem scrambled_kept : Writes scrambled "D3A02S1".toList ∧
    (scrambled.map Group.letter).Nodup ∧ (∀ group ∈ scrambled, group.Fits) ∧
    ∃ slots, read (.label "x") (.string "D3A02S1") = .ok slots ∧ slots.Keeps scrambled ∧
      read (.label "x") (.array [.int slots.special, .int slots.attack, .int slots.defense]) =
        .ok slots := by
  have hwrites : Writes scrambled "D3A02S1".toList := by decide +kernel
  have hdistinct : (scrambled.map Group.letter).Nodup := by decide
  have hfits : ∀ group ∈ scrambled, group.Fits := by decide +kernel
  obtain ⟨-, hgroups⟩ := slots_written (.label "x") "D3A02S1"
  obtain ⟨slots, hslots, hkeep, htriple⟩ := (hgroups scrambled hwrites).2 hdistinct hfits
  exact ⟨hwrites, hdistinct, hfits, slots, hslots, hkeep, htriple (by decide)⟩

/-- Of a letter that is written twice only the last number is left. -/
theorem count_lost_by_repeat : ¬ ∀ loc s slots groups, read loc (.string s) = .ok slots →
    Writes groups s.toList → slots.Keeps groups := by
  intro h
  have hwrites : Writes [⟨'A', ['1']⟩, ⟨'A', ['2']⟩] "A1A2".toList := by decide +kernel
  have hread : read (.label "x") (.string "A1A2") = .ok ⟨0, 2, 0⟩ :=
    read_text.mpr ⟨_, hwrites, by decide, rfl⟩
  have hkeep := h _ _ _ _ hread hwrites
  exact absurd (hkeep.written ⟨'A', ['1']⟩ List.mem_cons_self) (by decide)

end GameRoster.JewelSlots
