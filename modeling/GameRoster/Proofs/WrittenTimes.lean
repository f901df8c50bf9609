import GameRoster.Proofs.Arithmetic
import GameRoster.Proofs.Numerals
import GameRoster.Proofs.Ordering

namespace GameRoster

/-- The words for units. A range may do without, which is `bare` and means seconds. -/
inductive UnitWord
  | bare
  | s
  | m
  | min
  | h
  | hr
  | ms
  | f
deriving Repr, DecidableEq

namespace UnitWord
open Text.Numeral (Stops stops_cons)

def text : UnitWord → List Char
  | .bare => []
  | .s => ['s']
  | .m => ['m']
  | .min => ['m', 'i', 'n']
  | .h => ['h']
  | .hr => ['h', 'r']
  | .ms => ['m', 's']
  | .f => ['F']

def unit : UnitWord → TimeUnit
  | .bare => .second
  | .s => .second
  | .m => .minute
  | .min => .minute
  | .h => .hour
  | .hr => .hour
  | .ms => .millisecond
  | .f => .frame

theorem text_injective {v w : UnitWord} (h : v.text = w.text) : v = w := by
  cases v <;> cases w <;> first | rfl | exact absurd h (by decide)

theorem text_ascii (word : UnitWord) : ∀ c ∈ word.text, c.toNat < 128 := by
  cases word <;> simp [text]

/-- No word goes on with the numeral in front of it. -/
theorem stops (word : UnitWord) {rest : List Char} (h : Stops rest) :
    Stops (word.text ++ rest) := by
  cases word with
  | bare => exact h
  | _ => exact stops_cons.mpr (by decide)

theorem ofSuffix?_eq_some {suffix : List Char} {unit : TimeUnit} :
    TimeUnit.ofSuffix? suffix = some unit ↔
      ∃ word : UnitWord, word ≠ .bare ∧ word.text = suffix ∧ word.unit = unit := by
  constructor
  · intro h
    unfold TimeUnit.ofSuffix? at h
    split at h
    case h_1 => exact ⟨.f, by decide, rfl, Option.some.inj h⟩
    case h_2 => exact ⟨.ms, by decide, rfl, Option.some.inj h⟩
    case h_3 => exact ⟨.s, by decide, rfl, Option.some.inj h⟩
    case h_4 => exact ⟨.m, by decide, rfl, Option.some.inj h⟩
    case h_5 => exact ⟨.min, by decide, rfl, Option.some.inj h⟩
    case h_6 => exact ⟨.h, by decide, rfl, Option.some.inj h⟩
    case h_7 => exact ⟨.hr, by decide, rfl, Option.some.inj h⟩
    case h_8 => cases h
  · rintro ⟨word, hword, rfl, rfl⟩
    cases word with
    | bare => exact absurd rfl hword
    | _ => rfl

theorem ofSuffixOrNone?_eq_some {suffix : List Char} {unit : TimeUnit} :
    TimeUnit.ofSuffixOrNone? suffix = some unit ↔
      ∃ word : UnitWord, word.text = suffix ∧ word.unit = unit := by
  cases suffix with
  | nil =>
    constructor
    · intro h
      exact ⟨.bare, rfl, Option.some.inj h⟩
    · rintro ⟨word, htext, rfl⟩
      obtain rfl : word = .bare := text_injective htext
      rfl
  | cons c suffix =>
    refine ofSuffix?_eq_some.trans (exists_congr fun word => ?_)
    constructor
    · rintro ⟨-, h⟩
      exact h
    · rintro ⟨htext, hunit⟩
      refine ⟨?_, htext, hunit⟩
      rintro rfl
      cases htext

end UnitWord

/-- A numeral and the word of its unit. -/
@[ext] structure Amount where
  numeral : Text.Numeral
  word : UnitWord
  wellFormed : numeral.WellFormed

namespace Amount
open Text (Numeral)

def text (a : Amount) : List Char := a.numeral.text ++ a.word.text

def seconds (a : Amount) : Float := Time.scaled a.numeral a.word.unit

/-- A text is one time: its unit is said. -/
def IsTime (a : Amount) (text : List Char) : Prop := a.word ≠ .bare ∧ text = a.text

/-- A text is a range of times: one, a dash, and another. -/
def AreRange (a b : Amount) (text : List Char) : Prop := text = a.text ++ '-' :: b.text

variable {a b c d : Amount} {text rest : List Char}

theorem take?_text (a : Amount) (h : Numeral.Stops rest) :
    Numeral.take? (a.text ++ rest) = some (a.numeral, a.word.text ++ rest) := by
  rw [Amount.text, List.append_assoc]
  exact Numeral.take?_text a.wellFormed (a.word.stops h)

theorem text_injective (h : a.text = b.text) : a = b := by
  have ha := a.take?_text Numeral.stops_nil
  have hb := b.take?_text Numeral.stops_nil
  simp only [List.append_nil] at ha hb
  rw [h, hb] at ha
  obtain ⟨hnumeral, hword⟩ := Prod.mk.inj (Option.some.inj ha)
  exact Amount.ext hnumeral.symm (UnitWord.text_injective hword.symm)

section Dashes

/-- The dash of a range stands in neither of its parts. -/
theorem dash_not_mem_word (word : UnitWord) : ∀ c ∈ word.text, (c != '-') = true := by
  cases word <;> simp [UnitWord.text]

theorem stops_dash (rest : List Char) : Numeral.Stops ('-' :: rest) :=
  Numeral.stops_cons.mpr (by decide)

theorem takeWhile_dash (word : UnitWord) (rest : List Char) :
    (word.text ++ '-' :: rest).takeWhile (fun c => c != '-') = word.text :=
  Text.takeWhile_run (dash_not_mem_word word) (by rintro c ⟨⟩; rfl)

theorem dropWhile_dash (word : UnitWord) (rest : List Char) :
    (word.text ++ '-' :: rest).dropWhile (fun c => c != '-') = '-' :: rest :=
  Text.dropWhile_run (dash_not_mem_word word) (by rintro c ⟨⟩; rfl)

end Dashes

/-- A time is written in one way only. -/
theorem IsTime.unique (ha : a.IsTime text) (hb : b.IsTime text) : a = b :=
  text_injective (ha.2.symm.trans hb.2)

/-- A range is written in one way only: where its dash stands is no choice. -/
theorem AreRange.unique (h : AreRange a b text) (h' : AreRange c d text) : a = c ∧ b = d := by
  have ha := a.take?_text (stops_dash b.text)
  have hc := c.take?_text (stops_dash d.text)
  rw [← h'.symm.trans h, hc] at ha
  obtain ⟨hnumeral, hrest⟩ := Prod.mk.inj (Option.some.inj ha)
  have hword := congrArg (List.takeWhile fun c => c != '-') hrest
  have hsecond := congrArg (List.dropWhile fun c => c != '-') hrest
  simp only [takeWhile_dash, dropWhile_dash] at hword hsecond
  refine ⟨Amount.ext hnumeral.symm (UnitWord.text_injective hword.symm), ?_⟩
  exact text_injective (List.cons.inj hsecond).2.symm

theorem seconds_isNaN (a : Amount) : a.seconds.isNaN = false := Time.scaled_isNaN _ _

theorem not_lt_seconds : ¬ b.seconds < a.seconds ↔ a.seconds ≤ b.seconds :=
  Numeric.not_lt_iff_le b.seconds_isNaN a.seconds_isNaN

/-- Times are written in ASCII. -/
theorem text_ascii (a : Amount) : ∀ c ∈ a.text, c.toNat < 128 := by
  intro c hc
  rcases List.mem_append.mp hc with hc | hc
  · exact a.wellFormed.text_ascii c hc
  · exact a.word.text_ascii c hc

theorem AreRange.text_ascii (h : AreRange a b text) : ∀ c ∈ text, c.toNat < 128 := by
  obtain rfl := h
  intro c hc
  rcases List.mem_append.mp hc with hc | hc
  · exact a.text_ascii c hc
  · rcases List.mem_cons.mp hc with rfl | hc
    · decide
    · exact b.text_ascii c hc

end Amount

namespace Time
open Text (Numeral)

theorem ofText?_eq_some {text : List Char} {x : Float} :
    ofText? text = some x ↔ ∃ a : Amount, a.IsTime text ∧ x = a.seconds := by
  constructor
  · intro h
    unfold ofText? at h
    split at h
    · rename_i numeral suffix htake
      obtain ⟨wellFormed, rfl⟩ := Numeral.of_take? htake
      obtain ⟨unit, hunit, rfl⟩ := Option.map_eq_some_iff.mp h
      obtain ⟨word, hword, rfl, rfl⟩ := UnitWord.ofSuffix?_eq_some.mp hunit
      exact ⟨⟨numeral, word, wellFormed⟩, ⟨hword, rfl⟩, rfl⟩
    · cases h
  · rintro ⟨a, ⟨hword, rfl⟩, rfl⟩
    have htake := a.take?_text Numeral.stops_nil
    have hunit := UnitWord.ofSuffix?_eq_some.mpr ⟨a.word, hword, rfl, rfl⟩
    simp only [List.append_nil] at htake
    simp only [ofText?, htake, hunit, Option.map_some]
    rfl

theorem rangeOfText?_eq_some {text : List Char} {range : Float × Float} :
    rangeOfText? text = some range ↔
      ∃ a b : Amount, Amount.AreRange a b text ∧ range = (a.seconds, b.seconds) := by
  simp only [rangeOfText?, Option.bind_eq_bind, Option.bind_eq_some_iff, Option.pure_def,
    Option.some.injEq, Prod.exists]
  constructor
  · rintro ⟨first, rest, hfirst, firstUnit, hunit, after, hdash, second, suffix, hsecond,
      secondUnit, hunit', rfl⟩
    obtain ⟨wellFormed, rfl⟩ := Numeral.of_take? hfirst
    obtain ⟨wellFormed', rfl⟩ := Numeral.of_take? hsecond
    obtain ⟨word, hword, rfl⟩ := UnitWord.ofSuffixOrNone?_eq_some.mp hunit
    obtain ⟨word', rfl, rfl⟩ := UnitWord.ofSuffixOrNone?_eq_some.mp hunit'
    refine ⟨⟨first, word, wellFormed⟩, ⟨second, word', wellFormed'⟩, ?_, rfl⟩
    have hrest := rest.takeWhile_append_dropWhile (p := fun c => c != '-')
    rw [← hword, Text.eq_append_of_strip? hdash] at hrest
    simp only [Amount.AreRange, Amount.text, List.append_assoc, ← hrest]
    rfl
  · rintro ⟨a, b, rfl, rfl⟩
    have hlast := b.take?_text Numeral.stops_nil
    simp only [List.append_nil] at hlast
    refine ⟨_, _, a.take?_text (Amount.stops_dash b.text), a.word.unit, ?_, b.text, ?_, _, _,
      hlast, b.word.unit, UnitWord.ofSuffixOrNone?_eq_some.mpr ⟨b.word, rfl, rfl⟩, rfl⟩
    · rw [Amount.takeWhile_dash]
      exact UnitWord.ofSuffixOrNone?_eq_some.mpr ⟨a.word, rfl, rfl⟩
    · rw [Amount.dropWhile_dash]
      exact Text.strip?_append ['-'] b.text

end Time

/-- A check of times yields the time that was checked, whatever it warns about. -/
theorem Time.result_check (limits : TimeLimits) (raw : Value) (loc : Location) (x : Float) :
    (Time.check limits raw loc x).result = limits.toFloatLimits.check loc x >>= fun _ => .ok x := by
  unfold Time.check
  rw [Checked.result_bind]
  refine congrArg _ (funext fun _ => ?_)
  split <;> rfl

namespace Field

/-- A reader of texts as times: what it finds is written there, in one way only, and what is not
written as a time is refused. -/
structure ReadsTime (loc : Location) (text : String) (found : Check Float) : Prop where
  read : ∀ x, found = .ok x ↔ ∃ a : Amount, a.IsTime text.toList ∧ x = a.seconds
  unique : ∀ a b : Amount, a.IsTime text.toList → b.IsTime text.toList → a = b
  refused : found = .error (.field loc .readableTime) ↔ ∀ a : Amount, ¬ a.IsTime text.toList

/-- A reader of texts as ranges of times, of which the first may not be above the second. -/
structure ReadsRange (loc : Location) (text : String) (found : Check (Float × Float)) : Prop where
  read : ∀ range, found = .ok range ↔ ∃ a b : Amount, Amount.AreRange a b text.toList ∧
    a.seconds ≤ b.seconds ∧ range = (a.seconds, b.seconds)
  unique : ∀ a b c d : Amount, Amount.AreRange a b text.toList → Amount.AreRange c d text.toList →
    a = c ∧ b = d
  unordered : found = .error (.field loc .orderedRange) ↔
    ∃ a b : Amount, Amount.AreRange a b text.toList ∧ ¬ a.seconds ≤ b.seconds
  refused : found = .error (.field loc .readableTime) ↔
    ∀ a b : Amount, ¬ Amount.AreRange a b text.toList

section Unbounded

variable (quiet frames : Bool) (loc : Location) (text : String)

theorem result_time :
    (time { quiet, frames } loc (.string text)).result =
      match Time.ofText? text.toList with
      | some x => .ok x
      | none => Check.field loc .readableTime := by
  simp only [time, Checked.result_bind, Time.source]
  cases Time.ofText? text.toList with
  | none => rfl
  | some x => exact Time.result_check _ _ _ _

theorem result_timeRange :
    (timeRange { quiet, frames } loc (.string text)).result =
      match Time.rangeOfText? text.toList with
      | some (first, second) =>
        if second < first then Check.field loc .orderedRange else .ok (first, second)
      | none => Check.field loc .readableTime := by
  simp only [timeRange, timePair, Checked.result_bind]
  cases Time.rangeOfText? text.toList with
  | none => rfl
  | some range =>
    simp only [Checked.result_bind, Time.result_check]
    change (if range.2 < range.1 then _ else _ : Checked (Float × Float)).result = _
    split <;> rfl

theorem time_reads : ReadsTime loc text (time { quiet, frames } loc (.string text)).result := by
  rw [result_time]
  constructor
  case read =>
    intro x
    rw [← Time.ofText?_eq_some]
    cases Time.ofText? text.toList <;> simp [Check.field]
  case unique => exact fun a b ha hb => ha.unique hb
  case refused =>
    cases h : Time.ofText? text.toList with
    | some x =>
      obtain ⟨a, ha, -⟩ := Time.ofText?_eq_some.mp h
      simp only [reduceCtorEq, false_iff]
      exact fun hnone => hnone a ha
    | none =>
      refine iff_of_true rfl fun a ha => ?_
      rw [Time.ofText?_eq_some.mpr ⟨a, ha, rfl⟩] at h
      cases h

theorem timeRange_reads :
    ReadsRange loc text (timeRange { quiet, frames } loc (.string text)).result := by
  rw [result_timeRange]
  cases h : Time.rangeOfText? text.toList with
  | none =>
    have hnone : ∀ a b : Amount, ¬ Amount.AreRange a b text.toList := by
      intro a b hab
      rw [Time.rangeOfText?_eq_some.mpr ⟨a, b, hab, rfl⟩] at h
      cases h
    constructor
    case read => simp [hnone, Check.field]
    case unique => exact fun a b _ _ hab => absurd hab (hnone a b)
    case unordered => simp [hnone, Check.field]
    case refused => exact iff_of_true rfl hnone
  | some range =>
    obtain ⟨a, b, hab, rfl⟩ := Time.rangeOfText?_eq_some.mp h
    have hforall : ∀ P : Amount → Amount → Prop,
        (∃ c d : Amount, Amount.AreRange c d text.toList ∧ P c d) ↔ P a b := by
      intro P
      constructor
      · rintro ⟨c, d, hcd, hP⟩
        obtain ⟨rfl, rfl⟩ := hab.unique hcd
        exact hP
      · exact fun hP => ⟨a, b, hab, hP⟩
    constructor
    case unique => exact fun _ _ _ _ h h' => h.unique h'
    case read =>
      intro range
      rw [hforall, ← Amount.not_lt_seconds]
      dsimp only
      split <;> simp_all [Check.field, eq_comm]
    case unordered =>
      rw [hforall, ← Amount.not_lt_seconds, not_not]
      dsimp only
      split <;> simp_all [Check.field]
    case refused =>
      refine iff_of_false ?_ fun hnone => hnone a b hab
      dsimp only
      split <;> simp [Check.field]

/-- Without bounds, a text is read as a time exactly if it is a numeral and the word of a unit, and
as a range exactly if it is two of these with a dash between them, of which the words may be left
out. Either split is the only one, and the values are those that it says. Every other text, such as
one with digits beyond ASCII, is no time that can be read. -/
theorem texts_classified :
    ReadsTime loc text (time { quiet, frames } loc (.string text)).result ∧
    ReadsRange loc text (timeRange { quiet, frames } loc (.string text)).result ∧
    ((∃ c ∈ text.toList, 128 ≤ c.toNat) →
      (time { quiet, frames } loc (.string text)).result = .error (.field loc .readableTime) ∧
      (timeRange { quiet, frames } loc (.string text)).result =
        .error (.field loc .readableTime)) ∧
    FieldRule.readableTime.message = "invalid time" := by
  have htime := time_reads quiet frames loc text
  have hrange := timeRange_reads quiet frames loc text
  refine ⟨htime, hrange, ?_, rfl⟩
  rintro ⟨c, hc, hbeyond⟩
  constructor
  · refine htime.refused.mpr fun a ha => ?_
    rw [ha.2] at hc
    exact Nat.not_lt.mpr hbeyond (a.text_ascii c hc)
  · refine hrange.refused.mpr fun a b hab => ?_
    exact Nat.not_lt.mpr hbeyond (hab.text_ascii c hc)

end Unbounded

end Field

/-- A minute and a half, and two minutes, under two words for minutes. -/
def Amount.halfPast : Amount :=
  ⟨⟨['1'], ['5']⟩, .m, ⟨by simp, by simp [Text.isDigit], by simp [Text.isDigit]⟩⟩

def Amount.twoMinutes : Amount := ⟨⟨['2'], []⟩, .min, ⟨by simp, by simp [Text.isDigit], by simp⟩⟩

theorem Field.recess_classified :
    (timeRange {} (.label "recess") (.string "1.5m-2min")).result =
      .ok (Amount.halfPast.seconds, Amount.twoMinutes.seconds) ∧
    (∃ c ∈ "٢min".toList, 128 ≤ c.toNat) ∧
    (time {} (.label "recess") (.string "٢min")).result =
      .error (.field (.label "recess") .readableTime) := by
  obtain ⟨-, hrange, -, -⟩ := texts_classified false false (.label "recess") "1.5m-2min"
  obtain ⟨-, -, hrefused, -⟩ := texts_classified false false (.label "recess") "٢min"
  have hparts : Amount.AreRange .halfPast .twoMinutes "1.5m-2min".toList := by rfl
  have hbeyond : ∃ c ∈ "٢min".toList, 128 ≤ c.toNat := ⟨'٢', by decide +kernel, by decide⟩
  exact ⟨(hrange.read _).mpr ⟨.halfPast, .twoMinutes, hparts, by decide +kernel, rfl⟩, hbeyond,
    (hrefused hbeyond).1⟩

end GameRoster
