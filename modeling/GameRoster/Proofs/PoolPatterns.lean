import GameRoster.Proofs.Ids
import GameRoster.Proofs.Locations

namespace GameRoster

namespace Text

theorem join_cons (separator : Char) (first : List Char) (others : List (List Char)) :
    join separator (first :: others) = first ++ others.flatMap (separator :: ·) := by
  induction others generalizing first with
  | nil => exact (List.append_nil first).symm
  | cons next others ih => rw [join, ih, List.flatMap_cons, List.cons_append]

/-- There is one piece more than there are separators. -/
theorem length_split (separator : Char) (text : List Char) :
    (split separator text).length = text.count separator + 1 := by
  induction text with
  | nil => rfl
  | cons c rest ih =>
    cases hs : split separator rest with
    | nil => exact absurd hs (split_ne_nil separator rest)
    | cons piece pieces =>
      rw [hs, List.length_cons] at ih
      by_cases hc : c = separator
      · simp [split, hs, hc, ih]
      · simp [split, hs, hc, ← ih]

end Text

/-- What is decoded item by item was written item by item. -/
theorem mapM_coded {α β : Type} {decode? : α → Option β} {encode : β → α}
    (h : ∀ a b, decode? a = some b ↔ a = encode b) {items : List α} {results : List β} :
    items.mapM decode? = some results ↔ items = results.map encode := by
  induction items generalizing results with
  | nil => simp [eq_comm]
  | cons a rest ih =>
    simp only [List.mapM_cons, Option.pure_def, Option.bind_eq_bind, Option.bind_eq_some_iff, h,
      ih, Option.some.injEq]
    constructor
    · rintro ⟨b, rfl, others, rfl, rfl⟩
      rfl
    · intro heq
      cases results with
      | nil => cases heq
      | cons b others =>
        obtain ⟨rfl, rfl⟩ := List.cons.inj heq
        exact ⟨b, rfl, others, rfl, rfl⟩

namespace PoolStep

/-- What a step may be written as. -/
def IsToken (token : List Char) : Prop := token = ['A'] ∨ token = ['B'] ∨ token = ['A', 'B']

/-- A text that is an `S` with tokens behind it, each after one space. -/
structure Writes (tokens : List (List Char)) (text : String) : Prop where
  each : ∀ token ∈ tokens, IsToken token
  text : text.toList = 'S' :: tokens.flatMap (' ' :: ·)

/-- The level that a text is written for. -/
def levelOf (text : String) : Int := 3 * (1 + text.toList.count ' ')

variable {id : String} {maxLevel : Int} {text : String} {steps : List PoolStep}
  {tokens : List (List Char)}

theorem ofText?_eq_some {token : List Char} {step : PoolStep} :
    ofText? token = some step ↔ token = step.name.toList := by
  constructor
  · intro h
    unfold ofText? at h
    split at h <;> cases h <;> decide
  · rintro rfl
    cases step <;> decide

theorem isToken_iff {token : List Char} :
    IsToken token ↔ ∃ step : PoolStep, token = step.name.toList := by
  constructor
  · rintro (rfl | rfl | rfl)
    · exact ⟨.a, by decide⟩
    · exact ⟨.b, by decide⟩
    · exact ⟨.ab, by decide⟩
  · rintro ⟨step, rfl⟩
    unfold IsToken
    cases step <;> decide

theorem patternText_eq (steps : List PoolStep) :
    patternText steps = 'S' :: (steps.map fun step => step.name.toList).flatMap (' ' :: ·) :=
  Text.join_cons ' ' ['S'] _

/-- What is written are the tokens of some steps. -/
theorem writes_iff : Writes tokens text ↔
    ∃ steps : List PoolStep, tokens = steps.map (fun step => step.name.toList) ∧
      text.toList = patternText steps := by
  constructor
  · rintro ⟨htokens, htext⟩
    have hsteps : ∃ steps : List PoolStep, tokens = steps.map fun step => step.name.toList := by
      clear htext
      induction tokens with
      | nil => exact ⟨[], rfl⟩
      | cons token rest ih =>
        obtain ⟨htoken, hrest⟩ := List.forall_mem_cons.mp htokens
        obtain ⟨step, rfl⟩ := isToken_iff.mp htoken
        obtain ⟨steps, rfl⟩ := ih hrest
        exact ⟨step :: steps, rfl⟩
    obtain ⟨steps, rfl⟩ := hsteps
    exact ⟨steps, rfl, by rw [htext, patternText_eq]⟩
  · rintro ⟨steps, rfl, htext⟩
    refine ⟨fun token htoken => ?_, by rw [htext, patternText_eq]⟩
    obtain ⟨step, -, rfl⟩ := List.mem_map.mp htoken
    exact isToken_iff.mpr ⟨step, rfl⟩

/-- The pieces of a pattern are found again, as no token holds a space. -/
theorem split_eq_iff :
    Text.split ' ' text.toList = ['S'] :: steps.map (fun step => step.name.toList) ↔
      text.toList = patternText steps := by
  constructor
  · intro h
    rw [← Text.join_split ' ' text.toList, h]
    rfl
  · intro h
    rw [h]
    refine Text.split_join (List.forall_mem_cons.mpr ⟨by decide, fun piece hpiece => ?_⟩)
    obtain ⟨step, -, rfl⟩ := List.mem_map.mp hpiece
    cases step <;> decide

theorem expected_eq (text : String) :
    ((Text.split ' ' text.toList).length : Int) * plusPerPiece = levelOf text := by
  rw [Text.length_split, levelOf, plusPerPiece]
  omega

/-- The level of a pattern grows by three with each step. -/
theorem levelOf_patternText (h : text.toList = patternText steps) :
    levelOf text = 3 * (steps.length + 1) := by
  rw [← expected_eq, split_eq_iff.mpr h, List.length_cons, List.length_map, plusPerPiece]
  omega

theorem readPattern_level (h : maxLevel ≠ levelOf text) : readPattern id maxLevel text =
    .error (.field (.ofResource id "max_level") (.patternLevels (levelOf text))) := by
  unfold readPattern
  simp only [expected_eq]
  exact if_pos h

theorem readPattern_steps (h : maxLevel = levelOf text) (htext : text.toList = patternText steps) :
    readPattern id maxLevel text = .ok steps := by
  have hsteps : (steps.map fun step => step.name.toList).mapM ofText? = some steps :=
    (mapM_coded fun _ _ => ofText?_eq_some).mpr rfl
  unfold readPattern
  simp only [expected_eq]
  rw [if_neg (not_not_intro h), split_eq_iff.mpr htext]
  simp only [hsteps]

/-- A text that is written for the level but not as the pattern of any steps. -/
theorem readPattern_other (h : maxLevel = levelOf text)
    (hother : ∀ steps, text.toList ≠ patternText steps) : readPattern id maxLevel text =
      .error (.field (.ofResource id "patterns") .poolPatterns) := by
  unfold readPattern
  simp only [expected_eq]
  rw [if_neg (not_not_intro h)]
  split
  · rename_i tokens hsplit
    split
    · rename_i steps hsteps
      obtain rfl := (mapM_coded fun _ _ => ofText?_eq_some).mp hsteps
      exact absurd (split_eq_iff.mp hsplit) (hother steps)
    · rfl
  · rfl

/-- What is read of a text depends on the level first and on its pieces then. -/
theorem readPattern_cases (id : String) (maxLevel : Int) (text : String) :
    maxLevel ≠ levelOf text ∧ readPattern id maxLevel text =
      .error (.field (.ofResource id "max_level") (.patternLevels (levelOf text))) ∨
    maxLevel = levelOf text ∧
      ((∃ steps, text.toList = patternText steps ∧ readPattern id maxLevel text = .ok steps) ∨
      (∀ steps, text.toList ≠ patternText steps) ∧ readPattern id maxLevel text =
        .error (.field (.ofResource id "patterns") .poolPatterns)) := by
  by_cases h : maxLevel = levelOf text
  · refine .inr ⟨h, ?_⟩
    by_cases hsteps : ∃ steps, text.toList = patternText steps
    · obtain ⟨steps, htext⟩ := hsteps
      exact .inl ⟨steps, htext, readPattern_steps h htext⟩
    · have hother := not_exists.mp hsteps
      exact .inr ⟨hother, readPattern_other h hother⟩
  · exact .inl ⟨h, readPattern_level h⟩

theorem readPattern_ok : readPattern id maxLevel text = .ok steps ↔
    text.toList = patternText steps ∧ maxLevel = 3 * (steps.length + 1) := by
  constructor
  · intro h
    rcases readPattern_cases id maxLevel text with
      ⟨-, hread⟩ | ⟨hlevel, ⟨written, htext, hread⟩ | ⟨-, hread⟩⟩
    · rw [h] at hread
      cases hread
    · obtain rfl := Except.ok.inj (h.symm.trans hread)
      exact ⟨htext, hlevel.trans (levelOf_patternText htext)⟩
    · rw [h] at hread
      cases hread
  · rintro ⟨htext, hlevel⟩
    exact readPattern_steps (hlevel.trans (levelOf_patternText htext).symm) htext

end PoolStep

namespace AccessoryPool

/-- The pattern of a pool was read for the level of the pool. -/
theorem build_pattern (id : String) (draft : AccessoryPoolDraft) :
    Check.Yields (fun p => PoolStep.readPattern id p.maxLevel draft.patterns = .ok p.patterns)
      (build id draft) := by
  unfold build
  refine .step fun rare => .step fun maxLevel => .bind fun steps hsteps => ?_
  repeat' refine .step fun _ => ?_
  exact .pure hsteps

end AccessoryPool

namespace PoolStep

/-- What is read of a text that is meant for a level. -/
structure Decided (id : String) (maxLevel : Int) (text : String) : Prop where
  /-- Texts of tokens are accepted for the level of their number, and no others. -/
  accepted : (∃ steps, readPattern id maxLevel text = .ok steps) ↔
    ∃ tokens, Writes tokens text ∧ maxLevel = 3 * (1 + tokens.length)
  /-- The steps that are read are those whose pattern is the text. -/
  written : ∀ steps, readPattern id maxLevel text = .ok steps ↔
    text.toList = patternText steps ∧ maxLevel = 3 * (steps.length + 1)
  level : readPattern id maxLevel text =
      .error (.field (.ofResource id "max_level") (.patternLevels (levelOf text))) ↔
    maxLevel ≠ levelOf text
  stated : (Fault.field (.ofResource id "max_level") (.patternLevels (levelOf text))).message =
    "<" ++ id ++ ">.max_level: must = " ++ toString (levelOf text)
  pieces : readPattern id maxLevel text =
      .error (.field (.ofResource id "patterns") .poolPatterns) ↔
    maxLevel = levelOf text ∧ ¬ ∃ tokens, Writes tokens text

theorem readPattern_decided (id : String) (maxLevel : Int) (text : String) :
    Decided id maxLevel text := by
  have hwrites : (∃ tokens, Writes tokens text) ↔ ∃ steps, text.toList = patternText steps := by
    simp only [writes_iff]
    constructor
    · rintro ⟨_, steps, -, htext⟩
      exact ⟨steps, htext⟩
    · rintro ⟨steps, htext⟩
      exact ⟨_, steps, rfl, htext⟩
  constructor
  case accepted =>
    simp only [readPattern_ok, writes_iff]
    constructor
    · rintro ⟨steps, htext, hlevel⟩
      exact ⟨_, ⟨steps, rfl, htext⟩, by rw [hlevel, List.length_map, add_comm 1]⟩
    · rintro ⟨_, ⟨steps, rfl, htext⟩, hlevel⟩
      exact ⟨steps, htext, by rw [hlevel, List.length_map, add_comm 1]⟩
  case written => exact fun _ => readPattern_ok
  case level =>
    rcases readPattern_cases id maxLevel text with
      ⟨hlevel, hread⟩ | ⟨hlevel, ⟨steps, -, hread⟩ | ⟨-, hread⟩⟩
    · exact iff_of_true hread hlevel
    · exact iff_of_false (by simp [hread]) (not_not_intro hlevel)
    · exact iff_of_false (by simp [hread]) (not_not_intro hlevel)
  case stated =>
    have hwords : ">.max_level: must = " = ">." ++ "max_level" ++ ": " ++ "must = " := by decide
    change (Location.ofResource id "max_level").render ++ ": " ++
      ("must = " ++ toString (levelOf text)) = _
    rw [Location.ofResource_render, hwords]
    simp only [String.append_assoc]
  case pieces =>
    rw [hwrites]
    rcases readPattern_cases id maxLevel text with
      ⟨hlevel, hread⟩ | ⟨hlevel, ⟨steps, htext, hread⟩ | ⟨hother, hread⟩⟩
    · exact iff_of_false (by simp [hread, Location.ofResource]) fun h => hlevel h.1
    · exact iff_of_false (by simp [hread]) fun h => h.2 ⟨steps, htext⟩
    · exact iff_of_true hread ⟨hlevel, not_exists.mpr hother⟩

/-- A pattern is read exactly from the text of its steps and for the level of their number. Texts
for other levels are refused for the level, and texts of other pieces for the pattern. The pattern
of every pool is therefore what was written for it, and its level is that of the pattern. -/
theorem patterns_decided (id : String) :
    (∀ maxLevel text, Decided id maxLevel text) ∧
    ∀ draft p, AccessoryPool.build id draft = .ok p →
      draft.patterns.toList = patternText p.patterns ∧ p.maxLevel = 3 * (p.patterns.length + 1) :=
  ⟨readPattern_decided id, fun draft p h =>
    readPattern_ok.mp (AccessoryPool.build_pattern id draft p h)⟩

/-- A pool with a step of each sort. -/
def ring : AccessoryPoolDraft where
  rare := "Rare1"
  patterns := "S A B AB"
  maxLevel := .int 12
  aEntries := .object [("Entry.Power", .int 1)]
  bEntries := .object [("Entry.Power", .int 2)]

/-- The ring is built, its pattern is refused for another level, and so is a doubled space. -/
theorem ring_decided :
    (∃ p, AccessoryPool.build "AccessoryPool.Ring" ring = .ok p ∧
      ring.patterns.toList = patternText p.patterns ∧ p.maxLevel = 3 * (p.patterns.length + 1)) ∧
    readPattern "AccessoryPool.Ring" 9 "S A B AB" =
      .error (.field (.ofResource "AccessoryPool.Ring" "max_level") (.patternLevels 12)) ∧
    9 = levelOf "S  A" ∧ ¬ ∃ tokens, Writes tokens "S  A" := by
  obtain ⟨hdecided, hbuilt⟩ := patterns_decided "AccessoryPool.Ring"
  obtain ⟨p, hp⟩ := Check.exists_of_isOk (x := AccessoryPool.build "AccessoryPool.Ring" ring)
    (by decide +kernel)
  have hspace : readPattern "AccessoryPool.Ring" 9 "S  A" =
      .error (.field (.ofResource "AccessoryPool.Ring" "patterns") .poolPatterns) := rfl
  have htwelve : levelOf "S A B AB" = 12 := by decide
  have hlevel := (hdecided 9 "S A B AB").level
  rw [htwelve] at hlevel
  exact ⟨⟨p, hp, hbuilt ring p hp⟩, hlevel.mpr (by decide), (hdecided 9 "S  A").pieces.mp hspace⟩

end PoolStep

end GameRoster
