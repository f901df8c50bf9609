import GameRoster.Ref
import Mathlib.Data.List.TakeWhile

namespace GameRoster

namespace Text

theorem split_append_cons {separator : Char} {piece : List Char} (h : separator ∉ piece)
    (rest : List Char) :
    split separator (piece ++ separator :: rest) = piece :: split separator rest := by
  induction piece with
  | nil =>
    rw [List.nil_append, split]
    cases hs : split separator rest with
    | nil => exact absurd hs (split_ne_nil separator rest)
    | cons next pieces => simp
  | cons c piece ih =>
    obtain ⟨hc, hpiece⟩ := not_or.mp (mt List.mem_cons.mpr h)
    rw [List.cons_append, split, ih hpiece]
    simp [Ne.symm hc]

theorem split_of_not_mem {separator : Char} {piece : List Char} (h : separator ∉ piece) :
    split separator piece = [piece] := by
  induction piece with
  | nil => rfl
  | cons c piece ih =>
    obtain ⟨hc, hpiece⟩ := not_or.mp (mt List.mem_cons.mpr h)
    rw [split, ih hpiece]
    simp [Ne.symm hc]

/-- Pieces without separators in them are found again. -/
theorem split_join {separator : Char} {first : List Char} {others : List (List Char)}
    (h : ∀ piece ∈ first :: others, separator ∉ piece) :
    split separator (join separator (first :: others)) = first :: others := by
  induction others generalizing first with
  | nil => exact split_of_not_mem (h first List.mem_cons_self)
  | cons next others ih =>
    obtain ⟨hfirst, hothers⟩ := List.forall_mem_cons.mp h
    rw [join, split_append_cons hfirst, ih hothers]

theorem mem_join {separator c : Char} {pieces : List (List Char)} (h : c ∈ join separator pieces) :
    c = separator ∨ ∃ piece ∈ pieces, c ∈ piece := by
  fun_induction join separator pieces with
  | case1 => cases h
  | case2 piece => exact .inr ⟨piece, List.mem_cons_self, h⟩
  | case3 piece next rest ih =>
    rcases List.mem_append.mp h with h | h
    · exact .inr ⟨piece, List.mem_cons_self, h⟩
    · rcases List.mem_cons.mp h with h | h
      · exact .inl h
      · obtain heq | ⟨found, hf, hc⟩ := ih h
        · exact .inl heq
        · exact .inr ⟨found, List.mem_cons_of_mem _ hf, hc⟩

end Text

namespace Id
open Text

theorem not_mem_symbol {c : Char} (hc : isSymbolChar c = false) {text : List Char}
    (h : isSymbol text = true) : c ∉ text := by
  intro hm
  simp only [isSymbol, Bool.and_eq_true, List.all_eq_true] at h
  rw [h.2 c hm] at hc
  cases hc

namespace Parts

variable {p : Parts}

/-- Neither a point nor a caret can stand inside a symbol. -/
theorem not_mem_symbols {c : Char} (hc : isSymbolChar c = false) (hhash : c ≠ '#')
    (h : p.isValid = true) : ∀ symbol ∈ p.symbols, c ∉ symbol := by
  simp only [isValid, Bool.and_eq_true, Bool.or_eq_true, beq_iff_eq, List.all_eq_true] at h
  obtain ⟨⟨⟨hfirst, _⟩, hothers⟩, _⟩ := h
  refine List.forall_mem_cons.mpr ⟨?_, fun symbol hs => not_mem_symbol hc (hothers symbol hs)⟩
  rcases hfirst with hfirst | hfirst
  · rw [hfirst]
    exact fun hm => hhash (List.mem_singleton.mp hm)
  · exact not_mem_symbol hc hfirst

/-- Valid parts are read back from their text. -/
theorem read?_text (h : p.isValid = true) : read? p.text = some p := by
  have hpoint := p.not_mem_symbols (c := '.') rfl (by decide) h
  have hcaret : ∀ c ∈ join '.' p.symbols, (c != '^') = true := by
    intro c hc
    have hne : c ≠ '^' := by
      rintro rfl
      rcases mem_join hc with heq | ⟨symbol, hs, hm⟩
      · cases heq
      · exact p.not_mem_symbols (c := '^') rfl (by decide) h symbol hs hm
    simpa using hne
  have hsplit : split? p.text = some p := by
    obtain ⟨first, others, mark⟩ := p
    have hpieces := split_join hpoint
    cases mark with
    | none =>
      simp only [text, split?, List.append_nil, List.takeWhile_eq_self_iff.mpr hcaret,
        List.dropWhile_eq_nil_iff.mpr hcaret]
      simp only [symbols, hpieces]
    | some mark =>
      simp only [text, split?, List.cons_append, List.takeWhile_append_of_pos hcaret,
        List.dropWhile_append_of_pos hcaret]
      simp only [bne_self_eq_false, Bool.false_eq_true, not_false_eq_true,
        List.takeWhile_cons_of_neg, List.dropWhile_cons_of_neg, List.append_nil]
      simp only [symbols, hpieces]
  rw [read?, hsplit]
  exact if_pos h

theorem text_of_split? {text : List Char} (h : split? text = some p) : p.text = text := by
  unfold split? at h
  split at h
  · rename_i rest
    dsimp only at h
    have hjoin := join_split '.' (rest.takeWhile fun c => c != '^')
    have hrest := rest.takeWhile_append_dropWhile (p := fun c => c != '^')
    split at h
    · rename_i first others hpieces
      obtain rfl := Option.some.inj h
      rw [hpieces] at hjoin
      simp only [Parts.text, symbols, hjoin, List.cons_append]
      cases hdrop : rest.dropWhile fun c => c != '^' with
      | nil =>
        rw [hdrop] at hrest
        exact congrArg _ hrest
      | cons c mark =>
        have hne : rest.dropWhile (fun c => c != '^') ≠ [] := by simp [hdrop]
        have hc := List.head_dropWhile_not (fun c => c != '^') hne
        simp only [hdrop, List.head_cons, bne_eq_false_iff_eq] at hc
        rw [hdrop, hc] at hrest
        exact congrArg _ hrest
    · cases h
  · cases h

end Parts

/-- A text is the tag of a family and what valid parts say after it. -/
def Spells (family : Family) (text : String) (p : Parts) : Prop :=
  p.isValid = true ∧ text.toList = family.tag.toList ++ p.text

theorem parts?_ok {family : Family} {text : String} {p : Parts} :
    parts? family text = .ok p ↔ Spells family text p := by
  unfold parts?
  constructor
  · intro h
    split at h
    · cases h
    · rename_i rest hstrip
      split at h
      · cases h
      · rename_i parts hread
        obtain rfl := Except.ok.inj h
        obtain ⟨split, hsplit, hvalid⟩ := Option.bind_eq_some_iff.mp hread
        obtain ⟨hv, hp⟩ := Option.ite_none_right_eq_some.mp hvalid
        obtain rfl := Option.some.inj hp
        exact ⟨hv, by rw [eq_append_of_strip? hstrip, Parts.text_of_split? hsplit]⟩
  · rintro ⟨hv, htext⟩
    simp only [htext, strip?_append, Parts.read?_text hv]

/-- The parts of an id are the only ones that spell it. -/
theorem Spells.unique {family : Family} {text : String} {p q : Parts} (hp : Spells family text p)
    (hq : Spells family text q) : p = q :=
  Except.ok.inj ((parts?_ok.mpr hp).symm.trans (parts?_ok.mpr hq))

/-- The symbols of an id as texts. -/
def Parts.symbolTexts (p : Parts) : List String := p.symbols.map String.ofList

theorem symbols?_ok {family : Family} {text : String} {symbols : List String} :
    symbols? family text = .ok symbols ↔ ∃ p, Spells family text p ∧ p.symbolTexts = symbols := by
  simp only [← parts?_ok, symbols?, Parts.symbolTexts]
  cases parts? family text <;> simp [Except.map]

end Id

theorem Ref.spells {family : Id.Family} (ref : Ref family) :
    ∃ p, Id.Spells family ref.text p := by
  obtain ⟨parts, h⟩ := ref.wellFormed
  exact ⟨parts, Id.parts?_ok.mp h⟩

end GameRoster
