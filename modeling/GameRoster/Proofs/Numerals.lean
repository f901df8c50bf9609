import GameRoster.Text.Numeral
import Mathlib.Data.List.TakeWhile

namespace GameRoster.Text

section Runs

variable {α : Type} {p : α → Bool} {front rest : List α}

/-- A run ends where the next item is none of it. -/
theorem takeWhile_run (hfront : ∀ a ∈ front, p a = true) (hrest : ∀ a ∈ rest.head?, p a = false) :
    (front ++ rest).takeWhile p = front := by
  rw [List.takeWhile_append_of_pos hfront]
  cases rest with
  | nil => simp
  | cons a rest => simp [hrest a rfl]

theorem dropWhile_run (hfront : ∀ a ∈ front, p a = true) (hrest : ∀ a ∈ rest.head?, p a = false) :
    (front ++ rest).dropWhile p = rest := by
  rw [List.dropWhile_append_of_pos hfront]
  cases rest with
  | nil => rfl
  | cons a rest => simp [hrest a rfl]

end Runs

namespace Numeral

/-- A run of digits, and perhaps another one behind a point. -/
structure WellFormed (n : Numeral) : Prop where
  nonempty : n.whole ≠ []
  whole : ∀ c ∈ n.whole, isDigit c = true
  fraction : ∀ c ∈ n.fraction, isDigit c = true

/-- A text that goes on with neither a digit nor a point is not more of a numeral. -/
def Stops (rest : List Char) : Prop := ∀ c ∈ rest.head?, isDigit c = false ∧ c ≠ '.'

theorem stops_nil : Stops [] := nofun

theorem stops_cons {c : Char} {rest : List Char} :
    Stops (c :: rest) ↔ isDigit c = false ∧ c ≠ '.' := by
  simp [Stops]

theorem WellFormed.text_chars {n : Numeral} (h : n.WellFormed) :
    ∀ c ∈ n.text, isDigit c = true ∨ c = '.' := by
  intro c hc
  unfold text at hc
  split at hc
  · exact .inl (h.whole c hc)
  · rcases List.mem_append.mp hc with hc | hc
    · exact .inl (h.whole c hc)
    · rcases List.mem_cons.mp hc with hc | hc
      · exact .inr hc
      · exact .inl (h.fraction c hc)

/-- Numerals are written in ASCII. -/
theorem WellFormed.text_ascii {n : Numeral} (h : n.WellFormed) : ∀ c ∈ n.text, c.toNat < 128 := by
  intro c hc
  rcases h.text_chars c hc with hc | rfl
  · simp only [isDigit, Char.isDigit, Bool.and_eq_true, decide_eq_true_eq,
      UInt32.le_iff_toNat_le] at hc
    exact Nat.lt_of_le_of_lt hc.2 (by decide)
  · decide

/-- A numeral is read back, and what follows it is left. -/
theorem take?_text {n : Numeral} (h : n.WellFormed) {rest : List Char} (hrest : Stops rest) :
    take? (n.text ++ rest) = some (n, rest) := by
  obtain ⟨whole, fraction⟩ := n
  have hend : ∀ c ∈ rest.head?, isDigit c = false := fun c hc => (hrest c hc).1
  have hne : whole.isEmpty = false := List.isEmpty_eq_false_iff.mpr h.nonempty
  cases fraction with
  | nil =>
    simp only [text, List.isEmpty_nil, if_true, take?, takeWhile_run h.whole hend,
      dropWhile_run h.whole hend, hne, Bool.false_eq_true, if_false]
    split
    · rename_i after
      exact absurd rfl (hrest '.' rfl).2
    · rfl
  | cons c fraction =>
    have hpoint : ∀ d ∈ ('.' :: (c :: fraction ++ rest)).head?, isDigit d = false := by
      rintro d ⟨⟩
      rfl
    have htext : text ⟨whole, c :: fraction⟩ ++ rest = whole ++ '.' :: (c :: fraction ++ rest) :=
      List.append_assoc ..
    rw [htext, take?]
    simp only [takeWhile_run h.whole hpoint, dropWhile_run h.whole hpoint, hne,
      takeWhile_run h.fraction hend, dropWhile_run h.fraction hend, Bool.false_eq_true, if_false,
      List.isEmpty_cons]

/-- What is read is a numeral and what is left of the text. -/
theorem of_take? {text rest : List Char} {n : Numeral} (h : take? text = some (n, rest)) :
    n.WellFormed ∧ text = n.text ++ rest := by
  have hsplit := text.takeWhile_append_dropWhile (p := isDigit)
  have hdigits : ∀ {l : List Char}, ∀ c ∈ l.takeWhile isDigit, isDigit c = true :=
    fun c hc => List.mem_takeWhile_imp hc
  unfold take? at h
  dsimp only at h
  split at h
  · cases h
  · rename_i hne
    have hne : text.takeWhile isDigit ≠ [] := by simpa using hne
    split at h
    · rename_i after hdrop
      have hafter := after.takeWhile_append_dropWhile (p := isDigit)
      rw [hdrop] at hsplit
      split at h
      · obtain ⟨rfl, rfl⟩ := Prod.mk.inj (Option.some.inj h)
        exact ⟨⟨hne, hdigits, by simp⟩, hsplit.symm⟩
      · rename_i hfraction
        obtain ⟨rfl, rfl⟩ := Prod.mk.inj (Option.some.inj h)
        refine ⟨⟨hne, hdigits, hdigits⟩, ?_⟩
        simp only [Numeral.text, if_neg hfraction, List.append_assoc, List.cons_append, hafter]
        exact hsplit.symm
    · obtain ⟨rfl, rfl⟩ := Prod.mk.inj (Option.some.inj h)
      exact ⟨⟨hne, hdigits, by simp⟩, hsplit.symm⟩

end Numeral

end GameRoster.Text
