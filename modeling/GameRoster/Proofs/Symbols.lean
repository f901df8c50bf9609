import GameRoster.Registry
import Mathlib.Data.List.Sort
import Mathlib.Data.String.Basic

namespace GameRoster

theorem mem_insertSymbol {s text : String} {all : List String} :
    s ∈ insertSymbol text all ↔ s = text ∨ s ∈ all := by
  induction all with
  | nil => simp [insertSymbol]
  | cons first rest ih =>
    unfold insertSymbol
    split_ifs with hlt heq
    · exact List.mem_cons
    · rw [heq, List.mem_cons, ← or_assoc, or_self]
    · rw [List.mem_cons, ih, List.mem_cons, or_left_comm]

theorem insertSymbol_ascending {text : String} {all : List String}
    (h : all.Pairwise (· < ·)) : (insertSymbol text all).Pairwise (· < ·) := by
  induction all with
  | nil => exact List.pairwise_singleton _ _
  | cons first rest ih =>
    obtain ⟨hfirst, hrest⟩ := List.pairwise_cons.mp h
    unfold insertSymbol
    split_ifs with hlt heq
    · refine .cons ?_ h
      intro s hs
      rcases List.mem_cons.mp hs with rfl | hs
      · exact hlt
      · exact String.lt_trans hlt (hfirst s hs)
    · exact h
    · refine .cons ?_ (ih hrest)
      intro s hs
      rcases mem_insertSymbol.mp hs with rfl | hs
      · exact lt_of_le_of_ne (not_lt.mp hlt) (Ne.symm heq)
      · exact hfirst s hs

/-- The symbols of one id after those that are there. -/
theorem mem_insertSymbols {s : String} {texts all : List String} :
    s ∈ texts.foldl (fun all text => insertSymbol text all) all ↔ s ∈ all ∨ s ∈ texts := by
  induction texts generalizing all with
  | nil => simp
  | cons text rest ih =>
    rw [List.foldl_cons, ih, mem_insertSymbol, List.mem_cons, or_assoc, or_left_comm]

theorem insertSymbols_ascending {texts all : List String} (h : all.Pairwise (· < ·)) :
    (texts.foldl (fun all text => insertSymbol text all) all).Pairwise (· < ·) := by
  induction texts generalizing all with
  | nil => exact h
  | cons text rest ih => exact ih (insertSymbol_ascending h)

/-- Ascending symbols are decided by what they are. -/
theorem ascending_unique {a b : List String} (ha : a.Pairwise (· < ·)) (hb : b.Pairwise (· < ·))
    (h : ∀ s, s ∈ a ↔ s ∈ b) : a = b :=
  ha.eq_of_mem_iff hb h

/-- The bytes that a text is written in. -/
def utf8Bytes (s : String) : List UInt8 := s.toUTF8.data.toList

theorem utf8Bytes_eq (s : String) : utf8Bytes s = s.toList.flatMap String.utf8EncodeChar := by
  simp only [utf8Bytes, String.toUTF8_eq_toByteArray, ← String.utf8Encode_toList, List.utf8Encode,
    List.toList_data_toByteArray]

/-- The bytes of a greater character are greater, whatever follows either of them. -/
theorem utf8EncodeChar_lt {c d : Char} (h : c < d) (rest others : List UInt8) :
    String.utf8EncodeChar c ++ rest < String.utf8EncodeChar d ++ others := by
  have hlt : c.val.toNat < d.val.toNat := h
  have hmax : d.val.toNat < 0x110000 := by
    have hvalid := d.valid
    unfold UInt32.isValidChar Nat.isValidChar at hvalid
    omega
  unfold String.utf8EncodeChar
  generalize c.val.toNat = m at hlt ⊢
  generalize d.val.toNat = n at hlt hmax ⊢
  dsimp only
  split_ifs <;>
    simp (disch := omega) only [List.cons_append, List.nil_append, List.cons_lt_cons_iff,
      UInt8.lt_iff_toNat_lt, ← UInt8.toNat_inj, UInt8.toNat_ofNat', Nat.mod_eq_of_lt] <;>
    omega

theorem utf8Bytes_lt {a b : String} (h : a < b) : utf8Bytes a < utf8Bytes b := by
  rw [utf8Bytes_eq, utf8Bytes_eq]
  have hlex : List.Lex (· < ·) a.toList b.toList := h
  generalize a.toList = cs at hlex ⊢
  generalize b.toList = ds at hlex ⊢
  induction hlex with
  | @nil d ds =>
    rw [List.flatMap_nil, List.flatMap_cons]
    cases he : String.utf8EncodeChar d with
    | nil => exact absurd he String.utf8EncodeChar_ne_nil
    | cons byte bytes => exact List.nil_lt_cons _ _
  | rel hlt => exact utf8EncodeChar_lt hlt _ _
  | cons _ ih => exact List.append_left_lt ih

end GameRoster
