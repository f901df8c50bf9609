
namespace GameRoster.Text

/-- The rest of a text that starts with `front`. -/
def strip? : List Char → List Char → Option (List Char)
  | [], text => some text
  | c :: front, d :: text => if c == d then strip? front text else none
  | _ :: _, [] => none

/-- The pieces between separators: one more than there are separators. -/
def split (separator : Char) : List Char → List (List Char)
  | [] => [[]]
  | c :: rest =>
    match split separator rest with
    | piece :: pieces =>
      if c == separator then [] :: piece :: pieces else (c :: piece) :: pieces
    | [] => [[c]]

/-- Pieces with a separator between any two. -/
def join (separator : Char) : List (List Char) → List Char
  | [] => []
  | [piece] => piece
  | piece :: next :: rest => piece ++ separator :: join separator (next :: rest)

theorem strip?_append (front text : List Char) : strip? front (front ++ text) = some text := by
  induction front with
  | nil => rfl
  | cons c front ih => simpa [strip?] using ih

theorem eq_append_of_strip? {front text rest : List Char} (h : strip? front text = some rest) :
    text = front ++ rest := by
  fun_induction strip? front text with
  | case1 => simpa using h
  | case2 c front d text hc ih => simp [ih h, eq_of_beq hc]
  | case3 => simp at h
  | case4 => simp at h

theorem split_ne_nil (separator : Char) (text : List Char) : split separator text ≠ [] := by
  fun_cases split separator text with
  | case1 => simp
  | case2 => simp_all
  | case3 => simp_all
  | case4 => simp

/-- Splitting loses nothing. -/
theorem join_split (separator : Char) (text : List Char) :
    join separator (split separator text) = text := by
  induction text with
  | nil => rfl
  | cons c rest ih =>
    rw [split]
    split
    · rename_i piece pieces hs
      rw [hs] at ih
      split
      · rename_i hc
        simp [join, ih, eq_of_beq hc]
      · cases pieces with
        | nil => simpa [join] using ih
        | cons next pieces => simpa [join] using ih
    · rename_i hs
      exact absurd hs (split_ne_nil separator rest)

end GameRoster.Text
