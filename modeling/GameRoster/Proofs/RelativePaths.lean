import GameRoster.Proofs.CanonicalPaths
import GameRoster.Proofs.Checks
import Mathlib.Data.List.Induction

namespace GameRoster

namespace Path
open Text

variable {path raw : List Char}

/-- A path from a drive. -/
def OnDrive (path : List Char) : Prop := ∃ c rest, c.isAlpha = true ∧ path = c :: ':' :: rest

theorem OnDrive.isAbsolute (h : OnDrive path) : isAbsolute path = true := by
  obtain ⟨c, rest, hc, rfl⟩ := h
  simp [Path.isAbsolute, hc]

theorem OnDrive.append (h : OnDrive path) (rest : List Char) : OnDrive (path ++ rest) := by
  obtain ⟨c, others, hc, rfl⟩ := h
  exact ⟨c, others ++ rest, hc, rfl⟩

theorem isAbsolute_iff :
    isAbsolute path = true ↔ (∃ c, path.head? = some c ∧ isSlash c = true) ∨ OnDrive path := by
  constructor
  · intro h
    cases path with
    | nil => cases h
    | cons c rest =>
      simp only [isAbsolute, Bool.or_eq_true, Bool.and_eq_true, beq_iff_eq] at h
      rcases h with hslash | ⟨hletter, hcolon⟩
      · exact .inl ⟨c, rfl, hslash⟩
      · obtain ⟨others, rfl⟩ := List.head?_eq_some_iff.mp hcolon
        exact .inr ⟨c, others, hletter, rfl⟩
  · rintro (⟨c, hhead, hslash⟩ | hdrive)
    · obtain ⟨rest, rfl⟩ := List.head?_eq_some_iff.mp hhead
      simp [isAbsolute, hslash]
    · exact hdrive.isAbsolute

section Bottom

variable {absolute : Bool} {above parents : List (List Char)} {bottom segment : List Char}

/-- What is at the bottom of a stack was put there when the stack was empty, or was there before. -/
theorem push_bottom (h : push absolute parents segment = above ++ [bottom]) :
    (parents = [] ∧ segment = bottom) ∨ ∃ above, parents = above ++ [bottom] := by
  rcases push_cases absolute parents segment with hkept | htaken | ⟨top, hundone⟩
  · exact .inr ⟨above, hkept.symm.trans h⟩
  · rw [htaken] at h
    cases above with
    | nil =>
      obtain ⟨rfl, rfl⟩ := List.cons.inj h
      exact .inl ⟨rfl, rfl⟩
    | cons top above => exact .inr ⟨above, (List.cons.inj h).2⟩
  · rw [h] at hundone
    exact .inr ⟨top :: above, hundone⟩

/-- What stands before the segment that stays at the bottom leads nowhere. -/
theorem follow_bottom {segments : List (List Char)}
    (h : segments.foldl (push absolute) [] = above ++ [bottom]) :
    ∃ before after, segments = before ++ bottom :: after ∧
      before.foldl (push absolute) [] = [] := by
  induction segments using List.reverseRecOn generalizing above with
  | nil => simp at h
  | append_singleton segments last ih =>
    rw [List.foldl_append] at h
    rcases push_bottom h with ⟨hempty, rfl⟩ | ⟨above, hbefore⟩
    · exact ⟨segments, [], rfl, hempty⟩
    · obtain ⟨before, after, rfl, hnowhere⟩ := ih hbefore
      exact ⟨before, after ++ [last], by simp, hnowhere⟩

end Bottom

/-- A path of which a beginning leads nowhere, and the rest leads somewhere on the drive that it
starts from. -/
def HidesDrive (path : List Char) : Prop :=
  ∃ lead rest, unifySlashes path = lead ++ '/' :: rest ∧ normalize lead = ['.'] ∧
    OnDrive rest ∧ OnDrive (normalize rest)

theorem rooted_cons (c : Char) (rest : List Char) : rooted (c :: rest) = isSlash c := by
  change (some (if c == '\\' then '/' else c) == some '/') = (c == '/' || c == '\\')
  by_cases hc : c = '\\'
  · simp [hc]
  · simp [hc]

theorem rooted_of_relative (h : isAbsolute path = false) : rooted path = false := by
  cases path with
  | nil => rfl
  | cons c rest =>
    rw [rooted_cons]
    exact (Bool.or_eq_false_iff.mp h).1

theorem OnDrive.not_rooted (h : OnDrive path) : rooted path = false := by
  obtain ⟨c, rest, hletter, rfl⟩ := h
  rw [rooted_cons, Bool.eq_false_iff]
  intro hslash
  rcases isSlash_iff.mp hslash with rfl | rfl <;> cases hletter

/-- A text that starts with a drive does so in its first piece. -/
theorem OnDrive.first {first : List Char} {others : List (List Char)}
    (h : OnDrive (join '/' (first :: others))) : OnDrive first := by
  obtain ⟨c, rest, hletter, hjoin⟩ := h
  cases others with
  | nil => exact ⟨c, rest, hletter, hjoin⟩
  | cons next others =>
    cases first with
    | nil =>
      obtain ⟨rfl, -⟩ := List.cons.inj hjoin
      cases hletter
    | cons d first =>
      obtain ⟨rfl, htail⟩ := List.cons.inj hjoin
      cases first with
      | nil => exact absurd (List.cons.inj htail).1 (by decide)
      | cons e first =>
        obtain ⟨rfl, -⟩ := List.cons.inj htail
        exact ⟨d, first, hletter, rfl⟩

theorem OnDrive.isName (h : OnDrive path) : IsName path := by
  obtain ⟨c, rest, hletter, rfl⟩ := h
  refine ⟨nofun, nofun, fun hup => ?_⟩
  cases hup

theorem OnDrive.join (h : OnDrive path) (others : List (List Char)) :
    OnDrive (Text.join '/' (path :: others)) := by
  cases others with
  | nil => exact h
  | cons next others => exact h.append _

theorem OnDrive.of_unifySlashes (h : OnDrive (unifySlashes path)) : OnDrive path := by
  obtain ⟨c, rest, hletter, hunified⟩ := h
  obtain ⟨d, others, rfl, hc, hothers⟩ := List.map_eq_cons_iff.mp hunified
  obtain ⟨e, others, rfl, hcolon, -⟩ := List.map_eq_cons_iff.mp hothers
  split at hc
  · subst hc
    cases hletter
  · split at hcolon
    · cases hcolon
    · exact ⟨d, others, hc ▸ hletter, hcolon ▸ rfl⟩

theorem rooted_unifySlashes (path : List Char) : rooted (unifySlashes path) = rooted path := by
  rw [rooted, unifySlashes_of_plain (unifySlashes_plain path)]
  rfl

theorem normalize_here_iff (hplain : '\\' ∉ path) (hroot : rooted path = false) :
    normalize path = ['.'] ↔ stack false path = [] := by
  constructor
  · intro h
    have hstack := stack_normalize path
    rw [h, hroot, unifySlashes_of_plain hplain] at hstack
    exact hstack.symm
  · intro h
    rw [normalize_eq, hroot, unifySlashes_of_plain hplain, h]
    rfl

section Behind

variable {lead rest : List Char} (hroot : rooted raw = false)
  (hunified : unifySlashes raw = lead ++ '/' :: rest)

include hroot hunified

/-- The beginning of a path without a root has no root, and leads nowhere if it leaves nothing to
follow. -/
theorem lead_here_iff : normalize lead = ['.'] ↔ stack false lead = [] := by
  have hplain : '\\' ∉ lead := by
    intro hm
    exact unifySlashes_plain raw (hunified ▸ List.mem_append_left _ hm)
  refine normalize_here_iff hplain ?_
  by_cases hne : lead = []
  · rw [hne]
    rfl
  · rw [← rooted_append hne, ← hunified, rooted_unifySlashes, hroot]

/-- Behind a beginning that leads nowhere, a path leads where its rest does. -/
theorem normalize_nowhere (hlead : normalize lead = ['.']) (hrest : rooted rest = false) :
    normalize raw = normalize rest := by
  have hplain : '\\' ∉ rest := by
    intro hm
    have hmem := List.mem_append_right lead (List.mem_cons_of_mem '/' hm)
    exact unifySlashes_plain raw (hunified ▸ hmem)
  have hnowhere := (lead_here_iff hroot hunified).mp hlead
  rw [normalize_eq, normalize_eq rest, hroot, hrest, hunified, stack_append, hnowhere,
    unifySlashes_of_plain hplain]
  rfl

end Behind

/-- A normal path that starts on a drive does so in the segment at the bottom of its stack. -/
theorem drive_at_bottom (hroot : rooted raw = false) (h : OnDrive (normalize raw)) :
    ∃ above bottom, stack false (unifySlashes raw) = above ++ [bottom] ∧ OnDrive bottom := by
  have hclean := stack_clean false raw
  rw [normalize_eq, hroot] at h
  have hne : stack false (unifySlashes raw) ≠ [] := by
    intro hnil
    rw [hnil] at h
    exact absurd rfl h.isName.elsewhere
  rw [hclean.render_relative hne] at h
  cases hs : (stack false (unifySlashes raw)).reverse with
  | nil => exact absurd (List.reverse_eq_nil_iff.mp hs) hne
  | cons bottom above =>
    rw [hs] at h
    refine ⟨above.reverse, bottom, ?_, h.first⟩
    rw [← List.reverse_cons, ← hs, List.reverse_reverse]

/-- A relative path is normalized to one from a drive if and only if it hides that drive. -/
theorem onDrive_normalize_iff (h : isAbsolute raw = false) :
    OnDrive (normalize raw) ↔ HidesDrive raw := by
  have hroot := rooted_of_relative h
  constructor
  · intro hdrive
    obtain ⟨above, bottom, hstack, hbottom⟩ := drive_at_bottom hroot hdrive
    obtain ⟨before, after, hsplit, hnowhere⟩ := follow_bottom hstack
    have hjoin := join_split '/' (unifySlashes raw)
    have hrest := hbottom.join after
    rw [hsplit] at hjoin
    cases before with
    | nil =>
      have hstarts : OnDrive (unifySlashes raw) := hjoin ▸ hrest
      exact absurd hstarts.of_unifySlashes.isAbsolute (by simp [h])
    | cons first others =>
      have hpieces : split '/' (join '/' (first :: others)) = first :: others := by
        refine split_join fun piece hp hslash => ?_
        have hmem := List.mem_append_left (bottom :: after) hp
        exact (mem_split (hsplit ▸ hmem) '/' hslash).2 rfl
      rw [join_append] at hjoin
      have hlead : normalize (join '/' (first :: others)) = ['.'] := by
        rw [lead_here_iff hroot hjoin.symm, stack, hpieces]
        exact hnowhere
      refine ⟨_, _, hjoin.symm, hlead, hrest, ?_⟩
      rwa [← normalize_nowhere hroot hjoin.symm hlead hrest.not_rooted]
  · rintro ⟨lead, rest, hunified, hlead, hrest, hdrive⟩
    rwa [normalize_nowhere hroot hunified hlead hrest.not_rooted]

/-- No drive is hidden where there is no colon. -/
theorem HidesDrive.colon (h : HidesDrive path) : ':' ∈ path := by
  obtain ⟨lead, rest, hunified, -, ⟨c, others, -, rfl⟩, -⟩ := h
  have hmem : ':' ∈ unifySlashes path := by simp [hunified]
  obtain ⟨d, hd, hcolon⟩ := List.mem_map.mp hmem
  split at hcolon
  · cases hcolon
  · exact hcolon ▸ hd

/-- What is kept for a path that had to be relative as it was written: the normal form, which begins
at no root, and which is absolute for a drive that the path hides, and only then. -/
structure StoredFrom (raw stored : String) : Prop where
  relative : isAbsolute raw.toList = false
  normal : stored.toList = normalize raw.toList
  rootless : ∀ c, stored.toList.head? = some c → isSlash c = false
  absolute : isAbsolute stored.toList = true ↔ HidesDrive raw.toList

theorem storedFrom_of_relative {raw stored : String} (h : isAbsolute raw.toList = false)
    (hstored : stored.toList = normalize raw.toList) : StoredFrom raw stored := by
  have hroot := rooted_of_relative h
  have hclean := stack_clean false raw.toList
  have hrootless : ∀ c, stored.toList.head? = some c → isSlash c = false := by
    intro c hc
    rw [hstored, normalize_eq, hroot] at hc
    refine Bool.eq_false_iff.mpr fun hslash => ?_
    rcases isSlash_iff.mp hslash with rfl | rfl
    · exact Bool.false_ne_true (hclean.render_root.mp hc)
    · exact hclean.render_plain (List.mem_of_mem_head? hc)
  constructor
  case relative => exact h
  case normal => exact hstored
  case rootless => exact hrootless
  case absolute =>
    rw [← onDrive_normalize_iff h, ← hstored, isAbsolute_iff]
    refine or_iff_right ?_
    rintro ⟨c, hc, hslash⟩
    exact Bool.eq_false_iff.mp (hrootless c hc) hslash

/-- What was written without a colon is kept relative. -/
theorem StoredFrom.isRelative {raw stored : String} (h : StoredFrom raw stored)
    (hcolon : ':' ∉ raw.toList) : isAbsolute stored.toList = false :=
  Bool.eq_false_iff.mpr fun habsolute => hcolon (h.absolute.mp habsolute).colon

end Path

theorem Field.path_storedFrom {limits : PathLimits} (h : limits.allowAbsolute = false)
    (loc : Location) (raw : String) :
    Check.Yields (Path.StoredFrom raw) (path limits loc raw) := by
  intro stored hpath
  obtain ⟨hstored, hrelative⟩ := path_ok hpath
  exact Path.storedFrom_of_relative (hrelative h) hstored

end GameRoster
