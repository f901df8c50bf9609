import GameRoster.Field.Path
import GameRoster.Proofs.Ids

namespace GameRoster

namespace Text

variable {separator : Char} {text piece : List Char}

theorem split_append (front rest : List Char) :
    split separator (front ++ separator :: rest) =
      split separator front ++ split separator rest := by
  induction front with
  | nil => exact split_append_cons List.not_mem_nil rest
  | cons c front ih =>
    rw [List.cons_append, split, split, ih]
    cases hs : split separator front with
    | nil => exact absurd hs (split_ne_nil separator front)
    | cons first others =>
      rw [List.cons_append]
      dsimp only
      split <;> rfl

theorem join_append (first : List Char) (others : List (List Char)) (next : List Char)
    (rest : List (List Char)) : join separator (first :: others ++ next :: rest) =
      join separator (first :: others) ++ separator :: join separator (next :: rest) := by
  induction others generalizing first with
  | nil => rfl
  | cons second others ih =>
    have hjoin := ih second
    simp only [List.cons_append, join] at hjoin ⊢
    rw [hjoin, List.append_assoc, List.cons_append]

/-- Pieces hold what stands between the separators. -/
theorem mem_split (h : piece ∈ split separator text) : ∀ c ∈ piece, c ∈ text ∧ c ≠ separator := by
  induction text generalizing piece with
  | nil =>
    obtain rfl := List.mem_singleton.mp h
    exact fun c hc => absurd hc List.not_mem_nil
  | cons d text ih =>
    rw [split] at h
    cases hs : split separator text with
    | nil => exact absurd hs (split_ne_nil separator text)
    | cons first others =>
      rw [hs] at h ih
      have hlater : ∀ later ∈ first :: others, ∀ c ∈ later, c ∈ d :: text ∧ c ≠ separator :=
        fun later hl c hc => ⟨List.mem_cons_of_mem d (ih hl c hc).1, (ih hl c hc).2⟩
      dsimp only at h
      split at h
      · rcases List.mem_cons.mp h with rfl | h
        · exact fun c hc => absurd hc List.not_mem_nil
        · exact hlater piece h
      · rename_i hd
        rcases List.mem_cons.mp h with rfl | h
        · intro c hc
          rcases List.mem_cons.mp hc with rfl | hc
          · exact ⟨List.mem_cons_self, by simpa using hd⟩
          · exact hlater first List.mem_cons_self c hc
        · exact hlater piece (List.mem_cons_of_mem first h)

end Text

namespace Path
open Text

/-- A step out of a directory. -/
def up : List Char := ['.', '.']

/-- A segment that says where to go on. -/
structure IsName (segment : List Char) : Prop where
  nonempty : segment ≠ []
  elsewhere : segment ≠ ['.']
  onward : segment ≠ up

theorem segment_cases (segment : List Char) :
    segment = [] ∨ segment = ['.'] ∨ segment = up ∨ IsName segment := by
  by_cases hnil : segment = []
  · exact .inl hnil
  by_cases hhere : segment = ['.']
  · exact .inr (.inl hhere)
  by_cases hup : segment = up
  · exact .inr (.inr (.inl hup))
  · exact .inr (.inr (.inr ⟨hnil, hhere, hup⟩))

section Push

variable {absolute : Bool} {parents : List (List Char)} {segment : List Char}

theorem push_nil : push absolute parents [] = parents := rfl

theorem push_name (h : IsName segment) : push absolute parents segment = segment :: parents := by
  unfold push
  split
  · exact absurd rfl h.nonempty
  · exact absurd rfl h.elsewhere
  · exact absurd rfl h.onward
  · rfl

/-- A step up undoes what is no step up itself. -/
theorem push_up (h : segment ≠ up) : push absolute (segment :: parents) up = parents := by
  have hne : (segment == ['.', '.']) = false := beq_eq_false_iff_ne.mpr h
  simp [up, push, hne]

/-- Steps up that undo nothing are kept, unless the path has a root. -/
theorem push_up_ups (ups : Nat) : push false (List.replicate ups up) up =
    List.replicate (ups + 1) up := by
  cases ups <;> rfl

/-- A segment changes nothing, comes on top, or takes the top away. -/
theorem push_cases (absolute : Bool) (parents : List (List Char)) (segment : List Char) :
    push absolute parents segment = parents ∨ push absolute parents segment = segment :: parents ∨
      ∃ top, parents = top :: push absolute parents segment := by
  rcases segment_cases segment with rfl | rfl | rfl | hname
  · exact .inl rfl
  · exact .inl rfl
  · cases parents with
    | nil =>
      cases absolute with
      | true => exact .inl rfl
      | false => exact .inr (.inl rfl)
    | cons top others =>
      by_cases htop : top = up
      · obtain rfl := htop
        cases absolute with
        | true => exact .inl rfl
        | false => exact .inr (.inl rfl)
      · exact .inr (.inr ⟨top, by rw [push_up htop]⟩)
  · exact .inr (.inl (push_name hname))

end Push

/-- What can be left when segments have been followed, last first: names, and under them steps up.
There is nothing above a root. -/
inductive Settled (absolute : Bool) : List (List Char) → Prop
  | ups (n : Nat) (h : absolute = true → n = 0) : Settled absolute (List.replicate n up)
  | name {parents : List (List Char)} {segment : List Char} (before : Settled absolute parents)
      (h : IsName segment) : Settled absolute (segment :: parents)

variable {absolute : Bool} {parents : List (List Char)}

theorem settled_nil : Settled absolute [] := .ups 0 fun _ => rfl

theorem Settled.push (h : Settled absolute parents) (segment : List Char) :
    Settled absolute (push absolute parents segment) := by
  rcases segment_cases segment with rfl | rfl | rfl | hname
  · exact h
  · exact h
  · cases h with
    | ups n hroot =>
      cases absolute with
      | true =>
        obtain rfl := hroot rfl
        exact settled_nil
      | false =>
        rw [push_up_ups]
        exact .ups (n + 1) nofun
    | name before hname =>
      rw [push_up hname.onward]
      exact before
  · rw [push_name hname]
    exact .name h hname

theorem Settled.follow (h : Settled absolute parents) (segments : List (List Char)) :
    Settled absolute (segments.foldl (Path.push absolute) parents) := by
  induction segments generalizing parents with
  | nil => exact h
  | cons segment rest ih => exact ih (h.push segment)

/-- What is settled is found again by following it. -/
theorem Settled.replay (h : Settled absolute parents) :
    parents.reverse.foldl (Path.push absolute) [] = parents := by
  induction h with
  | ups n hroot =>
    cases absolute with
    | true =>
      obtain rfl := hroot rfl
      rfl
    | false =>
      induction n with
      | zero => rfl
      | succ n ih =>
        rw [List.reverse_replicate] at ih ⊢
        rw [List.replicate_succ', List.foldl_append, ih nofun, ← List.replicate_succ']
        exact push_up_ups n
  | name before hname ih =>
    rw [List.reverse_cons, List.foldl_append, ih]
    exact push_name hname

/-- A list of names on top of steps up is settled. -/
theorem settled_names {names : List (List Char)} (h : ∀ name ∈ names, IsName name) (n : Nat)
    (hroot : absolute = true → n = 0) : Settled absolute (names ++ List.replicate n up) := by
  induction names with
  | nil => exact .ups n hroot
  | cons name names ih =>
    obtain ⟨hname, hnames⟩ := List.forall_mem_cons.mp h
    exact .name (ih hnames) hname

theorem Settled.names (h : Settled absolute parents) : ∃ names n,
    parents = names ++ List.replicate n up ∧ (∀ name ∈ names, IsName name) ∧
      (absolute = true → n = 0) := by
  induction h with
  | ups n hroot => exact ⟨[], n, rfl, List.forall_mem_nil _, hroot⟩
  | name before hname ih =>
    obtain ⟨names, n, rfl, hnames, hroot⟩ := ih
    exact ⟨_ :: names, n, rfl, List.forall_mem_cons.mpr ⟨hname, hnames⟩, hroot⟩

theorem Settled.segments (h : Settled absolute parents) :
    ∀ segment ∈ parents, segment ≠ [] ∧ segment ≠ ['.'] := by
  induction h with
  | ups n _ =>
    intro segment hs
    obtain rfl := List.eq_of_mem_replicate hs
    decide
  | name _ hname ih => exact List.forall_mem_cons.mpr ⟨⟨hname.nonempty, hname.elsewhere⟩, ih⟩

/-- What following a path leaves, last first. -/
def stack (absolute : Bool) (path : List Char) : List (List Char) :=
  (split '/' path).foldl (push absolute) []

theorem stack_append (absolute : Bool) (front rest : List Char) :
    stack absolute (front ++ '/' :: rest) =
      (split '/' rest).foldl (push absolute) (stack absolute front) := by
  rw [stack, split_append, List.foldl_append]
  rfl

/-- Whether a path begins at a root, with either slash. -/
def rooted (path : List Char) : Bool := (unifySlashes path).head? == some '/'

/-- The text of a stack. -/
def render (absolute : Bool) (parents : List (List Char)) : List Char :=
  let joined := join '/' parents.reverse
  if absolute then '/' :: joined
  else if joined.isEmpty then ['.']
  else joined

theorem normalize_eq (path : List Char) :
    normalize path = render (rooted path) (stack (rooted path) (unifySlashes path)) := rfl

theorem unifySlashes_plain (path : List Char) : '\\' ∉ unifySlashes path := by
  intro h
  obtain ⟨c, -, hc⟩ := List.mem_map.mp h
  split at hc
  · cases hc
  · rename_i hne
    exact hne (beq_iff_eq.mpr hc)

theorem unifySlashes_of_plain {path : List Char} (h : '\\' ∉ path) : unifySlashes path = path := by
  have hkeep : ∀ c ∈ path, (if c == '\\' then '/' else c) = c := by
    intro c hc
    refine if_neg fun heq => h ?_
    rwa [← beq_iff_eq.mp heq]
  exact (List.map_congr_left hkeep).trans path.map_id

theorem unifySlashes_append (front rest : List Char) :
    unifySlashes (front ++ rest) = unifySlashes front ++ unifySlashes rest := List.map_append

/-- A settled stack whose segments hold no slash of either kind. -/
structure Clean (absolute : Bool) (parents : List (List Char)) : Prop where
  settled : Settled absolute parents
  plain : ∀ segment ∈ parents, ∀ c ∈ segment, c ≠ '/' ∧ c ≠ '\\'

theorem mem_push {segment pushed : List Char} (h : segment ∈ push absolute parents pushed) :
    segment = pushed ∨ segment ∈ parents := by
  rcases push_cases absolute parents pushed with hkept | htaken | ⟨top, hundone⟩
  · exact .inr (hkept ▸ h)
  · exact List.mem_cons.mp (htaken ▸ h)
  · rw [hundone]
    exact .inr (List.mem_cons_of_mem top h)

theorem mem_follow {segment : List Char} {segments : List (List Char)}
    (h : segment ∈ segments.foldl (push absolute) parents) :
    segment ∈ segments ∨ segment ∈ parents := by
  induction segments generalizing parents with
  | nil => exact .inr h
  | cons first rest ih =>
    rcases ih h with h | h
    · exact .inl (List.mem_cons_of_mem _ h)
    · rcases mem_push h with rfl | h
      · exact .inl List.mem_cons_self
      · exact .inr h

theorem stack_clean (absolute : Bool) (path : List Char) :
    Clean absolute (stack absolute (unifySlashes path)) := by
  refine ⟨settled_nil.follow _, fun segment hs c hc => ?_⟩
  have hpiece := (mem_follow hs).resolve_right List.not_mem_nil
  obtain ⟨hmem, hslash⟩ := mem_split hpiece c hc
  exact ⟨hslash, fun heq => unifySlashes_plain path (heq ▸ hmem)⟩

theorem join_ne_nil {first : List Char} (h : first ≠ []) (others : List (List Char)) :
    join '/' (first :: others) ≠ [] := by
  cases others with
  | nil => exact h
  | cons next others => simp [join]

theorem split_root (path : List Char) : split '/' ('/' :: path) = [] :: split '/' path :=
  split_append [] path

namespace Clean

variable (h : Clean absolute parents)

include h

theorem split_joined (hne : parents ≠ []) :
    split '/' (join '/' parents.reverse) = parents.reverse := by
  cases hs : parents.reverse with
  | nil => exact absurd (List.reverse_eq_nil_iff.mp hs) hne
  | cons first others =>
    refine split_join fun segment hm hc => ?_
    exact (h.plain segment (List.mem_reverse.mp (hs ▸ hm)) '/' hc).1 rfl

theorem render_relative (hne : parents ≠ []) :
    render false parents = join '/' parents.reverse := by
  have hjoin : join '/' parents.reverse ≠ [] := by
    cases hs : parents.reverse with
    | nil => exact absurd (List.reverse_eq_nil_iff.mp hs) hne
    | cons first others =>
      have hmem : first ∈ parents := List.mem_reverse.mp (hs ▸ List.mem_cons_self)
      exact join_ne_nil (h.settled.segments first hmem).1 others
  simp [render, List.isEmpty_eq_false_iff.mpr hjoin]

/-- What is written for a stack is read as the stack again. -/
theorem stack_render : stack absolute (render absolute parents) = parents := by
  by_cases hne : parents = []
  · obtain rfl := hne
    cases absolute <;> rfl
  · have hreplay := h.settled.replay
    cases absolute with
    | true =>
      change (split '/' ('/' :: join '/' parents.reverse)).foldl _ [] = parents
      rw [split_root, List.foldl_cons, push_nil, h.split_joined hne]
      exact hreplay
    | false =>
      rw [h.render_relative hne, stack, h.split_joined hne]
      exact hreplay

theorem render_plain : '\\' ∉ render absolute parents := by
  have hjoin : '\\' ∉ join '/' parents.reverse := by
    intro hm
    rcases mem_join hm with heq | ⟨segment, hs, hc⟩
    · cases heq
    · exact (h.plain segment (List.mem_reverse.mp hs) _ hc).2 rfl
  unfold render
  dsimp only
  split
  · simpa using hjoin
  · split
    · decide
    · exact hjoin

/-- Only a stack above a root is written with a slash in front. -/
theorem render_root : (render absolute parents).head? = some '/' ↔ absolute = true := by
  cases absolute with
  | true => simp [render]
  | false =>
    refine iff_of_false ?_ Bool.false_ne_true
    unfold render
    simp only [Bool.false_eq_true, if_false]
    split
    · decide
    · cases hs : parents.reverse with
      | nil => simp [join]
      | cons first others =>
        have hmem : first ∈ parents := List.mem_reverse.mp (hs ▸ List.mem_cons_self)
        cases first with
        | nil => exact absurd rfl (h.settled.segments [] hmem).1
        | cons c first =>
          have hc := (h.plain _ hmem c List.mem_cons_self).1
          cases others <;> simpa [join] using hc

end Clean

end Path

end GameRoster
