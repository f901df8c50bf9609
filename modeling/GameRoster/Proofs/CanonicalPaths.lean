import GameRoster.Proofs.FollowedPaths

namespace GameRoster

namespace Path
open Text

variable {absolute : Bool} {parents : List (List Char)}

/-- The segments of a path behind its root. -/
def steps : List Char → List (List Char)
  | '/' :: path => split '/' path
  | path => split '/' path

/-- The paths that say the same in no shorter way: forward slashes only, no segment that is empty or
stays where it is, unless it is all there is, no slash at the end, and steps up in front of names
only, and under no root. -/
structure Canonical (path : List Char) : Prop where
  forward : '\\' ∉ path
  segments : path ≠ ['.'] → path ≠ ['/'] → ∀ segment ∈ steps path, segment ≠ [] ∧ segment ≠ ['.']
  trailing : path.getLast? = some '/' → path = ['/']
  climbs : ∃ n names, steps path = List.replicate n up ++ names ∧ up ∉ names
  root : path.head? = some '/' → up ∉ steps path

theorem steps_of_relative {path : List Char} (h : path.head? ≠ some '/') :
    steps path = split '/' path := by
  unfold steps
  split
  · exact absurd rfl h
  · rfl

theorem mem_steps {path segment : List Char} (h : segment ∈ steps path) :
    ∀ c ∈ segment, c ∈ path ∧ c ≠ '/' := by
  unfold steps at h
  split at h
  · exact fun c hc => ⟨List.mem_cons_of_mem _ (mem_split h c hc).1, (mem_split h c hc).2⟩
  · exact mem_split h

/-- A slash at the end is followed by an empty segment. -/
theorem nil_mem_steps {path : List Char} (h : path.getLast? = some '/') (hne : path ≠ ['/']) :
    [] ∈ steps path := by
  obtain ⟨front, rfl⟩ := List.getLast?_eq_some_iff.mp h
  have hlast : ∀ front, [] ∈ split '/' (front ++ ['/']) := by
    intro front
    rw [split_append]
    exact List.mem_append_right _ List.mem_cons_self
  cases front with
  | nil => exact absurd rfl hne
  | cons c front =>
    by_cases hc : c = '/'
    · obtain rfl := hc
      exact hlast front
    · rw [steps_of_relative (by simpa using hc)]
      exact hlast (c :: front)

theorem Clean.steps_render (h : Clean absolute parents) (hne : parents ≠ []) :
    steps (render absolute parents) = parents.reverse := by
  cases absolute with
  | true => exact h.split_joined hne
  | false =>
    have hhead := mt h.render_root.mp Bool.false_ne_true
    rw [steps_of_relative hhead, h.render_relative hne, h.split_joined hne]

theorem up_not_mem_names {names : List (List Char)} (h : ∀ name ∈ names, IsName name) :
    up ∉ names :=
  fun hm => (h up hm).onward rfl

theorem canonical_here : Canonical ['.'] := by
  refine ⟨by decide, fun hne => absurd rfl hne, by decide, ⟨0, [['.']], rfl, by decide⟩, by decide⟩

theorem canonical_root : Canonical ['/'] := by
  refine ⟨by decide, fun _ hne => absurd rfl hne, fun _ => rfl, ⟨0, [[]], rfl, by decide⟩, ?_⟩
  exact fun _ => by decide

theorem Clean.canonical (h : Clean absolute parents) : Canonical (render absolute parents) := by
  by_cases hne : parents = []
  · obtain rfl := hne
    cases absolute with
    | true => exact canonical_root
    | false => exact canonical_here
  · have hsteps := h.steps_render hne
    have hsegments : ∀ segment ∈ steps (render absolute parents),
        segment ≠ [] ∧ segment ≠ ['.'] := by
      rw [hsteps]
      exact fun segment hs => h.settled.segments segment (List.mem_reverse.mp hs)
    obtain ⟨names, n, hparents, hnames, hroot⟩ := h.settled.names
    have hreverse : parents.reverse = List.replicate n up ++ names.reverse := by
      rw [hparents, List.reverse_append, List.reverse_replicate]
    have hup : up ∉ names.reverse := mt List.mem_reverse.mp (up_not_mem_names hnames)
    constructor
    case forward => exact h.render_plain
    case segments => exact fun _ _ => hsegments
    case trailing =>
      intro hslash
      by_contra hnot
      exact (hsegments [] (nil_mem_steps hslash hnot)).1 rfl
    case climbs => exact ⟨n, names.reverse, hsteps.trans hreverse, hup⟩
    case root =>
      intro hslash
      obtain rfl := hroot (h.render_root.mp hslash)
      rw [hsteps, hreverse]
      exact hup

/-- A canonical path is the text of a stack. -/
theorem Canonical.rendered {path : List Char} (h : Canonical path) :
    ∃ absolute parents, Clean absolute parents ∧ render absolute parents = path := by
  by_cases hhere : path = ['.']
  · exact ⟨false, [], ⟨settled_nil, nofun⟩, hhere.symm⟩
  by_cases hroot : path = ['/']
  · exact ⟨true, [], ⟨settled_nil, nofun⟩, hroot.symm⟩
  obtain ⟨n, names, hsteps, hup⟩ := h.climbs
  have hsegments := h.segments hhere hroot
  have hnames : ∀ name ∈ names.reverse, IsName name := by
    intro name hname
    have hmem := List.mem_reverse.mp hname
    obtain ⟨hnil, hdot⟩ := hsegments name (hsteps ▸ List.mem_append_right _ hmem)
    exact ⟨hnil, hdot, fun heq => hup (heq ▸ hmem)⟩
  have hreverse : (names.reverse ++ List.replicate n up).reverse = steps path := by
    rw [hsteps, List.reverse_append, List.reverse_replicate, List.reverse_reverse]
  have hclean : ∀ absolute, (absolute = true → n = 0) →
      Clean absolute (names.reverse ++ List.replicate n up) := by
    refine fun absolute hn => ⟨settled_names hnames n hn, fun segment hs c hc => ?_⟩
    have hstep : segment ∈ steps path := hreverse ▸ List.mem_reverse.mpr hs
    obtain ⟨hmem, hslash⟩ := mem_steps hstep c hc
    exact ⟨hslash, fun heq => h.forward (heq ▸ hmem)⟩
  by_cases hslash : path.head? = some '/'
  · have hn : n = 0 := by
      by_contra hne
      have hclimb : up ∈ List.replicate n up := List.mem_replicate.mpr ⟨hne, rfl⟩
      exact h.root hslash (hsteps ▸ List.mem_append_left _ hclimb)
    refine ⟨true, _, hclean true fun _ => hn, ?_⟩
    obtain ⟨rest, rfl⟩ := List.head?_eq_some_iff.mp hslash
    change '/' :: join '/' (names.reverse ++ List.replicate n up).reverse = '/' :: rest
    rw [hreverse]
    exact congrArg _ (join_split '/' rest)
  · have hrelative := hclean false nofun
    refine ⟨false, _, hrelative, ?_⟩
    have hsplit := steps_of_relative hslash
    have hne : names.reverse ++ List.replicate n up ≠ [] := by
      intro hnil
      rw [hnil, hsplit] at hreverse
      exact split_ne_nil '/' path hreverse.symm
    rw [hrelative.render_relative hne, hreverse, hsplit, join_split]

theorem normalize_canonical (path : List Char) : Canonical (normalize path) :=
  (stack_clean (rooted path) path).canonical

theorem Clean.normalize_render (h : Clean absolute parents) :
    normalize (render absolute parents) = render absolute parents := by
  have hunified := unifySlashes_of_plain h.render_plain
  have hrooted : rooted (render absolute parents) = absolute := by
    rw [rooted, hunified, Bool.eq_iff_iff, beq_iff_eq, h.render_root]
  rw [normalize_eq, hrooted, hunified, h.stack_render]

/-- The canonical paths are those that normalizing leaves as they are. -/
theorem canonical_iff {path : List Char} : Canonical path ↔ normalize path = path := by
  constructor
  · intro h
    obtain ⟨absolute, parents, hclean, rfl⟩ := h.rendered
    exact hclean.normalize_render
  · exact fun h => h ▸ normalize_canonical path

theorem rooted_normalize (path : List Char) : rooted (normalize path) = rooted path := by
  have hclean := stack_clean (rooted path) path
  have hunified := unifySlashes_of_plain hclean.render_plain
  rw [normalize_eq path, rooted, hunified, Bool.eq_iff_iff, beq_iff_eq, hclean.render_root]

/-- Slashes as they are, what is normal is followed to where the path led. -/
theorem stack_normalize (path : List Char) :
    stack (rooted path) (unifySlashes (normalize path)) =
      stack (rooted path) (unifySlashes path) := by
  have hclean := stack_clean (rooted path) path
  rw [normalize_eq path, unifySlashes_of_plain hclean.render_plain, hclean.stack_render]

theorem rooted_append {front : List Char} (h : front ≠ []) (rest : List Char) :
    rooted (front ++ rest) = rooted front := by
  cases front with
  | nil => exact absurd rfl h
  | cons c front => rfl

theorem normalize_ne_nil (path : List Char) : normalize path ≠ [] := by
  intro hnil
  have hcanonical := normalize_canonical path
  rw [hnil] at hcanonical
  exact (hcanonical.segments (by decide) (by decide) [] List.mem_cons_self).1 rfl

/-- The front of a path may be normalized on its own, as long as there is one: what follows an empty
front begins at the root. -/
theorem normalize_append {front : List Char} (h : front ≠ []) (rest : List Char) :
    normalize (front ++ '/' :: rest) = normalize (normalize front ++ '/' :: rest) := by
  have hstack : stack (rooted front) (unifySlashes (front ++ '/' :: rest)) =
      stack (rooted front) (unifySlashes (normalize front ++ '/' :: rest)) := by
    have hslash : unifySlashes ('/' :: rest) = '/' :: unifySlashes rest := rfl
    rw [unifySlashes_append, unifySlashes_append, hslash, stack_append, stack_append,
      stack_normalize]
  rw [normalize_eq, normalize_eq (normalize front ++ _), rooted_append h,
    rooted_append (normalize_ne_nil front), rooted_normalize, hstack]

section BaseName

variable {path base : List Char}

theorem isSlash_iff {c : Char} : isSlash c = true ↔ c = '/' ∨ c = '\\' := by
  rw [isSlash, Bool.or_eq_true, beq_iff_eq, beq_iff_eq]

theorem baseName_slashless (path : List Char) : ∀ c ∈ baseName path, isSlash c = false := by
  intro c hc
  have hkept := List.all_eq_true.mp List.all_takeWhile c (List.mem_reverse.mp hc)
  rwa [Bool.not_eq_true'] at hkept

theorem slashless_reverse (h : ∀ c ∈ base, isSlash c = false) :
    ∀ c ∈ base.reverse, (!isSlash c) = true := by
  intro c hc
  rw [h c (List.mem_reverse.mp hc)]
  rfl

theorem baseName_of_slashless (h : ∀ c ∈ base, isSlash c = false) : baseName base = base := by
  rw [baseName, List.takeWhile_eq_self_iff.mpr (slashless_reverse h), List.reverse_reverse]

theorem baseName_append (front : List Char) {c : Char} (hc : isSlash c = true)
    (h : ∀ c ∈ base, isSlash c = false) : baseName (front ++ c :: base) = base := by
  rw [baseName, List.reverse_append, List.reverse_cons, List.append_assoc,
    List.takeWhile_append_of_pos (slashless_reverse h)]
  simp [hc]

/-- The base name is the whole path, or stands behind a slash. -/
theorem baseName_ends (path : List Char) : path = baseName path ∨
    ∃ front c, isSlash c = true ∧ path = front ++ c :: baseName path := by
  have hparts := List.takeWhile_append_dropWhile (p := fun c => !isSlash c) (l := path.reverse)
  cases hrest : path.reverse.dropWhile fun c => !isSlash c with
  | nil =>
    rw [hrest, List.append_nil] at hparts
    exact .inl (List.reverse_eq_iff.mp hparts.symm)
  | cons c front =>
    have hhead := List.head?_dropWhile_not (fun c => !isSlash c) path.reverse
    rw [hrest] at hhead
    rw [hrest] at hparts
    refine .inr ⟨front.reverse, c, by simpa using hhead, ?_⟩
    calc path = (path.reverse.takeWhile (fun c => !isSlash c) ++ c :: front).reverse := by
          rw [hparts, List.reverse_reverse]
      _ = front.reverse ++ c :: baseName path := by simp [baseName]

theorem unifySlashes_ends (path : List Char) : unifySlashes path = baseName path ∨
    ∃ front, unifySlashes path = front ++ '/' :: baseName path := by
  have hbase : unifySlashes (baseName path) = baseName path :=
    unifySlashes_of_plain fun hm => absurd (baseName_slashless path _ hm) (by decide)
  rcases baseName_ends path with hwhole | ⟨front, c, hc, hends⟩
  · rw [← hwhole] at hbase
    exact .inl (hbase.trans hwhole)
  · have hslash : unifySlashes (c :: baseName path) = '/' :: baseName path := by
      rcases isSlash_iff.mp hc with rfl | rfl <;> exact congrArg _ hbase
    refine .inr ⟨unifySlashes front, ?_⟩
    rw [← hslash, ← unifySlashes_append, ← hends]

/-- A base name that is a name is what following the path ends with. -/
theorem stack_baseName (absolute : Bool) (h : IsName (baseName path)) :
    ∃ parents, stack absolute (unifySlashes path) = baseName path :: parents := by
  have hsplit : split '/' (baseName path) = [baseName path] :=
    split_of_not_mem fun hm => absurd (baseName_slashless path _ hm) (by decide)
  rcases unifySlashes_ends path with hwhole | ⟨front, hends⟩
  · refine ⟨[], ?_⟩
    rw [hwhole, stack, hsplit]
    exact push_name h
  · refine ⟨stack absolute front, ?_⟩
    rw [hends, stack_append, hsplit]
    exact push_name h

theorem Clean.baseName_render {absolute : Bool} {parents : List (List Char)}
    (h : Clean absolute (base :: parents)) :
    baseName (render absolute (base :: parents)) = base := by
  have hslash : isSlash '/' = true := by decide
  have hslashless : ∀ c ∈ base, isSlash c = false := by
    intro c hc
    obtain ⟨hforward, hbackward⟩ := h.plain base List.mem_cons_self c hc
    exact Bool.eq_false_iff.mpr fun hs => (isSlash_iff.mp hs).elim hforward hbackward
  have hjoin : join '/' (base :: parents).reverse = base ∨
      ∃ front, join '/' (base :: parents).reverse = front ++ '/' :: base := by
    rw [List.reverse_cons]
    cases hs : parents.reverse with
    | nil => exact .inl rfl
    | cons first others => exact .inr ⟨_, join_append first others base []⟩
  cases absolute with
  | true =>
    change baseName ('/' :: join '/' (base :: parents).reverse) = base
    rcases hjoin with hbase | ⟨front, hfront⟩
    · rw [hbase]
      exact baseName_append [] hslash hslashless
    · rw [hfront]
      exact baseName_append ('/' :: front) hslash hslashless
  | false =>
    rw [h.render_relative (List.cons_ne_nil base parents)]
    rcases hjoin with hbase | ⟨front, hfront⟩
    · rw [hbase, baseName_of_slashless hslashless]
    · rw [hfront, baseName_append front hslash hslashless]

/-- Normalizing keeps a base name that is a name. -/
theorem baseName_normalize (h : IsName (baseName path)) :
    baseName (normalize path) = baseName path := by
  obtain ⟨parents, hstack⟩ := stack_baseName (rooted path) h
  have hclean := stack_clean (rooted path) path
  rw [normalize_eq, hstack]
  rw [hstack] at hclean
  exact hclean.baseName_render

theorem isName_of_extension (hnone : extension path ≠ []) (hpoint : extension path ≠ ['.']) :
    IsName (baseName path) := by
  refine ⟨fun h => hnone ?_, fun h => hnone ?_, fun h => hpoint ?_⟩ <;> rw [extension, h] <;> rfl

theorem extension_normalize (h : IsName (baseName path)) :
    extension (normalize path) = extension path := by
  rw [extension, baseName_normalize h]
  rfl

end BaseName

end Path

/-- A path that is accepted is kept in its normal form, and was relative if it had to be. -/
theorem Field.path_ok {limits : PathLimits} {loc : Location} {raw stored : String}
    (h : Field.path limits loc raw = .ok stored) :
    stored.toList = Path.normalize raw.toList ∧
      (limits.allowAbsolute = false → Path.isAbsolute raw.toList = false) := by
  unfold Field.path at h
  dsimp only at h
  split at h
  · cases h
  · split at h
    · cases h
    · rename_i hrelative
      obtain rfl := Except.ok.inj h
      refine ⟨String.toList_ofList, fun hallow => ?_⟩
      simpa [hallow] using hrelative

namespace Path

theorem normalize_lawful (path : List Char) :
    Canonical (normalize path) ∧
    normalize (normalize path) = normalize path ∧
    (path ≠ [] → ∀ rest,
      normalize (path ++ '/' :: rest) = normalize (normalize path ++ '/' :: rest)) ∧
    (extension path ≠ [] → extension path ≠ ['.'] →
      baseName (normalize path) = baseName path ∧ extension (normalize path) = extension path) ∧
    ∀ limits loc raw stored, raw.toList = path → Field.path limits loc raw = .ok stored →
      stored.toList = normalize path := by
  have hcanonical := normalize_canonical path
  refine ⟨hcanonical, canonical_iff.mp hcanonical, fun h rest => normalize_append h rest, ?_, ?_⟩
  · intro hnone hpoint
    have hname := isName_of_extension hnone hpoint
    exact ⟨baseName_normalize hname, extension_normalize hname⟩
  · rintro limits loc raw stored rfl hstored
    exact (Field.path_ok hstored).1

/-- A path with both slashes that climbs above its start. -/
def climbing : String := "..\\..\\models/./old/../girl.vrm"

theorem climbing_lawful :
    Canonical "../../models/girl.vrm".toList ∧
    normalize (climbing.toList ++ '/' :: "../boy.vrm".toList) =
      normalize ("../../models/girl.vrm".toList ++ '/' :: "../boy.vrm".toList) ∧
    extension "../../models/girl.vrm".toList = ".vrm".toList ∧
    Field.path { extensions := [".vrm"] } (.label "view_model") climbing =
      .ok "../../models/girl.vrm" := by
  obtain ⟨hcanonical, -, happend, hname, hstored⟩ := normalize_lawful climbing.toList
  have haccepted : Field.path { extensions := [".vrm"] } (.label "view_model") climbing =
      .ok "../../models/girl.vrm" := by rfl
  have hnormal := hstored _ _ _ _ rfl haccepted
  have hextension : extension climbing.toList = ".vrm".toList := by rfl
  obtain ⟨-, hkept⟩ := hname (by decide +kernel) (by decide +kernel)
  have hparts := happend (by decide +kernel) "../boy.vrm".toList
  rw [← hnormal] at hcanonical hkept hparts
  exact ⟨hcanonical, hparts, hkept.trans hextension, haccepted⟩

end Path

end GameRoster
