import GameRoster.Disk
import GameRoster.Proofs.Checks

namespace GameRoster

/-- The first entry under a key among those whose keys are kept. -/
theorem lookup_filter {α β : Type} [BEq α] [LawfulBEq α] (keep : α → Bool) (key : α)
    (entries : List (α × β)) :
    (entries.filter fun entry => keep entry.1).lookup key =
      if keep key then entries.lookup key else none := by
  induction entries with
  | nil => simp
  | cons entry rest ih =>
    obtain ⟨other, b⟩ := entry
    by_cases hkey : key = other
    · subst hkey
      cases hkeep : keep key with
      | true => simp [hkeep]
      | false => simp [hkeep, ih]
    · have hne : (key == other) = false := beq_false_of_ne hkey
      cases hkeep : keep other with
      | true => simp [hkeep, List.lookup_cons, hne, ih]
      | false => simp [hkeep, List.lookup_cons, hne, ih]

namespace Route

variable {route : Route} {home : Place}

theorem place_join (route : Route) (home : Place) {name : String} (h : name ≠ "..") :
    (route.join name).place home = route.place home ++ [name] := by
  have hstep : (route.place home).step name = route.place home ++ [name] := by
    simp [Place.step, h]
  rw [← hstep]
  exact List.foldl_append

/-- A path that ends in a name leads into the directory before that name. -/
theorem place_of_isNamed (home : Place) (h : route.isNamed = true) :
    ∃ (before : Place) (name : String), route.place home = before ++ [name] := by
  obtain ⟨rooted, steps, still⟩ := route
  rcases List.eq_nil_or_concat steps with rfl | ⟨before, name, rfl⟩
  · simp [isNamed] at h
  · have hname : name ≠ ".." := by
      rintro rfl
      simp [isNamed] at h
    rw [List.concat_eq_append]
    exact ⟨_, name, place_join ⟨rooted, before, still⟩ home hname⟩

theorem foldl_step {steps : List String} (h : ".." ∉ steps) (start : Place) :
    steps.foldl Place.step start = start ++ steps := by
  induction steps generalizing start with
  | nil => simp
  | cons name rest ih =>
    rw [List.mem_cons, not_or] at h
    have hstep : start.step name = start ++ [name] := by simp [Place.step, Ne.symm h.1]
    rw [List.foldl_cons, hstep, ih h.2, List.append_assoc, List.singleton_append]

/-- Without a step up, the steps before the last one lead to a part of the way to it. -/
theorem ancestor_of_names (h : ".." ∉ route.steps) {step : Place}
    (hstep : step ∈ route.ancestors.map (place home)) :
    ∃ rest, rest ≠ [] ∧ step ++ rest = route.place home := by
  obtain ⟨ancestor, ha, rfl⟩ := List.mem_map.mp hstep
  obtain ⟨n, hn, rfl⟩ := List.mem_map.mp ha
  obtain ⟨hpos, hlt⟩ := List.mem_range'_1.mp hn
  refine ⟨route.steps.drop n, ?_, ?_⟩
  · rw [Ne, List.drop_eq_nil_iff]
    omega
  · have htaken : ".." ∉ route.steps.take n := fun hm => h (List.mem_of_mem_take hm)
    unfold place
    rw [foldl_step h, foldl_step htaken, List.append_assoc, List.take_append_drop]

theorem way_of_isNamed (home : Place) (h : route.isNamed = true) :
    route.way home = route.ancestors.map (place home) := by
  have hstill : route.still = false := by
    cases hs : route.still with
    | false => rfl
    | true => simp [isNamed, hs] at h
  simp [way, hstill]

theorem isEmpty_of_isNamed (h : route.isNamed = true) : route.isEmpty = false := by
  cases hsteps : route.steps with
  | nil => simp [isNamed, hsteps] at h
  | cons step rest => simp [isEmpty, hsteps]

end Route

namespace Disk

variable {disk next : Disk} {place other : Place} {route : Route}

theorem at_lookup (h : other ≠ []) : disk.at? other = disk.entries.lookup other := by
  unfold at?
  simp [h]

/-- What is put somewhere changes nothing but what stands at its place. -/
theorem at_put (h : place ≠ []) (entry : DiskEntry) :
    (disk.put place entry).at? other = if other = place then some entry else disk.at? other := by
  by_cases ho : other = []
  · simp [at?, ho, Ne.symm h]
  · have hkept := lookup_filter (fun p => p != place) other disk.entries
    rw [at_lookup ho, at_lookup ho]
    change ((disk.entries.filter fun entry => entry.1 != place) ++ _).lookup other = _
    rw [List.lookup_append, hkept]
    by_cases hp : other = place
    · simp [hp]
    · simp [hp, List.lookup_cons, beq_false_of_ne hp]

theorem at_remove (h : other ≠ []) :
    (disk.remove place).at? other = if place.isPrefixOf other then none else disk.at? other := by
  have hkept := lookup_filter (fun p => !place.isPrefixOf p) other disk.entries
  rw [at_lookup h, at_lookup h]
  change (disk.entries.filter fun entry => !place.isPrefixOf entry.1).lookup other = _
  rw [hkept]
  cases place.isPrefixOf other with
  | true => rfl
  | false => rfl

theorem obstacle_none : disk.obstacle? place = none ↔ disk.at? place = some .directory := by
  unfold obstacle?
  split
  · rename_i h
    simp [h]
  · rename_i h
    simp [h]
  · rename_i h
    simp [h]

theorem follow_ok : disk.follow route = .ok place ↔ route.isEmpty = false ∧
    (∀ step ∈ route.way disk.home, disk.at? step = some .directory) ∧
    route.place disk.home = place := by
  have hway : (∀ step ∈ route.way disk.home, disk.at? step = some .directory) ↔
      (route.way disk.home).findSome? disk.obstacle? = none := by
    rw [List.findSome?_eq_none_iff]
    exact forall₂_congr fun step _ => obstacle_none.symm
  rw [hway]
  unfold follow
  cases route.isEmpty with
  | true => simp
  | false =>
    cases (route.way disk.home).findSome? disk.obstacle? with
    | some obstacle => simp
    | none => simp

theorem followToNew_ok (h : disk.followToNew route = .ok place) :
    disk.follow route = .ok place ∧ route.isNamed = true ∧
      disk.at? place.dropLast = some .directory := by
  obtain ⟨found, hfollow, hfound⟩ := Check.bind_ok.mp h
  split at hfound
  · cases hfound
  · rename_i hnamed
    split at hfound
    · cases hfound
    · rename_i hentered
      obtain rfl := Except.ok.inj hfound
      exact ⟨hfollow, by simpa using hnamed, obstacle_none.mp hentered⟩

/-- A directory that is made stands where nothing was before. -/
theorem createDirectory_ok (h : createDirectory route disk = .ok next) :
    route.isNamed = true ∧ disk.at? (route.place disk.home) = none ∧
      next = disk.makeDirectory (route.place disk.home) := by
  obtain ⟨found, hnew, hfound⟩ := Check.bind_ok.mp h
  obtain ⟨hfollow, hnamed, -⟩ := followToNew_ok hnew
  obtain ⟨-, -, rfl⟩ := follow_ok.mp hfollow
  split at hfound
  · cases hfound
  · rename_i hfree
    exact ⟨hnamed, by simpa using hfree, (Except.ok.inj hfound).symm⟩

theorem writeFile_ok {contents : String} (h : writeFile route contents disk = .ok next) :
    disk.at? (route.place disk.home).dropLast = some .directory ∧
      next = disk.write (route.place disk.home) contents := by
  obtain ⟨found, hnew, hfound⟩ := Check.bind_ok.mp h
  obtain ⟨hfollow, -, hentered⟩ := followToNew_ok hnew
  obtain ⟨-, -, rfl⟩ := follow_ok.mp hfollow
  split at hfound
  · cases hfound
  · exact ⟨hentered, (Except.ok.inj hfound).symm⟩

/-- Either a directory is removed, or nothing is there to remove. -/
theorem removeDirectory_ok (h : removeDirectory route disk = .ok () next) :
    (next = disk.remove (route.place disk.home) ∧ route.isNamed = true) ∨
      (next = disk ∧ (disk.follow route = .error .missing ∨
        disk.follow route = .ok (route.place disk.home) ∧
          disk.at? (route.place disk.home) = none)) := by
  unfold removeDirectory at h
  split at h
  · rename_i hfollow
    obtain rfl := (EStateM.Result.ok.inj h).2
    exact .inr ⟨rfl, .inl hfollow⟩
  · cases h
  · rename_i place hfollow
    obtain ⟨-, -, rfl⟩ := follow_ok.mp hfollow
    split at h
    · rename_i hnone
      obtain rfl := (EStateM.Result.ok.inj h).2
      exact .inr ⟨rfl, .inr ⟨hfollow, hnone⟩⟩
    · cases h
    · split at h
      · rename_i hnamed
        exact .inl ⟨(EStateM.Result.ok.inj h).2.symm, hnamed⟩
      · cases h

theorem removeDirectory_home (h : removeDirectory route disk = .ok () next) :
    next.home = disk.home := by
  rcases removeDirectory_ok h with ⟨rfl, -⟩ | ⟨rfl, -⟩
  · rfl
  · rfl

/-- A directory is removed with what lies in it, and nothing else. -/
theorem removeDirectory_read (h : removeDirectory route disk = .ok () next)
    (ho : ¬ route.place disk.home <+: other) : next.read? other = disk.read? other := by
  rcases removeDirectory_ok h with ⟨rfl, -⟩ | ⟨rfl, -⟩
  · unfold read?
    by_cases hempty : other = []
    · rw [hempty]
      rfl
    · rw [at_remove hempty, if_neg (by simpa using ho)]
  · rfl

/-- A directory is made where nothing was, or nothing is made. -/
theorem createUnlessThere_ok (h : createUnlessThere route disk = .ok () next) :
    next = disk ∨ (disk.at? (route.place disk.home) = none ∧ route.place disk.home ≠ [] ∧
      next = disk.makeDirectory (route.place disk.home)) := by
  unfold createUnlessThere at h
  split at h
  · rename_i hmade
    obtain ⟨hnamed, hfree, rfl⟩ := createDirectory_ok hmade
    obtain ⟨before, name, hplace⟩ := Route.place_of_isNamed disk.home hnamed
    exact .inr ⟨hfree, by simp [hplace], (EStateM.Result.ok.inj h).2.symm⟩
  · split at h
    · exact .inl (EStateM.Result.ok.inj h).2.symm
    · cases h

namespace Job

variable {last : Disk}

theorem bind_ok {α β : Type} {first : Job α} {after : α → Job β} {b : β} :
    (first >>= after) disk = .ok b last ↔
      ∃ a middle, first disk = .ok a middle ∧ after a middle = .ok b last := by
  change EStateM.bind first after disk = _ ↔ _
  unfold EStateM.bind
  cases first disk with
  | ok a middle => exact ⟨fun h => ⟨a, middle, rfl, h⟩, fun ⟨_, _, rfl, h⟩ => h⟩
  | error obstacle left => simp

theorem attempt_ok {call : Disk → Except Obstacle Disk} (h : attempt call disk = .ok () next) :
    call disk = .ok next := by
  unfold attempt at h
  split at h
  · rename_i hcall
    rw [hcall, (EStateM.Result.ok.inj h).2]
  · cases h

/-- What every step keeps, a run of them keeps as well. -/
theorem forM_ok {α : Type} {items : List α} {job : α → Job Unit} {R : Disk → Disk → Prop}
    (hrefl : ∀ d, R d d) (htrans : ∀ a b c, R a b → R b c → R a c)
    (hstep : ∀ item ∈ items, ∀ d e, job item d = .ok () e → R d e)
    (h : items.forM job disk = .ok () last) : R disk last := by
  induction items generalizing disk with
  | nil =>
    obtain rfl := (EStateM.Result.ok.inj h).2
    exact hrefl _
  | cons item rest ih =>
    obtain ⟨_, middle, hfirst, hrest⟩ := bind_ok.mp h
    obtain ⟨hitem, hitems⟩ := List.forall_mem_cons.mp hstep
    exact htrans _ _ _ (hitem _ _ hfirst) (ih hitems hrest)

end Job

/-- What stands in a directory that holds some files and nothing else. -/
def entryIn (files : List (String × String)) : Place → Option DiskEntry
  | [] => some .directory
  | [name] => (files.lookup name).map .file
  | _ => none

section Files

variable {files : List (String × String)}

theorem entryIn_cons {file : String × String} (hf : file.1 ∉ files.map Prod.fst) (inner : Place) :
    entryIn (file :: files) inner =
      (entryIn files inner).or (if inner = [file.1] then some (.file file.2) else none) := by
  match inner with
  | [] => rfl
  | [name] =>
    obtain ⟨first, contents⟩ := file
    by_cases hname : name = first
    · subst hname
      have hnone : files.lookup name = none := by
        rw [List.lookup_eq_none_iff]
        intro other hm
        refine bne_iff_ne.mpr fun heq => hf ?_
        exact List.mem_map.mpr ⟨other, hm, heq.symm⟩
      simp [entryIn, hnone]
    · simp [entryIn, List.lookup_cons, hname, beq_false_of_ne hname]
  | _ :: _ :: _ => simp [entryIn]

/-- The files that are written into a directory stand in it, above what was there. -/
theorem at_writeFiles (hn : (files.map Prod.fst).Nodup) {inner : Place} (hi : inner ≠ []) :
    (files.foldl (fun d file => d.write (place ++ [file.1]) file.2) disk).at?
        (place ++ inner) = (entryIn files inner).or (disk.at? (place ++ inner)) := by
  induction files generalizing disk with
  | nil =>
    match inner with
    | [name] => rfl
    | _ :: _ :: _ => rfl
  | cons file rest ih =>
    obtain ⟨hfile, hrest⟩ := List.nodup_cons.mp hn
    rw [List.foldl_cons, ih hrest, write, at_put (by simp), entryIn_cons hfile]
    by_cases hname : inner = [file.1]
    · simp [hname]
    · simp [hname]

theorem at_writeFiles_outside (ho : ∀ name, other ≠ place ++ [name]) :
    (files.foldl (fun d file => d.write (place ++ [file.1]) file.2) disk).at? other =
      disk.at? other := by
  induction files generalizing disk with
  | nil => rfl
  | cons file rest ih => rw [List.foldl_cons, ih, write, at_put (by simp), if_neg (ho file.1)]

theorem writeFiles_home :
    (files.foldl (fun d file => d.write (place ++ [file.1]) file.2) disk).home =
      disk.home := by
  induction files generalizing disk with
  | nil => rfl
  | cons file rest ih => exact ih

/-- Files can be written into a directory only if it is there. -/
theorem writeFiles_ok (hnames : ".." ∉ files.map Prod.fst)
    (h : writeFiles route files disk = .ok () next) :
    next = files.foldl (fun d file => d.write (route.place disk.home ++ [file.1]) file.2) disk ∧
      (files ≠ [] → disk.at? (route.place disk.home) = some .directory) := by
  induction files generalizing disk with
  | nil => exact ⟨(EStateM.Result.ok.inj h).2.symm, fun hne => absurd rfl hne⟩
  | cons file rest ih =>
    obtain ⟨name, contents⟩ := file
    rw [List.map_cons, List.mem_cons, not_or] at hnames
    obtain ⟨_, middle, hfirst, hrest⟩ := Job.bind_ok.mp h
    obtain ⟨hdirectory, rfl⟩ := writeFile_ok (Job.attempt_ok hfirst)
    rw [Route.place_join _ _ (Ne.symm hnames.1)] at hdirectory hrest
    rw [List.dropLast_concat] at hdirectory
    obtain ⟨rfl, -⟩ := ih hnames.2 hrest
    exact ⟨rfl, fun _ => hdirectory⟩

end Files

/-- Directories are made at some places where nothing was, and nothing else changes. -/
structure Extends (places : List Place) (disk next : Disk) : Prop where
  home : next.home = disk.home
  kept : ∀ other, other ∉ places → next.at? other = disk.at? other
  read : ∀ other, next.read? other = disk.read? other

namespace Extends

variable {places : List Place} {last : Disk}

theorem refl (places : List Place) (disk : Disk) : disk.Extends places disk :=
  ⟨rfl, fun _ _ => rfl, fun _ => rfl⟩

theorem trans (h : disk.Extends places next) (hlast : next.Extends places last) :
    disk.Extends places last where
  home := hlast.home.trans h.home
  kept other ho := (hlast.kept other ho).trans (h.kept other ho)
  read other := (hlast.read other).trans (h.read other)

theorem of_createUnlessThere (hplace : route.place disk.home ∈ places)
    (h : createUnlessThere route disk = .ok () next) : disk.Extends places next := by
  rcases createUnlessThere_ok h with rfl | ⟨hfree, hne, rfl⟩
  · exact refl places next
  · have hat : ∀ other, (disk.makeDirectory (route.place disk.home)).at? other =
        if other = route.place disk.home then some .directory else disk.at? other :=
      fun _ => at_put hne .directory
    constructor
    case home => rfl
    case kept =>
      intro other ho
      refine (hat other).trans (if_neg ?_)
      rintro rfl
      exact ho hplace
    case read =>
      intro other
      unfold read?
      rw [hat]
      by_cases hother : other = route.place disk.home
      · rw [if_pos hother, hother, hfree]
      · rw [if_neg hother]

theorem of_createDirectories (h : createDirectories route disk = .ok () next) :
    disk.Extends ((route.ancestors ++ [route]).map (Route.place disk.home)) next := by
  generalize hplaces : (route.ancestors ++ [route]).map (Route.place disk.home) = places
  refine Job.forM_ok (R := fun a b => a.home = disk.home → a.Extends places b) ?_ ?_ ?_ h rfl
  · exact fun d _ => refl places d
  · intro a b c hab hbc ha
    exact (hab ha).trans (hbc ((hab ha).home.trans ha))
  · intro step hstep d e hde hd
    exact of_createUnlessThere (hd ▸ hplaces ▸ List.mem_map_of_mem hstep) hde

end Extends

/-- A path leads to a directory that may be replaced. The directory is not on the way to itself, and
where there is anything in it, all the directories on the way are there. -/
structure Leads (disk : Disk) (route : Route) : Prop where
  named : route.isNamed = true
  found : ∀ inner, disk.at? (route.place disk.home ++ inner) ≠ none →
    ∀ step ∈ route.way disk.home ++ [route.place disk.home], disk.at? step = some .directory
  apart : ∀ step ∈ route.way disk.home, ¬ route.place disk.home <+: step

/-- On a disk everything lies in a directory. -/
def Sound (disk : Disk) : Prop :=
  ∀ entry ∈ disk.entries, entry.1 = [] ∨ disk.at? entry.1.dropLast = some .directory

instance (disk : Disk) : Decidable disk.Sound :=
  inferInstanceAs (Decidable (∀ entry ∈ disk.entries, _))

theorem Sound.parent (hd : disk.Sound) {name : String} (h : disk.at? (place ++ [name]) ≠ none) :
    disk.at? place = some .directory := by
  rw [at_lookup (by simp)] at h
  obtain ⟨entry, hentry⟩ := Option.ne_none_iff_exists'.mp h
  obtain ⟨before, after, hentries, -⟩ := List.lookup_eq_some_iff.mp hentry
  have hm : (place ++ [name], entry) ∈ disk.entries := by simp [hentries]
  simpa using hd _ hm

theorem Sound.way (hd : disk.Sound) {inner : Place} (hne : inner ≠ [])
    (h : disk.at? (place ++ inner) ≠ none) : disk.at? place = some .directory := by
  induction inner generalizing place with
  | nil => exact absurd rfl hne
  | cons name rest ih =>
    have hsplit : place ++ name :: rest = (place ++ [name]) ++ rest := by simp
    rw [hsplit] at h
    by_cases hrest : rest = []
    · rw [hrest, List.append_nil] at h
      exact hd.parent h
    · have hstep : disk.at? (place ++ [name]) ≠ none := by simp [ih hrest h]
      exact hd.parent hstep

namespace Leads

/-- A path of names leads to where it says, unless a file is there. -/
theorem of_names (hd : disk.Sound) (hn : route.isNamed = true) (hup : ".." ∉ route.steps)
    (hfile : disk.read? (route.place disk.home) = none) : disk.Leads route := by
  have hway := Route.way_of_isNamed disk.home hn
  constructor
  case named => exact hn
  case found =>
    intro inner hsome step hstep
    rcases List.mem_append.mp hstep with hm | hm
    · obtain ⟨rest, hrest, hplace⟩ := Route.ancestor_of_names hup (hway ▸ hm)
      rw [← hplace, List.append_assoc] at hsome
      exact hd.way (by simp [hrest]) hsome
    · obtain rfl := List.mem_singleton.mp hm
      by_cases hinner : inner = []
      · rw [hinner, List.append_nil] at hsome
        unfold read? at hfile
        split at hfile
        · cases hfile
        · rename_i hnot
          obtain ⟨entry, hentry⟩ := Option.ne_none_iff_exists'.mp hsome
          cases entry with
          | directory => exact hentry
          | file contents => exact absurd hentry (hnot contents)
      · exact hd.way hinner hsome
  case apart =>
    intro step hstep hprefix
    obtain ⟨rest, hrest, hplace⟩ := Route.ancestor_of_names hup (hway ▸ hstep)
    have hlen := hprefix.length_le
    rw [← hplace, List.length_append] at hlen
    exact hrest (List.length_eq_zero_iff.mp (by omega))

/-- Where a path leads to a directory, nothing is left of it after it is removed. -/
theorem removed (h : disk.Leads route) (hnext : removeDirectory route disk = .ok () next)
    (inner : Place) : next.at? (route.place disk.home ++ inner) = none := by
  obtain ⟨before, name, hplace⟩ := Route.place_of_isNamed disk.home h.named
  rcases removeDirectory_ok hnext with ⟨rfl, -⟩ | ⟨rfl, hnone⟩
  · rw [at_remove (by simp [hplace]), if_pos (by simp)]
  · refine Decidable.byContradiction fun hsome => ?_
    have hway := h.found inner hsome
    have hfollow := follow_ok.mpr ⟨Route.isEmpty_of_isNamed h.named,
      fun step hstep => hway step (List.mem_append_left _ hstep), rfl⟩
    rcases hnone with hmissing | ⟨-, hfree⟩
    · rw [hfollow] at hmissing
      cases hmissing
    · rw [hway _ (List.mem_append_right _ (List.mem_singleton.mpr rfl))] at hfree
      cases hfree

/-- A directory that is made anew is empty. -/
theorem fresh (h : disk.Leads route) {made : Disk} {inner : Place} (hinner : inner ≠ [])
    (hnext : removeDirectory route disk = .ok () next)
    (hmade : next.Extends ((route.ancestors ++ [route]).map (Route.place disk.home)) made) :
    made.at? (route.place disk.home ++ inner) = none := by
  have hnew : route.place disk.home ++ inner ∉
      (route.ancestors ++ [route]).map (Route.place disk.home) := by
    rw [List.map_append, List.mem_append, not_or, ← Route.way_of_isNamed disk.home h.named]
    exact ⟨fun hstep => h.apart _ hstep (List.prefix_append _ _), by simpa using hinner⟩
  rw [hmade.kept _ hnew, h.removed hnext]

end Leads

/-- A directory that is replaced holds the new files. Nothing else is in it if its path leads to it,
and the files elsewhere are the same as before. -/
structure Replaced (disk : Disk) (route : Route) (files : List (String × String))
    (written : Disk) : Prop where
  home : written.home = disk.home
  directory : written.at? (route.place disk.home) = some .directory
  inside : ∀ name contents, files.lookup name = some contents →
    written.at? (route.place disk.home ++ [name]) = some (.file contents)
  only : disk.Leads route → ∀ inner,
    written.at? (route.place disk.home ++ inner) = entryIn files inner
  outside : ∀ other, ¬ route.place disk.home <+: other → written.read? other = disk.read? other

theorem replaceDirectory_ok {files : List (String × String)} {written : Disk}
    (hn : (files.map Prod.fst).Nodup) (hnames : ".." ∉ files.map Prod.fst) (hne : files ≠ [])
    (h : replaceDirectory route files disk = .ok () written) :
    disk.Replaced route files written := by
  obtain ⟨_, cleared, hcleared, h⟩ := Job.bind_ok.mp h
  obtain ⟨_, made, hmade, h⟩ := Job.bind_ok.mp h
  have hclearedHome := removeDirectory_home hcleared
  have hextends := Extends.of_createDirectories hmade
  have hhome : made.home = disk.home := hextends.home.trans hclearedHome
  obtain ⟨rfl, hdirectory⟩ := writeFiles_ok hnames h
  rw [hhome] at hdirectory ⊢
  rw [hclearedHome] at hextends
  constructor
  case home => exact writeFiles_home.trans hhome
  case directory =>
    rw [at_writeFiles_outside (by simp)]
    exact hdirectory hne
  case inside =>
    intro name contents hname
    rw [at_writeFiles hn (List.cons_ne_nil _ _), entryIn, hname]
    rfl
  case only =>
    intro hleads inner
    by_cases hinner : inner = []
    · rw [hinner, List.append_nil, at_writeFiles_outside (by simp)]
      exact hdirectory hne
    · rw [at_writeFiles hn hinner, hleads.fresh hinner hcleared hextends, Option.or_none]
  case outside =>
    intro other hother
    have hname : ∀ name, other ≠ route.place disk.home ++ [name] := by
      rintro name rfl
      exact hother (List.prefix_append _ _)
    have hread := (hextends.read other).trans (removeDirectory_read hcleared hother)
    unfold read? at hread ⊢
    rw [at_writeFiles_outside hname]
    exact hread

end Disk

end GameRoster
