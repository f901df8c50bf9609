import GameRoster.Proofs.Growth

namespace GameRoster

namespace Id

theorem Family.tag_injective {f g : Family} (h : f.tag = g.tag) : f = g := by
  cases f <;> cases g <;> first | rfl | exact absurd h (by decide)

theorem Family.point_not_mem_tag (f : Family) : '.' ∉ f.tag.toList := by
  cases f <;> decide

theorem Parts.read?_point {text : List Char} {parts : Parts} (h : read? text = some parts) :
    ∃ rest, text = '.' :: rest := by
  obtain ⟨split, hs, _⟩ := Option.bind_eq_some_iff.mp h
  unfold split? at hs
  split at hs
  · exact ⟨_, rfl⟩
  · cases hs

/-- An id reads as its tag up to the first point. -/
theorem tag_of_parts {family : Family} {text : String} {parts : Parts}
    (h : parts? family text = .ok parts) :
    text.toList.takeWhile (· != '.') = family.tag.toList := by
  unfold parts? at h
  split at h
  · cases h
  · rename_i rest hstrip
    split at h
    · cases h
    · rename_i read hread
      obtain ⟨after, hafter⟩ := Parts.read?_point hread
      have hchars : ∀ c ∈ family.tag.toList, (c != '.') = true := by
        intro c hc
        have hne : c ≠ '.' := fun he => family.point_not_mem_tag (he ▸ hc)
        simpa using hne
      rw [Text.eq_append_of_strip? hstrip, hafter, List.takeWhile_append_of_pos hchars,
        List.takeWhile_cons_of_neg (by simp), List.append_nil]

/-- No text is an id of two families. -/
theorem family_unique {f g : Family} {text : String} {p q : Parts} (hf : parts? f text = .ok p)
    (hg : parts? g text = .ok q) : f = g := by
  have htags : f.tag.toList = g.tag.toList := (tag_of_parts hf).symm.trans (tag_of_parts hg)
  exact Family.tag_injective (String.toList_inj.mp htags)

theorem parts_of_symbols {family : Family} {text : String} {symbols : List String}
    (h : symbols? family text = .ok symbols) : ∃ parts, parts? family text = .ok parts := by
  unfold symbols? at h
  cases hp : parts? family text with
  | error violation => simp [hp, Except.map] at h
  | ok parts => exact ⟨parts, rfl⟩

end Id

theorem Draft.Builds.kind_eq {draft : Draft} {id : String} {r : Resource}
    (h : draft.Builds id r) : r.kind = draft.kind := by
  cases h <;> rfl

namespace Registry

/-- Every resource is registered under an id of the family of its kind. -/
def Filed (reg : Registry) : Prop :=
  ∀ r ∈ reg.resources, ∃ parts, Id.parts? r.kind.family r.id = .ok parts

theorem Filed.grow {reg grown : Registry} (h : reg.Filed) (hg : reg.Grows grown) :
    grown.Filed := by
  cases hg with
  | define => exact h
  | @add id draft symbols r wellFormed free built =>
    intro q hq
    simp only [push, List.mem_append, List.mem_singleton] at hq
    rcases hq with hq | rfl
    · exact h q hq
    · rw [built.kind_eq, built.id_eq]
      exact Id.parts_of_symbols wellFormed

theorem Reachable.filed {reg : Registry} (h : reg.Reachable) : reg.Filed :=
  Reachable.preserves Filed.grow (by simp [Filed, Registry.empty]) h

/-- What a reference finds is of a kind that has its family. -/
theorem Filed.family {reg : Registry} (h : reg.Filed) {family : Id.Family} {id : Ref family}
    {r : Resource} (hf : reg.find? id.text = some r) : r.kind.family = family := by
  obtain ⟨hm, hid⟩ := mem_of_find hf
  obtain ⟨parts, hp⟩ := h r hm
  obtain ⟨others, ho⟩ := id.wellFormed
  rw [hid] at hp
  exact Id.family_unique hp ho

end Registry

end GameRoster
