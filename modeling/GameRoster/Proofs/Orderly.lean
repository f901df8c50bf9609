import GameRoster.Proofs.Bounds
import GameRoster.Proofs.Declarations
import GameRoster.Proofs.Families
import GameRoster.Proofs.Ids
import GameRoster.Proofs.Symbols

namespace GameRoster

/-- The owners that an author lists. -/
def OwnersDraft.listed : OwnersDraft → List String
  | .anyone => []
  | .one id => [id]
  | .many ids => ids

namespace Variable

def Owners.texts (owners : Owners) : List String :=
  owners.characters.map Ref.text ++ owners.styles.map Ref.text

theorem Owners.add_texts (owners : Owners) (loc : Location) (owner : String) :
    Check.Yields (fun added => added.texts.Perm (owners.texts ++ [owner]))
      (owners.add loc owner) := by
  unfold Owners.add
  split_ifs
  · refine .bind fun id hid => .pure ?_
    simp only [texts, List.map_append, List.map_cons, List.map_nil, Ref.ofText_text _ _ id hid,
      List.append_assoc]
    exact List.Perm.append_left _ List.perm_append_comm
  · refine .bind fun id hid => .pure ?_
    simp only [texts, List.map_append, List.map_cons, List.map_nil, Ref.ofText_text _ _ id hid,
      List.append_assoc]
    exact .rfl
  · exact .fault

theorem Owners.addFrom_texts (loc : Location) (i : Nat) (owners : Owners) (listed : List String) :
    Check.Yields (fun added => added.texts.Perm (owners.texts ++ listed))
      (Owners.addFrom loc i owners listed) := by
  induction listed generalizing i owners with
  | nil => exact .ok (by simp)
  | cons owner rest ih =>
    unfold Owners.addFrom
    refine .bind fun grown hgrown => (ih (i + 1) grown).mono fun added hadded => ?_
    have hone := owners.add_texts _ _ grown hgrown
    rw [List.append_cons]
    exact hadded.trans (hone.append_right rest)

/-- No owner is left out, and each is in one list only. -/
theorem Owners.ofDraft_texts (loc : Location) (draft : OwnersDraft) :
    Check.Yields (fun owners => owners.texts.Perm draft.listed) (Owners.ofDraft loc draft) := by
  cases draft with
  | anyone => exact .ok .rfl
  | one id => exact Owners.add_texts ⟨[], []⟩ loc id
  | many ids => exact Owners.addFrom_texts loc 0 ⟨[], []⟩ ids

/-- A variable has an id of its family and at least two levels. Its owners are the ones that its
definition lists, characters and styles apart, and there are none if anyone may read it. -/
structure Defined (v : Variable) : Prop where
  id : ∃ p, Id.Spells .variable v.id.text p
  maxLevel : 1 ≤ v.maxLevel
  characters : ∀ owner ∈ v.characters, ∃ p, Id.Spells .character owner.text p
  styles : ∀ owner ∈ v.styles, ∃ p, Id.Spells .style owner.text p
  owners : ∃ draft, ofDraft v.id.text draft = .ok v ∧
    (v.characters.map Ref.text ++ v.styles.map Ref.text).Perm draft.owners.listed
  unrestricted : v.unrestricted = true → v.characters = [] ∧ v.styles = []

theorem ofDraft_owners (id : String) (draft : VariableDraft) :
    Check.Yields (fun v : Variable =>
      (v.characters.map Ref.text ++ v.styles.map Ref.text).Perm draft.owners.listed ∧
      (v.unrestricted = true → draft.owners = .anyone)) (ofDraft id draft) := by
  unfold ofDraft
  refine .step fun ref => .step fun maxLevel => .bind fun owners howners => .pure ?_
  exact ⟨Owners.ofDraft_texts _ _ owners howners, fun h => eq_of_beq h⟩

theorem ofDraft_defined {id : String} {draft : VariableDraft} {v : Variable}
    (h : ofDraft id draft = .ok v) : v.Defined := by
  obtain ⟨howners, hanyone⟩ := ofDraft_owners id draft v h
  constructor
  case id => exact v.id.spells
  case maxLevel => exact ofDraft_levels id draft v h
  case characters => exact fun owner _ => owner.spells
  case styles => exact fun owner _ => owner.spells
  case owners => exact ⟨draft, (ofDraft_id id draft v h).symm ▸ h, howners⟩
  case unrestricted =>
    intro hu
    rw [hanyone hu] at howners
    obtain ⟨hc, hs⟩ := List.append_eq_nil_iff.mp howners.eq_nil
    exact ⟨List.map_eq_nil_iff.mp hc, List.map_eq_nil_iff.mp hs⟩

end Variable

namespace Registry

variable {reg grown : Registry}

/-- Each variable was defined under its own id, and no other one has that id. -/
structure Defined (reg : Registry) : Prop where
  ids : (reg.definitions.map fun v => v.id.text).Nodup
  defined : ∀ v ∈ reg.definitions, v.Defined

theorem Defined.grow (h : reg.Defined) (hg : reg.Grows grown) : grown.Defined := by
  cases hg with
  | @define id draft v free built =>
    constructor
    case ids =>
      rw [List.map_append, List.map_cons, List.map_nil, ← List.concat_eq_append]
      refine h.ids.concat ?_
      rw [Variable.ofDraft_id id draft v built]
      intro hm
      obtain ⟨other, ho, he⟩ := List.mem_map.mp hm
      have hne := List.find?_eq_none.mp free other ho
      exact hne (beq_iff_eq.mpr he)
    case defined =>
      exact List.forall_mem_append.mpr
        ⟨h.defined, List.forall_mem_singleton.mpr (Variable.ofDraft_defined built)⟩
  | add => exact ⟨h.ids, h.defined⟩

theorem Reachable.defined (h : reg.Reachable) : reg.Defined :=
  Reachable.preserves Defined.grow ⟨List.nodup_nil, by simp [Registry.empty]⟩ h

theorem mem_of_definition {id : String} {v : Variable} (h : reg.definition? id = some v) :
    v ∈ reg.definitions ∧ v.id.text = id :=
  ⟨List.mem_of_find?_eq_some h, by simpa using List.find?_some h⟩

/-- A defined variable is what its id leads to. -/
theorem Defined.definition (h : reg.Defined) {v : Variable} (hv : v ∈ reg.definitions) :
    reg.definition? v.id.text = some v := by
  cases hd : reg.definition? v.id.text with
  | none =>
    have hne := List.find?_eq_none.mp hd v hv
    exact absurd (beq_self_eq_true _) hne
  | some found =>
    obtain ⟨hm, hid⟩ := mem_of_definition hd
    rw [List.inj_on_of_nodup_map h.ids hm hv hid]

/-- The symbols are those of the ids of the registered resources, in ascending order. -/
structure Symbolized (reg : Registry) : Prop where
  mem_iff : ∀ s, s ∈ reg.symbols ↔
    ∃ r ∈ reg.resources, ∃ p, Id.Spells r.kind.family r.id p ∧ s ∈ p.symbolTexts
  ascending : reg.symbols.Pairwise (· < ·)

theorem Symbolized.grow (h : reg.Symbolized) (hg : reg.Grows grown) : grown.Symbolized := by
  cases hg with
  | define => exact ⟨h.mem_iff, h.ascending⟩
  | @add id draft symbols r wellFormed free built =>
    obtain ⟨p, hp, rfl⟩ := Id.symbols?_ok.mp wellFormed
    rw [← built.kind_eq, ← built.id_eq] at hp
    refine ⟨fun s => ?_, insertSymbols_ascending h.ascending⟩
    have hnew : s ∈ p.symbolTexts ↔
        ∃ q, Id.Spells r.kind.family r.id q ∧ s ∈ q.symbolTexts := by
      constructor
      · exact fun hs => ⟨p, hp, hs⟩
      · rintro ⟨q, hq, hs⟩
        rwa [hp.unique hq]
    simp only [push, mem_insertSymbols, h.mem_iff, hnew, List.mem_append, List.mem_singleton,
      or_and_right, exists_or, exists_eq_left]

theorem Reachable.symbolized (h : reg.Reachable) : reg.Symbolized :=
  Reachable.preserves Symbolized.grow ⟨by simp [Registry.empty], .nil⟩ h

/-- How resources, symbols and variables of a registry hang together. -/
structure Orderly (reg : Registry) : Prop where
  stored : ∀ r ∈ reg.resources, reg.find? r.id = some r
  found : ∀ id r, reg.find? id = some r → r ∈ reg.resources ∧ r.id = id
  distinct : (reg.resources.map Resource.id).Nodup
  spelled : ∀ r ∈ reg.resources, ∃ p, Id.Spells r.kind.family r.id p
  symbols : ∀ s, s ∈ reg.symbols ↔
    ∃ r ∈ reg.resources, ∃ p, Id.Spells r.kind.family r.id p ∧ s ∈ p.symbolTexts
  ascending : reg.symbols.Pairwise fun a b => utf8Bytes a < utf8Bytes b
  variableStored : ∀ v ∈ reg.definitions, reg.definition? v.id.text = some v
  variableFound : ∀ id v, reg.definition? id = some v → v ∈ reg.definitions ∧ v.id.text = id
  variableDistinct : (reg.definitions.map fun v => v.id.text).Nodup
  variableDefined : ∀ v ∈ reg.definitions, v.Defined

/-- Every registry that declarations lead to, those that fail included, is orderly. -/
theorem reachable_orderly (hr : reg.Reachable) : reg.Orderly := by
  have hsound := hr.sound
  have hsymbols := hr.symbolized
  have hdefined := hr.defined
  constructor
  case stored => exact fun r hm => hsound.find hm
  case found => exact fun id r hf => mem_of_find hf
  case distinct => exact hsound.ids
  case spelled =>
    intro r hm
    obtain ⟨p, hp⟩ := hr.filed r hm
    exact ⟨p, Id.parts?_ok.mp hp⟩
  case symbols => exact hsymbols.mem_iff
  case ascending => exact hsymbols.ascending.imp utf8Bytes_lt
  case variableStored => exact fun v hm => hdefined.definition hm
  case variableFound => exact fun id v hd => mem_of_definition hd
  case variableDistinct => exact hdefined.ids
  case variableDefined => exact hdefined.defined

/-- The archer after a call that registers one zone and fails at the next, which has a right id
but a wrong file. -/
def traveller : Registry := (archer.declareAll [
  .resource "Zone.Hall" (.zone {
    name := "Hall", zoneFile := "hall.json", viewZoneFile := "hall.tscn" }),
  .resource "Zone.Yard" (.zone {
    name := "Yard", zoneFile := "yard.txt", viewZoneFile := "yard.tscn" })]).registry

theorem traveller_orderly : traveller.Reachable ∧ "Hall" ∈ traveller.symbols ∧
    "Yard" ∉ traveller.symbols ∧ traveller.Orderly := by
  have hr : traveller.Reachable := .run _ archer_reachable
  have hsymbols : "Hall" ∈ traveller.symbols ∧ "Yard" ∉ traveller.symbols := by decide +kernel
  exact ⟨hr, hsymbols.1, hsymbols.2, reachable_orderly hr⟩

end Registry

end GameRoster
