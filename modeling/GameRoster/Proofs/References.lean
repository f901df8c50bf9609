import GameRoster.Proofs.Growth
import GameRoster.Proofs.Verified

namespace GameRoster

/-- An id that a resource holds, and what should be registered under it. -/
structure Reference where
  id : String
  expected : Expected
deriving DecidableEq

namespace Reference

variable {family : Id.Family}

def one (expected : Expected) (ref : Ref family) : Reference := ⟨ref.text, expected⟩

/-- The references of a list of ids. -/
def each (expected : Expected) (refs : List (Ref family)) : List Reference :=
  refs.map (one expected)

/-- The references of the keys of a table. -/
def keys {β : Type} (expected : Expected) (rows : List (Ref family × β)) : List Reference :=
  rows.map fun row => one expected row.1

end Reference

/-- Whether a resource is what a reference expects. -/
def Expected.accepts : Expected → Resource → Bool
  | .kind k, r => r.kind == k
  | .action, r => r.actionBase?.isSome

open Reference in
def Character.references (c : Character) : List Reference :=
  each (.kind .style) c.styles ++ each (.kind .equipment) c.equipments

open Reference in
def Style.references (s : Style) : List Reference :=
  one (.kind .character) s.character :: each (.kind .perk) s.perks ++
    each (.kind .perk) s.usablePerks ++ each .action s.actions

open Reference in
def Equipment.references (e : Equipment) : List Reference :=
  one (.kind .character) e.character :: keys (.kind .equipment) (e.parents.getD []) ++
    keys (.kind .entry) (e.entries.getD [])

open Reference in
def Perk.references (p : Perk) : List Reference :=
  one (.kind .character) p.character :: one (.kind .style) p.style ::
    each (.kind .style) p.usableStyles ++ keys (.kind .perk) (p.parents.getD []) ++
    keys (.kind .entry) (p.entries.getD [])

open Reference in
def Jewel.references (j : Jewel) : List Reference :=
  one (.kind .entry) j.entry :: keys (.kind .entry) j.sub.toList

open Reference in
def AccessoryPool.references (p : AccessoryPool) : List Reference :=
  keys (.kind .entry) p.aEntries ++ keys (.kind .entry) p.bEntries

open Reference in
def Accessory.references (a : Accessory) : List Reference :=
  [one (.kind .accessoryPool) a.pool, one (.kind .entry) a.entry]

open Reference in
def ActionBase.references (base : ActionBase) : List Reference :=
  one (.kind .character) base.character :: each (.kind .style) base.styles

/-- The rules of a general action refer to every action that they may lead to. -/
def ActionGeneral.references (a : ActionGeneral) : List Reference :=
  a.base.references ++
    (a.derives.getD []).flatMap fun rule => Reference.each .action rule.action.candidates

def ActionMove.references (a : ActionMove) : List Reference :=
  a.base.references ++ Reference.each (.kind .actionMove) a.smoothMoveFroms

/-- Entries refer to variables only, and zones to nothing. -/
def Resource.references : Resource → List Reference
  | .character c => c.references
  | .style s => s.references
  | .equipment e => e.references
  | .entry _ => []
  | .perk p => p.references
  | .jewel j => j.references
  | .accessoryPool p => p.references
  | .accessory a => a.references
  | .zone _ => []
  | .actionIdle a => a.base.references
  | .actionGeneral a => a.references
  | .actionMove a => a.references

namespace Registry

/-- A reference leads to a registered resource that its holder expects. -/
def Resolves (reg : Registry) (ref : Reference) : Prop :=
  ∃ r, reg.find? ref.id = some r ∧ ref.expected.accepts r = true

theorem resolves_action {reg : Registry} {id : Ref .action} {a : ActionBase}
    (h : reg.lookup? Resource.actionBase? id.text = some a) :
    reg.Resolves (.one .action id) := by
  obtain ⟨r, hr, ha⟩ := Option.bind_eq_some_iff.mp h
  exact ⟨r, hr, Option.isSome_of_mem ha⟩

end Registry

/-- An entry table that is left out refers to nothing. -/
theorem EntryTable.references_resolve {reg : Registry} {entries : Option EntryTable}
    (h : ∀ table ∈ entries, EntryTable.Verified table reg) :
    ∀ ref ∈ Reference.keys (.kind .entry) (entries.getD []), reg.Resolves ref := by
  cases entries with
  | none => simp [Reference.keys]
  | some table =>
    simp only [Reference.keys, Option.getD_some, List.forall_mem_map]
    intro row hrow
    obtain ⟨e, he, _⟩ := h table rfl row hrow
    exact ⟨_, Registry.lookup_entry.mp he, rfl⟩

theorem Character.Verified.references_resolve {c : Character} {reg : Registry}
    (h : c.Verified reg) : ∀ ref ∈ c.references, reg.Resolves ref := by
  simp only [Character.references, Reference.each, List.forall_mem_append, List.forall_mem_map]
  constructor
  · intro id hid
    obtain ⟨s, hs, _⟩ := h.styles id hid
    exact ⟨_, Registry.lookup_style.mp hs, rfl⟩
  · intro id hid
    obtain ⟨e, he, _⟩ := h.equipments id hid
    exact ⟨_, Registry.lookup_equipment.mp he, rfl⟩

theorem Style.Verified.references_resolve {s : Style} {reg : Registry} (h : s.Verified reg) :
    ∀ ref ∈ s.references, reg.Resolves ref := by
  simp only [Style.references, Reference.each, List.cons_append, List.forall_mem_cons,
    List.forall_mem_append, List.forall_mem_map]
  refine ⟨?_, ⟨?_, ?_⟩, ?_⟩
  · obtain ⟨c, hc, _⟩ := h.character
    exact ⟨_, Registry.lookup_character.mp hc, rfl⟩
  · intro id hid
    obtain ⟨p, hp, _⟩ := h.perks id hid
    exact ⟨_, Registry.lookup_perk.mp hp, rfl⟩
  · intro id hid
    obtain ⟨p, hp, _⟩ := h.usablePerks id hid
    exact ⟨_, Registry.lookup_perk.mp hp, rfl⟩
  · intro id hid
    obtain ⟨a, ha, _⟩ := h.actions id hid
    exact Registry.resolves_action ha

theorem Equipment.Verified.references_resolve {e : Equipment} {reg : Registry}
    (h : e.Verified reg) : ∀ ref ∈ e.references, reg.Resolves ref := by
  simp only [Equipment.references, List.cons_append, List.forall_mem_cons, List.forall_mem_append]
  refine ⟨?_, ?_, EntryTable.references_resolve h.entries⟩
  · obtain ⟨c, hc, _⟩ := h.character
    exact ⟨_, Registry.lookup_character.mp hc, rfl⟩
  · simp only [Reference.keys, List.forall_mem_map]
    intro row hrow
    obtain ⟨parent, hp, _⟩ := h.parents row hrow
    exact ⟨_, Registry.lookup_equipment.mp hp, rfl⟩

theorem Perk.Verified.references_resolve {p : Perk} {reg : Registry} (h : p.Verified reg) :
    ∀ ref ∈ p.references, reg.Resolves ref := by
  simp only [Perk.references, List.cons_append, List.forall_mem_cons, List.forall_mem_append]
  refine ⟨?_, ?_, ⟨?_, ?_⟩, EntryTable.references_resolve h.entries⟩
  · obtain ⟨c, hc⟩ := h.character
    exact ⟨_, Registry.lookup_character.mp hc, rfl⟩
  · obtain ⟨s, hs, _⟩ := h.style
    exact ⟨_, Registry.lookup_style.mp hs, rfl⟩
  · simp only [Reference.each, List.forall_mem_map]
    intro id hid
    obtain ⟨s, hs, _⟩ := h.usableStyles id hid
    exact ⟨_, Registry.lookup_style.mp hs, rfl⟩
  · simp only [Reference.keys, List.forall_mem_map]
    intro row hrow
    obtain ⟨parent, hp, _⟩ := h.parents row hrow
    exact ⟨_, Registry.lookup_perk.mp hp, rfl⟩

theorem Jewel.Verified.references_resolve {j : Jewel} {reg : Registry} (h : j.Verified reg) :
    ∀ ref ∈ j.references, reg.Resolves ref := by
  simp only [Jewel.references, Reference.keys, List.forall_mem_cons, List.forall_mem_map]
  constructor
  · obtain ⟨e, he, _⟩ := h.entry
    exact ⟨_, Registry.lookup_entry.mp he, rfl⟩
  · intro sub hsub
    obtain ⟨e, he, _⟩ := h.sub sub (Option.mem_toList.mp hsub)
    exact ⟨_, Registry.lookup_entry.mp he, rfl⟩

theorem AccessoryPool.Verified.references_resolve {p : AccessoryPool} {reg : Registry}
    (h : p.Verified reg) : ∀ ref ∈ p.references, reg.Resolves ref := by
  simp only [AccessoryPool.references, Reference.keys, List.forall_mem_append,
    List.forall_mem_map]
  constructor
  · intro row hrow
    obtain ⟨e, he⟩ := h.aEntries row hrow
    exact ⟨_, Registry.lookup_entry.mp he, rfl⟩
  · intro row hrow
    obtain ⟨e, he⟩ := h.bEntries row hrow
    exact ⟨_, Registry.lookup_entry.mp he, rfl⟩

theorem Accessory.Verified.references_resolve {a : Accessory} {reg : Registry}
    (h : a.Verified reg) : ∀ ref ∈ a.references, reg.Resolves ref := by
  simp only [Accessory.references, List.forall_mem_cons]
  refine ⟨?_, ?_, by simp⟩
  · obtain ⟨p, hp⟩ := h.pool
    exact ⟨_, Registry.lookup_accessoryPool.mp hp, rfl⟩
  · obtain ⟨e, he, _⟩ := h.entry
    exact ⟨_, Registry.lookup_entry.mp he, rfl⟩

theorem ActionBase.Verified.references_resolve {base : ActionBase} {id : String}
    {reg : Registry} (h : base.Verified id reg) : ∀ ref ∈ base.references, reg.Resolves ref := by
  simp only [ActionBase.references, Reference.each, List.forall_mem_cons, List.forall_mem_map]
  constructor
  · obtain ⟨c, hc⟩ := h.character
    exact ⟨_, Registry.lookup_character.mp hc, rfl⟩
  · intro style hstyle
    obtain ⟨s, hs, _⟩ := h.styles style hstyle
    exact ⟨_, Registry.lookup_style.mp hs, rfl⟩

theorem ActionGeneral.Verified.references_resolve {a : ActionGeneral} {reg : Registry}
    (h : a.Verified reg) : ∀ ref ∈ a.references, reg.Resolves ref := by
  simp only [ActionGeneral.references, List.forall_mem_append]
  refine ⟨h.base.references_resolve, ?_⟩
  intro ref href
  obtain ⟨rule, hrule, hc⟩ := List.mem_flatMap.mp href
  obtain ⟨id, hid, rfl⟩ := List.mem_map.mp hc
  cases hd : a.derives with
  | none => simp [hd] at hrule
  | some rules =>
    rw [hd, Option.getD_some] at hrule
    obtain ⟨target, ht⟩ := (h.derives rules hd rule hrule).candidates id hid
    exact Registry.resolves_action ht

theorem ActionMove.Verified.references_resolve {a : ActionMove} {reg : Registry}
    (h : a.Verified reg) : ∀ ref ∈ a.references, reg.Resolves ref := by
  simp only [ActionMove.references, Reference.each, List.forall_mem_append, List.forall_mem_map]
  refine ⟨h.base.references_resolve, ?_⟩
  intro id hid
  obtain ⟨source, hs⟩ := h.smoothMoveFroms id hid
  exact ⟨_, Registry.lookup_actionMove.mp hs, rfl⟩

theorem Resource.Verified.references_resolve {r : Resource} {reg : Registry}
    (h : r.Verified reg) : ∀ ref ∈ r.references, reg.Resolves ref := by
  cases r with
  | character c => exact Character.Verified.references_resolve h
  | style s => exact Style.Verified.references_resolve h
  | equipment e => exact Equipment.Verified.references_resolve h
  | entry e => simp [references]
  | perk p => exact Perk.Verified.references_resolve h
  | jewel j => exact Jewel.Verified.references_resolve h
  | accessoryPool p => exact AccessoryPool.Verified.references_resolve h
  | accessory a => exact Accessory.Verified.references_resolve h
  | zone z => simp [references]
  | actionIdle a => exact ActionBase.Verified.references_resolve h
  | actionGeneral a => exact ActionGeneral.Verified.references_resolve h
  | actionMove a => exact ActionMove.Verified.references_resolve h

namespace Registry

/-- No reference that a verified registry holds dangles: the registry finds a resource of the
kind that its holder expects, and nothing else is registered under that id. -/
theorem no_dangling_references {reg : Registry} (hr : reg.Reachable) (hv : reg.verify = .ok ()) :
    ∀ r ∈ reg.resources, ∀ ref ∈ r.references,
      ∃ target ∈ reg.resources, reg.find? ref.id = some target ∧
        ref.expected.accepts target = true ∧
        ∀ other ∈ reg.resources, other.id = ref.id → other = target := by
  intro r hm ref href
  obtain ⟨target, ht, ha⟩ := (verify_ok.mp hv r hm).references_resolve ref href
  refine ⟨target, (mem_of_find ht).1, ht, ha, ?_⟩
  intro other ho hoid
  have hf := hr.sound.find ho
  rw [hoid, ht] at hf
  exact (Option.some.inj hf).symm

theorem archer_no_dangling : archer.Reachable ∧ archer.verify = .ok () ∧
    ∀ r ∈ archer.resources, ∀ ref ∈ r.references,
      ∃ target ∈ archer.resources, archer.find? ref.id = some target ∧
        ref.expected.accepts target = true ∧
        ∀ other ∈ archer.resources, other.id = ref.id → other = target :=
  ⟨archer_reachable, archer_verify, no_dangling_references archer_reachable archer_verify⟩

end Registry

end GameRoster
