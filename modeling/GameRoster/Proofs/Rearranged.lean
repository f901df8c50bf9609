import GameRoster.Proofs.Larger
import GameRoster.Proofs.Records

namespace GameRoster

namespace Registry

variable {reg first second : Registry}

theorem declareAll_perm {ds other : List Declaration} (h : ds.Perm other) :
    (reg.declareAll ds).outcome = .ok () ↔ (reg.declareAll other).outcome = .ok () := by
  rw [declareAll_ok, declareAll_ok, (h.map Declaration.key).nodup_iff]
  exact and_congr_right fun _ => forall_congr' fun d => by rw [h.mem_iff]

/-- The same resources and variables, in whatever order. -/
structure Shuffled (first second : Registry) : Prop where
  resources : first.resources.Perm second.resources
  definitions : first.definitions.Perm second.definitions

theorem declareAll_shuffled {ds other : List Declaration} (h : ds.Perm other)
    (hds : (reg.declareAll ds).outcome = .ok ()) :
    (reg.declareAll ds).registry.Shuffled (reg.declareAll other).registry := by
  have hmade := h.filterMap Declaration.made?
  rw [declareAll_registry hds, declareAll_registry ((declareAll_perm h).mp hds)]
  constructor
  case resources =>
    rw [extendAll_resources, extendAll_resources]
    exact (hmade.filterMap _).append_left _
  case definitions =>
    rw [extendAll_definitions, extendAll_definitions]
    exact (hmade.filterMap _).append_left _

namespace Shuffled

theorem symm (h : first.Shuffled second) : second.Shuffled first :=
  ⟨h.resources.symm, h.definitions.symm⟩

theorem foundIn (h : first.Shuffled second) (hs : second.Reachable) : first.FoundIn second :=
  Within.foundIn ⟨h.resources.subset, h.definitions.subset⟩ hs

theorem verify (h : first.Shuffled second) (hs : second.Reachable) (hv : first.verify = .ok ()) :
    second.verify = .ok () := by
  refine verify_ok.mpr fun r hr => ?_
  exact (h.foundIn hs).verified (verify_ok.mp hv r (h.resources.mem_iff.mpr hr))

theorem find_eq (h : first.Shuffled second) (hf : first.Reachable) (hs : second.Reachable)
    (id : String) : first.find? id = second.find? id :=
  Option.ext fun _ => ⟨(h.foundIn hs).find, (h.symm.foundIn hf).find⟩

theorem definition_eq (h : first.Shuffled second) (hf : first.Reachable)
    (hs : second.Reachable) (id : String) : first.definition? id = second.definition? id :=
  Option.ext fun _ => ⟨(h.foundIn hs).definition, (h.symm.foundIn hf).definition⟩

/-- Symbols stand in their own order, not in that of registration. -/
theorem symbols_eq (h : first.Shuffled second) (hf : first.Reachable) (hs : second.Reachable) :
    first.symbols = second.symbols := by
  refine ascending_unique hf.symbolized.ascending hs.symbolized.ascending fun s => ?_
  rw [hf.symbolized.mem_iff, hs.symbolized.mem_iff]
  exact exists_congr fun r => and_congr_left' h.resources.mem_iff

end Shuffled

end Registry

namespace Export

/-- The text of an index. -/
def indexText (listing : List (String × Span)) : String :=
  (Value.object (listing.map fun (id, span) => (id, Span.toValue span))).render

/-- What is written holds some records under their ids, each where the listing says. -/
structure Holds (written : Artifacts) (rows : List (String × String))
    (listing : List (String × Span)) : Prop where
  ids : listing.map Prod.fst = rows.map Prod.fst
  data : Laid written.data.toUTF8 (listing.map Prod.snd) (rows.map Prod.snd)
  index : written.index = indexText listing

theorem spansFrom_length (offset : Nat) (records : List String) :
    (spansFrom offset records).map Span.length = records.map String.utf8ByteSize := by
  induction records generalizing offset with
  | nil => rfl
  | cons record rest ih => rw [spansFrom, List.map_cons, List.map_cons, ih]

end Export

namespace Registry

variable {first second : Registry}

/-- The id and the record of each resource, in the order of registration. -/
def rows (reg : Registry) : List (String × String) :=
  reg.resources.map fun r => (r.id, r.record)

/-- The id of each resource, and where its record stands. -/
def listing (reg : Registry) : List (String × Span) :=
  (reg.resources.map Resource.id).zip reg.spans

/-- The id of each resource, and how long its record is. -/
def lengths (reg : Registry) : List (String × Nat) :=
  reg.listing.map fun (id, span) => (id, span.length)

theorem length_spans_resources (reg : Registry) :
    reg.spans.length = (reg.resources.map Resource.id).length := by
  rw [spans, Export.length_spans, List.length_map, List.length_map]

theorem artifacts_hold (reg : Registry) (extra : List String) :
    Export.Holds (reg.artifacts extra) reg.rows reg.listing := by
  have hlen := reg.length_spans_resources
  have hids : reg.listing.map Prod.fst = reg.resources.map Resource.id :=
    List.map_fst_zip hlen.ge
  have hspans : reg.listing.map Prod.snd = reg.spans := List.map_snd_zip hlen.le
  constructor
  case ids =>
    rw [hids, rows, List.map_map]
    rfl
  case data =>
    rw [hspans, rows, List.map_map]
    exact Export.data_laid _
  case index =>
    change (Value.object ((reg.resources.map Resource.id).zip
      (reg.spans.map Export.Span.toValue))).render = _
    rw [List.zip_map_right]
    rfl

theorem lengths_eq (reg : Registry) :
    reg.lengths = reg.resources.map fun r => (r.id, r.record.utf8ByteSize) := by
  have hspans : reg.spans.map Span.length =
      reg.resources.map fun r => r.record.utf8ByteSize := by
    rw [spans, Export.spans, Export.spansFrom_length, List.map_map]
    rfl
  change reg.listing.map (Prod.map id Span.length) = _
  rw [listing, ← List.zip_map_right, hspans, List.zip_map']

/-- Registries that differ in order only. What they export are the same symbols, the same records,
and an index of the same ids with the same lengths. -/
structure Alike (first second : Registry) : Prop where
  find : ∀ id, first.find? id = second.find? id
  definition : ∀ id, first.definition? id = second.definition? id
  records : first.rows.Perm second.rows
  lengths : first.lengths.Perm second.lengths
  written : ∀ extra, ∃ one other, first.render extra = .ok one ∧ second.render extra = .ok other ∧
    one.symbols = other.symbols ∧ Export.Holds one first.rows first.listing ∧
    Export.Holds other second.rows second.listing

theorem Shuffled.alike (h : first.Shuffled second) (hf : first.Reachable) (hs : second.Reachable)
    (hv : first.verify = .ok ()) : first.Alike second := by
  constructor
  case find => exact h.find_eq hf hs
  case definition => exact h.definition_eq hf hs
  case records => exact h.resources.map _
  case lengths =>
    rw [lengths_eq, lengths_eq]
    exact h.resources.map _
  case written =>
    intro extra
    refine ⟨_, _, render_ok.mpr ⟨hv, rfl⟩, render_ok.mpr ⟨h.verify hs hv, rfl⟩, ?_,
      first.artifacts_hold extra, second.artifacts_hold extra⟩
    simp only [artifacts, allSymbols, h.symbols_eq hf hs]

end Registry

namespace Roster

/-- Each map of one roster holds what the same map of the other one holds, in whatever order. -/
structure Rearranged (a b : Roster) : Prop where
  definitions : a.definitions.Perm b.definitions
  characters : a.characters.Perm b.characters
  styles : a.styles.Perm b.styles
  equipments : a.equipments.Perm b.equipments
  entries : a.entries.Perm b.entries
  perks : a.perks.Perm b.perks
  jewels : a.jewels.Perm b.jewels
  accessoryPools : a.accessoryPools.Perm b.accessoryPools
  accessories : a.accessories.Perm b.accessories
  zones : a.zones.Perm b.zones
  idleActions : a.idleActions.Perm b.idleActions
  generalActions : a.generalActions.Perm b.generalActions
  moveActions : a.moveActions.Perm b.moveActions

variable {a b : Roster}

theorem Rearranged.symm (h : a.Rearranged b) : b.Rearranged a where
  definitions := h.definitions.symm
  characters := h.characters.symm
  styles := h.styles.symm
  equipments := h.equipments.symm
  entries := h.entries.symm
  perks := h.perks.symm
  jewels := h.jewels.symm
  accessoryPools := h.accessoryPools.symm
  accessories := h.accessories.symm
  zones := h.zones.symm
  idleActions := h.idleActions.symm
  generalActions := h.generalActions.symm
  moveActions := h.moveActions.symm

theorem resources_perm {α : Type} (draft : α → Draft) {entries other : List (String × α)}
    (h : entries.Perm other) : (resources draft entries).Perm (resources draft other) :=
  h.map _

theorem Rearranged.declarations (h : a.Rearranged b) : a.declarations.Perm b.declarations := by
  have hresources : a.resourceDeclarations.Perm b.resourceDeclarations :=
    resources_perm _ h.characters
      |>.append (resources_perm _ h.styles)
      |>.append (resources_perm _ h.equipments)
      |>.append (resources_perm _ h.entries)
      |>.append (resources_perm _ h.perks)
      |>.append (resources_perm _ h.jewels)
      |>.append (resources_perm _ h.accessoryPools)
      |>.append (resources_perm _ h.accessories)
      |>.append (resources_perm _ h.zones)
      |>.append (resources_perm _ h.idleActions)
      |>.append (resources_perm _ h.generalActions)
      |>.append (resources_perm _ h.moveActions)
  exact (h.definitions.map _).append hresources

theorem Rearranged.shuffled (h : a.Rearranged b) (ha : (a.register .empty).outcome = .ok ()) :
    (a.register .empty).registry.Shuffled (b.register .empty).registry :=
  Registry.declareAll_shuffled h.declarations ha

theorem Rearranged.builds (h : a.Rearranged b) {first : Registry}
    (ha : a.buildRegistry.result = .ok first) :
    b.buildRegistry.result = .ok (b.register .empty).registry := by
  obtain ⟨hout, hv, -⟩ := buildRegistry_ok.mp ha
  refine buildRegistry_ok.mpr ⟨(Registry.declareAll_perm h.declarations).mp hout, ?_, rfl⟩
  exact (h.shuffled hout).verify (.run _ .empty) hv

/-- The order of its maps decides neither whether a roster builds nor what it builds. -/
theorem order_irrelevant (h : a.Rearranged b) :
    ((∃ first, a.buildRegistry.result = .ok first) ↔
      ∃ second, b.buildRegistry.result = .ok second) ∧
    ∀ first second, a.buildRegistry.result = .ok first → b.buildRegistry.result = .ok second →
      first.Alike second := by
  constructor
  · constructor
    · exact fun ⟨first, ha⟩ => ⟨_, h.builds ha⟩
    · exact fun ⟨second, hb⟩ => ⟨_, h.symm.builds hb⟩
  · intro first second ha hb
    obtain ⟨hout, hv, rfl⟩ := buildRegistry_ok.mp ha
    obtain ⟨-, -, rfl⟩ := buildRegistry_ok.mp hb
    exact (h.shuffled hout).alike (.run _ .empty) (.run _ .empty) hv

/-- The forge with its variables and entries the other way round. -/
def turnedForge : Roster := { forge with
  definitions := forge.definitions.reverse
  entries := forge.entries.reverse }

theorem forge_turned : forge.Rearranged turnedForge where
  definitions := (List.reverse_perm _).symm
  characters := .rfl
  styles := .rfl
  equipments := .rfl
  entries := (List.reverse_perm _).symm
  perks := .rfl
  jewels := .rfl
  accessoryPools := .rfl
  accessories := .rfl
  zones := .rfl
  idleActions := .rfl
  generalActions := .rfl
  moveActions := .rfl

theorem forge_order_irrelevant :
    ∃ first second, forge.buildRegistry.result = .ok first ∧
      turnedForge.buildRegistry.result = .ok second ∧
      first.resources.map Resource.id ≠ second.resources.map Resource.id ∧
      first.Alike second := by
  obtain ⟨hbuilds, halike⟩ := order_irrelevant forge_turned
  obtain ⟨second, hsecond⟩ := hbuilds.mp ⟨_, forge_built⟩
  obtain ⟨-, -, rfl⟩ := buildRegistry_ok.mp hsecond
  exact ⟨_, _, forge_built, hsecond, by decide +kernel, halike _ _ forge_built hsecond⟩

end Roster

end GameRoster
