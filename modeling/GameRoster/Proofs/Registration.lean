import GameRoster.Proofs.AppendOnly
import GameRoster.Proofs.Families
import GameRoster.Roster

namespace GameRoster

namespace Run

/-- Goes on from what a run leaves behind, unless the run has failed. -/
def andThen (run : Run) (next : Registry → Run) : Run :=
  match run.outcome with
  | .error _ => run
  | .ok () =>
    let later := next run.registry
    { later with warnings := run.warnings ++ later.warnings }

theorem andThen_of_error {run : Run} {fault : Fault} (h : run.outcome = .error fault)
    (next : Registry → Run) : run.andThen next = run := by
  simp only [andThen, h]

/-- Earlier warnings stay in front of what comes later. -/
theorem andThen_warned (warnings : List Warning) (run : Run) (next : Registry → Run) :
    ({ run with warnings := warnings ++ run.warnings } : Run).andThen next =
      { run.andThen next with warnings := warnings ++ (run.andThen next).warnings } := by
  cases hout : run.outcome with
  | error fault => simp only [andThen, hout]
  | ok done => simp only [andThen, hout, List.append_assoc]

end Run

namespace Registry

/-- A run over more declarations goes on where the run over the first ones ends. -/
theorem declareAll_append (reg : Registry) (first second : List Declaration) :
    reg.declareAll (first ++ second) =
      (reg.declareAll first).andThen fun grown => grown.declareAll second := by
  induction first generalizing reg with
  | nil => rfl
  | cons d rest ih =>
    cases hd : (reg.declare d).result with
    | error fault =>
      rw [Run.andThen_of_error (declareAll_of_error hd rest).2]
      simp only [List.cons_append, declareAll, hd]
    | ok grown =>
      simp only [List.cons_append, declareAll, hd, ih, Run.andThen_warned]

end Registry

/-- What a declaration makes: a variable, or the resource that is built under its id for its
kind. -/
inductive Declaration.Makes : Declaration → Addition → Prop
  | variable {id : String} {draft : VariableDraft} {v : Variable}
      (built : Variable.ofDraft id draft = .ok v) : Makes (.variable id draft) (.variable v)
  | resource {id : String} {draft : Draft} {symbols : List String} {r : Resource}
      (spelled : Id.symbols? draft.kind.family id = .ok symbols)
      (built : (draft.build id).result = .ok r) (named : r.id = id) (kind : r.kind = draft.kind) :
      Makes (.resource id draft) (.resource r symbols)

namespace Declaration

theorem made_makes {d : Declaration} {a : Addition} (h : d.made? = some a) : d.Makes a := by
  match d with
  | .variable id draft =>
    obtain ⟨v, hv, rfl⟩ := made_variable.mp h
    exact .variable hv
  | .resource id draft =>
    obtain ⟨symbols, r, hs, hr, rfl⟩ := made_resource.mp h
    exact .resource hs (Draft.builds_iff.mpr hr) hr.id_eq hr.kind_eq

def isResource : Declaration → Bool
  | .variable _ _ => false
  | .resource _ _ => true

/-- Resources are made by the declarations of resources only, one by each. -/
theorem count_made {ds : List Declaration} {additions : List Addition}
    (h : List.Forall₂ Makes ds additions) :
    (additions.filterMap Addition.resource?).length = ds.countP isResource := by
  induction h with
  | nil => rfl
  | cons hmade _ ih =>
    match hmade with
    | .variable _ =>
      rw [List.filterMap_cons_none rfl, List.countP_cons_of_neg Bool.false_ne_true, ih]
    | @Makes.resource _ _ symbols r _ _ _ _ =>
      have hr : (Addition.resource r symbols).resource? = some r := rfl
      rw [List.filterMap_cons_some hr, List.countP_cons_of_pos rfl, List.length_cons, ih]

end Declaration

namespace Roster

/-- Registers the resources of one map in its order. -/
def addAll {α : Type} (draft : α → Draft) : List (String × α) → Registry → Run
  | [], reg => ⟨reg, .ok (), []⟩
  | (id, written) :: rest, reg =>
    let next := reg.add id (draft written)
    match next.result with
    | .error fault => ⟨reg, .error fault, next.warnings⟩
    | .ok grown =>
      let run := addAll draft rest grown
      { run with warnings := next.warnings ++ run.warnings }

/-- Registers the maps of a roster one after another. -/
def registerMaps (roster : Roster) (reg : Registry) : Run :=
  reg.defineAll roster.definitions
    |>.andThen (addAll .character roster.characters)
    |>.andThen (addAll .style roster.styles)
    |>.andThen (addAll .equipment roster.equipments)
    |>.andThen (addAll .entry roster.entries)
    |>.andThen (addAll .perk roster.perks)
    |>.andThen (addAll .jewel roster.jewels)
    |>.andThen (addAll .accessoryPool roster.accessoryPools)
    |>.andThen (addAll .accessory roster.accessories)
    |>.andThen (addAll .zone roster.zones)
    |>.andThen (addAll .actionIdle roster.idleActions)
    |>.andThen (addAll .actionGeneral roster.generalActions)
    |>.andThen (addAll .actionMove roster.moveActions)

theorem addAll_eq {α : Type} (draft : α → Draft) (entries : List (String × α)) (reg : Registry) :
    addAll draft entries reg = reg.declareAll (resources draft entries) := by
  induction entries generalizing reg with
  | nil => rfl
  | cons entry rest ih =>
    obtain ⟨id, written⟩ := entry
    simp only [addAll, resources, List.map_cons, Registry.declareAll, Registry.declare]
    cases (reg.add id (draft written)).result with
    | error fault => rfl
    | ok grown =>
      simp only [ih]
      rfl

theorem registerMaps_eq (roster : Roster) (reg : Registry) :
    roster.registerMaps reg = roster.register reg := by
  simp only [register, declarations, resourceDeclarations, ← List.append_assoc,
    Registry.declareAll_append, ← addAll_eq]
  rfl

theorem length_eq (roster : Roster) :
    roster.length = roster.characters.length + roster.styles.length + roster.equipments.length +
      roster.entries.length + roster.perks.length + roster.jewels.length +
      roster.accessoryPools.length + roster.accessories.length + roster.zones.length +
      roster.idleActions.length + roster.generalActions.length + roster.moveActions.length := by
  simp only [length, resourceDeclarations, resources, List.length_append, List.length_map]

theorem countP_resources {α : Type} (draft : α → Draft) (entries : List (String × α)) :
    (resources draft entries).countP Declaration.isResource = (resources draft entries).length := by
  refine List.countP_eq_length.mpr fun d hd => ?_
  obtain ⟨entry, _, rfl⟩ := List.mem_map.mp hd
  rfl

theorem countP_declarations (roster : Roster) :
    roster.declarations.countP Declaration.isResource = roster.length := by
  unfold declarations
  rw [List.countP_append, List.countP_eq_zero.mpr, Nat.zero_add]
  · simp only [length, resourceDeclarations, List.countP_append, List.length_append,
      countP_resources]
  · intro d hd
    obtain ⟨entry, _, rfl⟩ := List.mem_map.mp hd
    exact Bool.false_ne_true

/-- A run over a roster enters its first declarations into a registry and stops where the next one
fails. -/
structure Enters (roster : Roster) (reg : Registry) (additions : List Addition) (run : Run) :
    Prop where
  made : List.Forall₂ Declaration.Makes (roster.declarations.take additions.length) additions
  left : run.registry = reg.extendAll additions
  ok_iff : run.outcome = .ok () ↔ additions.length = roster.declarations.length
  error_iff : ∀ fault, run.outcome = .error fault ↔
    ∃ d, roster.declarations[additions.length]? = some d ∧
      (run.registry.declare d).result = .error fault
  counted : reg = .empty → run.outcome = .ok () →
    run.registry.resources.length = roster.length

theorem register_enters (roster : Roster) (reg : Registry) :
    ∃ additions, roster.Enters reg additions (roster.register reg) := by
  obtain ⟨additions, made, left, outcome⟩ := reg.declareAll_stops roster.declarations
  have hmade := made.imp fun _ _ => Declaration.made_makes
  have hok : (roster.register reg).outcome = .ok () ↔
      additions.length = roster.declarations.length := by
    rcases outcome with ⟨hlen, hout⟩ | ⟨d, fault, hd, _, hout⟩
    · exact iff_of_true hout hlen
    · have hlt := (List.getElem?_eq_some_iff.mp hd).1
      exact iff_of_false (by simp [register, hout]) hlt.ne
  refine ⟨additions, ?_⟩
  constructor
  case made => exact hmade
  case left => exact left
  case ok_iff => exact hok
  case error_iff =>
    intro fault
    rw [register, left]
    rcases outcome with ⟨hlen, hout⟩ | ⟨d, stop, hd, hfault, hout⟩
    · rw [hout, hlen]
      simp
    · simp [hout, hd, hfault]
  case counted =>
    rintro rfl hout
    rw [hok.mp hout, List.take_length] at hmade
    rw [register, left, Registry.extendAll_resources, List.length_append,
      Declaration.count_made hmade, countP_declarations]
    exact Nat.zero_add _

/-- Registering a roster map by map extends a registry by the first declarations of the roster, in
their order, up to the first that fails, and gives that failure. A new registry then holds as many
resources as the maps of resources have entries. -/
theorem register_first_declarations (roster : Roster) (reg : Registry) :
    roster.register reg = roster.registerMaps reg ∧
    (∃ additions, roster.Enters reg additions (roster.registerMaps reg)) ∧
    roster.length = roster.characters.length + roster.styles.length + roster.equipments.length +
      roster.entries.length + roster.perks.length + roster.jewels.length +
      roster.accessoryPools.length + roster.accessories.length + roster.zones.length +
      roster.idleActions.length + roster.generalActions.length + roster.moveActions.length := by
  have heq := roster.registerMaps_eq reg
  refine ⟨heq.symm, ?_, roster.length_eq⟩
  rw [heq]
  exact roster.register_enters reg

end Roster

end GameRoster
