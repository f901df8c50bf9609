import GameRoster.Proofs.Orderly
import GameRoster.Proofs.Widening
import GameRoster.Roster

namespace GameRoster

namespace Registry

/-- Everything in a registry is in another one as it is, in whatever order. -/
structure Within (reg larger : Registry) : Prop where
  resources : reg.resources ⊆ larger.resources
  definitions : reg.definitions ⊆ larger.definitions

/-- Whatever an id leads to in a registry, it leads to in another one. -/
structure FoundIn (reg larger : Registry) : Prop where
  find : ∀ {id r}, reg.find? id = some r → larger.find? id = some r
  definition : ∀ {id v}, reg.definition? id = some v → larger.definition? id = some v

variable {reg larger : Registry}

/-- Ids are distinct in the larger registry, so that nothing new stands before what was found. -/
theorem Within.foundIn (h : reg.Within larger) (hl : larger.Reachable) : reg.FoundIn larger := by
  constructor
  case find =>
    intro id r hf
    obtain ⟨hm, rfl⟩ := mem_of_find hf
    exact hl.sound.find (h.resources hm)
  case definition =>
    intro id v hd
    obtain ⟨hm, rfl⟩ := mem_of_definition hd
    exact hl.defined.definition (h.definitions hm)

theorem FoundIn.heldBy (h : reg.FoundIn larger) : reg.HeldBy larger :=
  ⟨h.find, fun hd => ⟨_, h.definition hd, .refl _⟩⟩

theorem FoundIn.verified (h : reg.FoundIn larger) {r : Resource} (hr : r.Verified reg) :
    r.Verified larger := h.heldBy.verified hr

theorem filterMap_subset {α β : Type} (f : α → Option β) {xs ys : List α} (h : xs ⊆ ys) :
    xs.filterMap f ⊆ ys.filterMap f := by
  intro b hb
  obtain ⟨a, ha, hf⟩ := List.mem_filterMap.mp hb
  exact List.mem_filterMap.mpr ⟨a, h ha, hf⟩

namespace Within

theorem refl (reg : Registry) : reg.Within reg := ⟨List.Subset.refl _, List.Subset.refl _⟩

theorem empty (reg : Registry) : Registry.empty.Within reg :=
  ⟨List.nil_subset _, List.nil_subset _⟩

/-- More additions to a larger registry, in whatever order. -/
theorem extendAll (h : reg.Within larger) {few many : List Addition} (hs : few ⊆ many) :
    (reg.extendAll few).Within (larger.extendAll many) := by
  constructor
  case resources =>
    rw [extendAll_resources, extendAll_resources]
    exact List.append_subset.mpr
      ⟨List.subset_append_of_subset_left _ h.resources,
        List.subset_append_of_subset_right _ (filterMap_subset _ hs)⟩
  case definitions =>
    rw [extendAll_definitions, extendAll_definitions]
    exact List.append_subset.mpr
      ⟨List.subset_append_of_subset_left _ h.definitions,
        List.subset_append_of_subset_right _ (filterMap_subset _ hs)⟩

end Within

/-- More declarations leave behind a larger registry, whatever their order. -/
theorem declareAll_within {few many : List Declaration}
    (hfew : (reg.declareAll few).outcome = .ok ())
    (hmany : (reg.declareAll many).outcome = .ok ()) (hs : few ⊆ many) :
    (reg.declareAll few).registry.Within (reg.declareAll many).registry := by
  rw [declareAll_registry hfew, declareAll_registry hmany]
  exact (Within.refl reg).extendAll (filterMap_subset _ hs)

/-- What verifies by itself verifies when it is added to a registry that does. -/
theorem verify_extendAll {additions : List Addition} (hl : (reg.extendAll additions).Reachable)
    (hreg : reg.verify = .ok ()) (hadded : (empty.extendAll additions).verify = .ok ()) :
    (reg.extendAll additions).verify = .ok () := by
  refine verify_ok.mpr fun r hr => ?_
  rw [extendAll_resources] at hr
  rcases List.mem_append.mp hr with hr | hr
  · have hbefore : reg.Within (reg.extendAll additions) :=
      (Within.refl reg).extendAll (List.nil_subset additions)
    exact (hbefore.foundIn hl).verified (verify_ok.mp hreg r hr)
  · have halone : (empty.extendAll additions).Within (reg.extendAll additions) :=
      (Within.empty reg).extendAll (List.Subset.refl _)
    refine (halone.foundIn hl).verified (verify_ok.mp hadded r ?_)
    rw [extendAll_resources]
    exact List.mem_append_right _ hr

/-- What can be declared in a new registry can be declared wherever its ids are free. -/
theorem declareAll_free {ds : List Declaration} (h : (empty.declareAll ds).outcome = .ok ())
    (hfree : ∀ d ∈ ds, d.key ∉ reg.keys) : (reg.declareAll ds).outcome = .ok () := by
  obtain ⟨hnodup, hmade⟩ := declareAll_ok.mp h
  exact declareAll_ok.mpr ⟨hnodup, fun d hd => ⟨hfree d hd, (hmade d hd).2⟩⟩

end Registry

namespace Roster

/-- A roster builds what its declarations leave behind, if none of them fails and it verifies. -/
theorem buildRegistry_ok {roster : Roster} {reg : Registry} :
    roster.buildRegistry.result = .ok reg ↔ (roster.register .empty).outcome = .ok () ∧
      (roster.register .empty).registry.verify = .ok () ∧
      (roster.register .empty).registry = reg := by
  have hresult : roster.buildRegistry.result = do
      (roster.register .empty).outcome
      (roster.register .empty).registry.verify
      return (roster.register .empty).registry := by
    unfold buildRegistry Run.checked
    rw [Checked.result_bind]
    cases (roster.register .empty).outcome with
    | error fault => rfl
    | ok done => exact Checked.result_bind _ _
  rw [hresult, Check.then_ok, Check.then_ok, Check.pure_ok]

/-- All ids that a roster declares, those of variables and of resources. -/
def keys (roster : Roster) : List Key := roster.declarations.map Declaration.key

/-- Two rosters have no resource id and no variable id in common. -/
def Apart (a b : Roster) : Prop := a.keys.Disjoint b.keys

theorem Apart.symm {a b : Roster} (h : a.Apart b) : b.Apart a := List.disjoint_symm h

/-- Two rosters go one after the other into one new registry, and it verifies. -/
structure Joins (a b : Roster) : Prop where
  first : (a.register .empty).outcome = .ok ()
  second : (b.register (a.register .empty).registry).outcome = .ok ()
  verify : (b.register (a.register .empty).registry).registry.verify = .ok ()

theorem Apart.joins {a b : Roster} (h : a.Apart b) {ra rb : Registry}
    (ha : a.buildRegistry.result = .ok ra) (hb : b.buildRegistry.result = .ok rb) :
    a.Joins b := by
  obtain ⟨hfirst, hva, -⟩ := buildRegistry_ok.mp ha
  obtain ⟨halone, hvb, -⟩ := buildRegistry_ok.mp hb
  have hfree : ∀ d ∈ b.declarations, d.key ∉ (a.register .empty).registry.keys := by
    intro d hd hk
    rcases (Registry.mem_keys_declareAll hfirst).mp hk with hk | hk
    · simp [Registry.keys, Registry.empty] at hk
    · exact h hk (List.mem_map_of_mem hd)
  have hsecond := Registry.declareAll_free halone hfree
  have hleft := Registry.declareAll_registry hsecond
  refine ⟨hfirst, hsecond, ?_⟩
  rw [register, hleft]
  refine Registry.verify_extendAll ?_ hva ?_
  · rw [← hleft]
    exact .run _ (.run _ .empty)
  · rw [← Registry.declareAll_registry halone]
    exact hvb

/-- Verification holds on to what it found: a resource that passes in a registry passes in every
larger one, and rosters that build apart can be joined, whichever goes first. -/
theorem verification_persists :
    (∀ reg larger : Registry, larger.Reachable → reg.Within larger →
      ∀ r : Resource, r.verify reg = .ok () → r.verify larger = .ok ()) ∧
    ∀ (a b : Roster) (ra rb : Registry), a.buildRegistry.result = .ok ra →
      b.buildRegistry.result = .ok rb → a.Apart b → a.Joins b ∧ b.Joins a := by
  constructor
  · intro reg larger hl hin r hr
    rw [Resource.verify_ok] at hr ⊢
    exact (hin.foundIn hl).verified hr
  · intro a b ra rb ha hb h
    exact ⟨h.joins ha hb, h.symm.joins hb ha⟩

/-- A roster that declares nothing. -/
def empty : Roster := ⟨[], [], [], [], [], [], [], [], [], [], [], [], []⟩

/-- Two entries that depend on a variable, and a jewel with both. -/
def forge : Roster := { empty with
  definitions := [("#.Heat", { maxLevel := .int 1, owners := .anyone }),
    ("#.Wear", { maxLevel := .int 2, owners := .anyone })]
  entries := [
    ("Entry.Edge", {
      name := "Edge", maxPiece := .int 2, attributes := .null
      varIndexes := .object [("#.Heat", .array [.int 0, .int 1])] }),
    ("Entry.Guard", {
      name := "Guard", maxPiece := .int 1, attributes := .null
      varIndexes := .object [("#.Wear", .array [.int 2])] })]
  jewels := [("Jewel.Opal", {
    slot := "Attack", rare := "Rare1", entry := "Entry.Edge", piece := .int 2
    subEntry := some "Entry.Guard", subPiece := .int 1, variant := "Variant1" })] }

/-- A character with one style, and a variable that only this style may read. -/
def crew : Roster := { empty with
  definitions := [("#.Nerve", { maxLevel := .int 1, owners := .one "Style.Bo.Fist" })]
  characters := [("Character.Bo", {
    name := "Bo", level := .array [.int 1, .int 1], styles := ["Style.Bo.Fist"], equipments := []
    boundingCapsule := { halfHeight := .int 1, radius := .int 1 }, skeletonFiles := "bo"
    skeletonToward := .array [.int 0, .int 1] })]
  styles := [("Style.Bo.Fist", {
    name := "Fist", character := "Character.Bo", attributes := .object [], slots := .array []
    fixedAttributes := ⟨.int 0, .int 0, .int 0, .int 0, .int 0, .int 0, .int 0⟩
    perks := [], usablePerks := [], actions := ["Action.Bo.Rest"], viewModel := "fist.vrm" })]
  idleActions := [("Action.Bo.Rest", {
    enabled := .array [.string "#.Nerve", .array [.bool false, .bool true]]
    character := "Character.Bo", styles := ["Style.Bo.Fist"], animIdle := .archer "rest" false
    animReady := none, animRandoms := none, autoIdleDelay := .null, deriveKeeping := .null })] }

theorem forge_built : forge.buildRegistry.result = .ok (forge.register .empty).registry :=
  buildRegistry_ok.mpr
    ⟨Check.ok_of_isOk (by decide +kernel), Check.ok_of_isOk (by decide +kernel), rfl⟩

theorem crew_built : crew.buildRegistry.result = .ok (crew.register .empty).registry :=
  buildRegistry_ok.mpr
    ⟨Check.ok_of_isOk (by decide +kernel), Check.ok_of_isOk (by decide +kernel), rfl⟩

/-- A zone, and after it the archer from last to first. -/
def outing : List Declaration :=
  .resource "Zone.Hall" (.zone {
    name := "Hall", zoneFile := "hall.json", viewZoneFile := "hall.tscn" }) ::
    Declaration.archer.reverse

theorem archer_within_outing :
    Registry.archer.Within (Registry.empty.declareAll outing).registry := by
  refine Registry.declareAll_within (Check.ok_of_isOk (by decide +kernel))
    (Check.ok_of_isOk (by decide +kernel)) ?_
  exact List.subset_cons_of_subset _ fun d hd => List.mem_reverse.mpr hd

theorem outing_and_forge_persist :
    (∀ r ∈ Registry.archer.resources,
      r.verify Registry.archer = .ok () ∧
      r.verify (Registry.empty.declareAll outing).registry = .ok ()) ∧
    forge.Apart crew ∧ forge.Joins crew ∧ crew.Joins forge := by
  have hverify := Registry.verify_ok.mp Registry.archer_verify
  have happart : forge.Apart crew := List.disjoint_left.mpr (by decide +kernel)
  refine ⟨?_, happart, verification_persists.2 forge crew _ _ forge_built crew_built happart⟩
  intro r hr
  have hfirst : r.verify Registry.archer = .ok () := Resource.verify_ok.mpr (hverify r hr)
  exact ⟨hfirst, verification_persists.1 _ _ (.run _ .empty) archer_within_outing r hfirst⟩

end Roster

end GameRoster
