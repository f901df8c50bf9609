import GameRoster.Proofs.DistinctKeys
import GameRoster.Proofs.Locations
import GameRoster.Proofs.Registration

namespace GameRoster

/-- The kinds whose ids are of one family. -/
def Kind.actions : List Kind := [.actionIdle, .actionGeneral, .actionMove]

theorem Kind.mem_all (k : Kind) : k ∈ all := by
  cases k <;> decide

/-- Two kinds of one family are the same kind, or both are kinds of action. -/
theorem Kind.family_shared {k l : Kind} (hne : k ≠ l) (h : k.family = l.family) :
    k ∈ actions ∧ l ∈ actions := by
  have hall : ∀ k ∈ all, ∀ l ∈ all, k.family = l.family → k = l ∨ k ∈ actions ∧ l ∈ actions := by
    decide
  exact (hall k k.mem_all l l.mem_all h).resolve_left hne

namespace Declaration

/-- The id under which a resource of some kind is declared. -/
def idOf? (kind : Kind) : Declaration → Option String
  | .variable _ _ => none
  | .resource id draft => if draft.kind = kind then some id else none

theorem idOf?_eq_some {kind : Kind} {d : Declaration} {id : String} :
    d.idOf? kind = some id ↔ ∃ draft, d = .resource id draft ∧ draft.kind = kind := by
  obtain ⟨other, draft⟩ | ⟨other, draft⟩ := d
  · simp [idOf?]
  · simp only [idOf?, Option.ite_none_right_eq_some, Option.some.injEq, resource.injEq]
    constructor
    · rintro ⟨hkind, rfl⟩
      exact ⟨draft, ⟨rfl, rfl⟩, hkind⟩
    · rintro ⟨_, ⟨rfl, rfl⟩, hkind⟩
      exact ⟨hkind, rfl⟩

/-- Whether a resource of the shared family is declared. -/
def isAction : Declaration → Bool
  | .variable _ _ => false
  | .resource _ draft => Kind.actions.contains draft.kind

end Declaration

namespace Roster

/-- The keys of the map of a kind. -/
def keysOf (roster : Roster) : Kind → List String
  | .character => roster.characters.map Prod.fst
  | .style => roster.styles.map Prod.fst
  | .equipment => roster.equipments.map Prod.fst
  | .entry => roster.entries.map Prod.fst
  | .perk => roster.perks.map Prod.fst
  | .jewel => roster.jewels.map Prod.fst
  | .accessoryPool => roster.accessoryPools.map Prod.fst
  | .accessory => roster.accessories.map Prod.fst
  | .zone => roster.zones.map Prod.fst
  | .actionIdle => roster.idleActions.map Prod.fst
  | .actionGeneral => roster.generalActions.map Prod.fst
  | .actionMove => roster.moveActions.map Prod.fst

/-- No map holds a key twice. -/
def Keyed (roster : Roster) : Prop := ∀ kind, (roster.keysOf kind).Nodup

/-- An id that is a key of two maps of actions, and of no other map. -/
structure SharedByActions (roster : Roster) (id : String) : Prop where
  two : ∃ k ∈ Kind.actions, ∃ l ∈ Kind.actions,
    k ≠ l ∧ id ∈ roster.keysOf k ∧ id ∈ roster.keysOf l
  only : ∀ k ∉ Kind.actions, id ∉ roster.keysOf k

theorem drafts?_distinct {α : Type} {fields : Document.Fields} {name : String}
    {draft? : Document.Node → Option α} {entries : List (String × α)}
    (h : drafts? fields name draft? = some entries) : (entries.map Prod.fst).Nodup := by
  unfold drafts? Document.Fields.getD? at h
  split at h
  · exact Document.Node.map?_distinct h
  · obtain rfl := Option.some.inj h
    exact List.nodup_nil

/-- Every roster that is read is keyed. -/
theorem ofNode?_keyed {format : Document.Format} {node : Document.Node} {roster : Roster}
    (h : ofNode? format node = some roster) : roster.Keyed := by
  unfold ofNode? at h
  obtain ⟨fields, -, h⟩ := Option.bind_eq_some_iff.mp h
  obtain ⟨definitions, -, h⟩ := Option.bind_eq_some_iff.mp h
  obtain ⟨characters, hcharacters, h⟩ := Option.bind_eq_some_iff.mp h
  obtain ⟨styles, hstyles, h⟩ := Option.bind_eq_some_iff.mp h
  obtain ⟨equipments, hequipments, h⟩ := Option.bind_eq_some_iff.mp h
  obtain ⟨entries, hentries, h⟩ := Option.bind_eq_some_iff.mp h
  obtain ⟨perks, hperks, h⟩ := Option.bind_eq_some_iff.mp h
  obtain ⟨jewels, hjewels, h⟩ := Option.bind_eq_some_iff.mp h
  obtain ⟨pools, hpools, h⟩ := Option.bind_eq_some_iff.mp h
  obtain ⟨accessories, haccessories, h⟩ := Option.bind_eq_some_iff.mp h
  obtain ⟨zones, hzones, h⟩ := Option.bind_eq_some_iff.mp h
  obtain ⟨idles, hidles, h⟩ := Option.bind_eq_some_iff.mp h
  obtain ⟨generals, hgenerals, h⟩ := Option.bind_eq_some_iff.mp h
  obtain ⟨moves, hmoves, h⟩ := Option.bind_eq_some_iff.mp h
  obtain rfl := Option.some.inj h
  intro kind
  cases kind with
  | character => exact drafts?_distinct hcharacters
  | style => exact drafts?_distinct hstyles
  | equipment => exact drafts?_distinct hequipments
  | entry => exact drafts?_distinct hentries
  | perk => exact drafts?_distinct hperks
  | jewel => exact drafts?_distinct hjewels
  | accessoryPool => exact drafts?_distinct hpools
  | accessory => exact drafts?_distinct haccessories
  | zone => exact drafts?_distinct hzones
  | actionIdle => exact drafts?_distinct hidles
  | actionGeneral => exact drafts?_distinct hgenerals
  | actionMove => exact drafts?_distinct hmoves

/-- What is declared before the actions. -/
def beforeActions (roster : Roster) : List Declaration :=
  roster.definitions.map (fun entry => .variable entry.1 entry.2) ++
  resources .character roster.characters ++
  resources .style roster.styles ++
  resources .equipment roster.equipments ++
  resources .entry roster.entries ++
  resources .perk roster.perks ++
  resources .jewel roster.jewels ++
  resources .accessoryPool roster.accessoryPools ++
  resources .accessory roster.accessories ++
  resources .zone roster.zones

def actions (roster : Roster) : List Declaration :=
  resources .actionIdle roster.idleActions ++
  resources .actionGeneral roster.generalActions ++
  resources .actionMove roster.moveActions

theorem declarations_eq (roster : Roster) :
    roster.declarations = roster.beforeActions ++ roster.actions := by
  simp only [declarations, resourceDeclarations, beforeActions, actions, List.append_assoc]

theorem resources_idOf {α : Type} (draft : α → Draft) {k : Kind}
    (hkind : ∀ written, (draft written).kind = k) (entries : List (String × α)) (kind : Kind) :
    (resources draft entries).filterMap (Declaration.idOf? kind) =
      if k = kind then entries.map Prod.fst else [] := by
  unfold resources
  induction entries with
  | nil => exact (ite_self []).symm
  | cons entry rest ih =>
    rw [List.map_cons, List.filterMap_cons, ih, Declaration.idOf?, hkind]
    by_cases hk : k = kind
    · simp [hk]
    · simp [hk]

/-- What is declared of a kind are the keys of its map. -/
theorem declarations_idOf (roster : Roster) (kind : Kind) :
    roster.declarations.filterMap (Declaration.idOf? kind) = roster.keysOf kind := by
  have hvariables : (roster.definitions.map fun entry =>
      Declaration.variable entry.1 entry.2).filterMap (Declaration.idOf? kind) = [] := by
    rw [List.filterMap_map]
    exact List.filterMap_eq_nil_iff.mpr fun _ _ => rfl
  simp only [declarations_eq, beforeActions, actions, List.filterMap_append, hvariables,
    resources_idOf .character (k := .character) fun _ => rfl,
    resources_idOf .style (k := .style) fun _ => rfl,
    resources_idOf .equipment (k := .equipment) fun _ => rfl,
    resources_idOf .entry (k := .entry) fun _ => rfl,
    resources_idOf .perk (k := .perk) fun _ => rfl,
    resources_idOf .jewel (k := .jewel) fun _ => rfl,
    resources_idOf .accessoryPool (k := .accessoryPool) fun _ => rfl,
    resources_idOf .accessory (k := .accessory) fun _ => rfl,
    resources_idOf .zone (k := .zone) fun _ => rfl,
    resources_idOf .actionIdle (k := .actionIdle) fun _ => rfl,
    resources_idOf .actionGeneral (k := .actionGeneral) fun _ => rfl,
    resources_idOf .actionMove (k := .actionMove) fun _ => rfl]
  cases kind <;> simp [keysOf]

theorem mem_keysOf {roster : Roster} {kind : Kind} {id : String} :
    id ∈ roster.keysOf kind ↔ ∃ draft, .resource id draft ∈ roster.declarations ∧
      draft.kind = kind := by
  rw [← declarations_idOf, List.mem_filterMap]
  constructor
  · rintro ⟨d, hd, hid⟩
    obtain ⟨draft, rfl, hkind⟩ := Declaration.idOf?_eq_some.mp hid
    exact ⟨draft, hd, hkind⟩
  · rintro ⟨draft, hd, hkind⟩
    exact ⟨_, hd, Declaration.idOf?_eq_some.mpr ⟨draft, rfl, hkind⟩⟩

theorem resources_isAction {α : Type} {draft : α → Draft} {shared : Bool}
    (h : ∀ written, Kind.actions.contains (draft written).kind = shared)
    (entries : List (String × α)) : ∀ d ∈ resources draft entries, d.isAction = shared := by
  intro d hd
  obtain ⟨entry, -, rfl⟩ := List.mem_map.mp hd
  exact h entry.2

theorem beforeActions_isAction (roster : Roster) :
    ∀ d ∈ roster.beforeActions, d.isAction = false := by
  have hvariables : ∀ d ∈ roster.definitions.map fun entry =>
      Declaration.variable entry.1 entry.2, d.isAction = false := by
    intro d hd
    obtain ⟨entry, -, rfl⟩ := List.mem_map.mp hd
    rfl
  simp only [beforeActions, List.forall_mem_append]
  refine ⟨⟨⟨⟨⟨⟨⟨⟨⟨hvariables, ?_⟩, ?_⟩, ?_⟩, ?_⟩, ?_⟩, ?_⟩, ?_⟩, ?_⟩, ?_⟩
  all_goals
    refine resources_isAction ?_ _
    exact fun _ => rfl

theorem actions_isAction (roster : Roster) : ∀ d ∈ roster.actions, d.isAction = true := by
  simp only [actions, List.forall_mem_append]
  refine ⟨⟨?_, ?_⟩, ?_⟩
  all_goals
    refine resources_isAction ?_ _
    exact fun _ => rfl

/-- Once an action is declared, only actions follow. -/
theorem actions_last {roster : Roster} {before after : List Declaration} {d : Declaration}
    (hd : d.isAction = true) (h : roster.declarations = before ++ d :: after) :
    roster.beforeActions ⊆ before := by
  rw [declarations_eq] at h
  rcases List.append_eq_append_iff.mp h with ⟨more, hbefore, -⟩ | ⟨more, hmore, hafter⟩
  · exact hbefore ▸ List.subset_append_left _ _
  · cases more with
    | nil =>
      rw [hmore, List.append_nil]
      exact List.Subset.refl before
    | cons first more =>
      obtain ⟨rfl, -⟩ := List.cons.inj hafter
      have hnone := roster.beforeActions_isAction d (by simp [hmore])
      rw [hd] at hnone
      cases hnone

end Roster

namespace Registry

/-- Only a resource is refused for a repeated id: its own, which fits its kind and is taken. -/
theorem declare_duplicate {reg : Registry} {d : Declaration} {id : String}
    (h : (reg.declare d).result = .error (.duplicateId id)) :
    ∃ draft symbols, d = .resource id draft ∧ Id.symbols? draft.kind.family id = .ok symbols ∧
      Key.resource id ∈ reg.keys := by
  obtain ⟨other, draft⟩ | ⟨other, draft⟩ := d
  · obtain ⟨place, hplace, -⟩ := (define_fails reg other draft _ h).place
    cases hplace
  · simp only [declare, add] at h
    split at h
    · cases h
    · rename_i symbols hsymbols
      split at h
      · rename_i held hheld
        obtain rfl := Fault.duplicateId.inj (Except.error.inj h)
        refine ⟨draft, symbols, rfl, hsymbols, ?_⟩
        by_contra hfree
        rw [find_eq_none.mpr hfree] at hheld
        cases hheld
      · rw [Checked.result_bind] at h
        obtain ⟨name, hat⟩ := Check.Fails.step (draft.build_fails other) (fun _ => .ok) _ h
        obtain ⟨place, hplace, -⟩ := hat.place
        cases hplace

/-- A new registry refuses a repeated id only for one that was declared before, and whatever was
declared under it is of the same family. -/
theorem declareAll_duplicate {ds : List Declaration} {id : String}
    (h : (empty.declareAll ds).outcome = .error (.duplicateId id)) :
    ∃ before draft after, ds = before ++ .resource id draft :: after ∧
      (∃ held, .resource id held ∈ before) ∧
      ∀ held, .resource id held ∈ before → held.kind.family = draft.kind.family := by
  obtain ⟨before, d, after, hds, hok, hfault⟩ := declareAll_error h
  obtain ⟨draft, symbols, rfl, hsymbols, htaken⟩ := declare_duplicate hfault
  refine ⟨before, draft, after, hds, ?_, fun held hheld => ?_⟩
  · rw [mem_keys_declareAll hok] at htaken
    rcases htaken with hempty | hkey
    · simp [keys, empty] at hempty
    · obtain ⟨⟨other, held⟩ | ⟨other, held⟩, hd, hid⟩ := List.mem_map.mp hkey
      · cases hid
      · obtain rfl := Key.resource.inj hid
        exact ⟨held, hd⟩
  · obtain ⟨-, a, ha⟩ := (declareAll_ok.mp hok).2 _ hheld
    obtain ⟨others, r, hothers, -, -⟩ := Declaration.made_resource.mp ha
    obtain ⟨p, hp⟩ := Id.parts_of_symbols hothers
    obtain ⟨q, hq⟩ := Id.parts_of_symbols hsymbols
    exact Id.family_unique hp hq

end Registry

namespace Roster

theorem mem_before {roster : Roster} {kind : Kind} {id : String} (hkind : kind ∉ Kind.actions)
    (h : id ∈ roster.keysOf kind) :
    ∃ draft, .resource id draft ∈ roster.beforeActions ∧ draft.kind = kind := by
  obtain ⟨draft, hd, rfl⟩ := mem_keysOf.mp h
  rw [declarations_eq, List.mem_append] at hd
  rcases hd with hbefore | hlater
  · exact ⟨draft, hbefore, rfl⟩
  · exact absurd (List.contains_iff_mem.mp (roster.actions_isAction _ hlater)) hkind

/-- A map that holds no key twice cannot hold the id of the resource that is refused and of the one
that was there. -/
theorem duplicate_kinds {roster : Roster} (hkeys : roster.Keyed) {id : String}
    {held draft : Draft} {before after : List Declaration}
    (hds : roster.declarations = before ++ .resource id draft :: after)
    (hheld : .resource id held ∈ before) : held.kind ≠ draft.kind := by
  intro hsame
  have hnodup := hkeys draft.kind
  rw [← declarations_idOf, hds, List.filterMap_append] at hnodup
  have hbefore : id ∈ before.filterMap (Declaration.idOf? draft.kind) :=
    List.mem_filterMap.mpr ⟨_, hheld, Declaration.idOf?_eq_some.mpr ⟨held, rfl, hsame⟩⟩
  have hafter : id ∈ (.resource id draft :: after).filterMap (Declaration.idOf? draft.kind) :=
    List.mem_filterMap.mpr
      ⟨_, List.mem_cons_self, Declaration.idOf?_eq_some.mpr ⟨draft, rfl, rfl⟩⟩
  exact List.disjoint_of_nodup_append hnodup hbefore hafter

theorem register_duplicate {roster : Roster} (hkeys : roster.Keyed) {id : String}
    (h : (roster.register .empty).outcome = .error (.duplicateId id)) :
    roster.SharedByActions id := by
  obtain ⟨before, draft, after, hds, ⟨held, hheld⟩, hfamily⟩ := Registry.declareAll_duplicate h
  have hne := duplicate_kinds hkeys hds hheld
  obtain ⟨hk, hl⟩ := Kind.family_shared hne (hfamily held hheld)
  refine ⟨⟨held.kind, hk, draft.kind, hl, hne, ?_, ?_⟩, fun k hplain hid => ?_⟩
  · exact mem_keysOf.mpr ⟨held, hds ▸ List.mem_append_left _ hheld, rfl⟩
  · exact mem_keysOf.mpr ⟨draft, hds ▸ List.mem_append_right _ List.mem_cons_self, rfl⟩
  · obtain ⟨other, hother, rfl⟩ := mem_before hplain hid
    have hisAction : (Declaration.resource id draft).isAction = true :=
      List.contains_iff_mem.mpr hl
    have hshared := hfamily other (actions_last hisAction hds hother)
    have hkinds : other.kind ≠ draft.kind := fun hsame => hplain (hsame ▸ hl)
    exact hplain (Kind.family_shared hkinds hshared).1

/-- No roster is registered that holds an id in two of its maps. -/
theorem register_shared {roster : Roster} {id : String} {k l : Kind} (hne : k ≠ l)
    (hk : id ∈ roster.keysOf k) (hl : id ∈ roster.keysOf l) :
    (roster.register .empty).outcome ≠ .ok () := by
  intro hok
  obtain ⟨first, hfirst, rfl⟩ := mem_keysOf.mp hk
  obtain ⟨second, hsecond, rfl⟩ := mem_keysOf.mp hl
  have hnodup := (Registry.declareAll_ok.mp hok).1
  have hsame : Declaration.resource id first = Declaration.resource id second :=
    List.inj_on_of_nodup_map hnodup hfirst hsecond rfl
  exact hne (congrArg Draft.kind (Declaration.resource.inj hsame).2)

/-- In a new registry, an id that is refused as a repeated one is a key of two maps of actions, and
of no other map. An id that is a key of two maps, whatever these are, has the roster refused; if
one of the maps is not of actions, it is not for a repetition of this id. -/
theorem register_collisions {roster : Roster} (hkeys : roster.Keyed) :
    (∀ id, (roster.register .empty).outcome = .error (.duplicateId id) →
      roster.SharedByActions id) ∧
    ∀ id k l, k ≠ l → id ∈ roster.keysOf k → id ∈ roster.keysOf l →
      ∃ fault, (roster.register .empty).outcome = .error fault ∧
        (k ∉ Kind.actions ∨ l ∉ Kind.actions → fault ≠ .duplicateId id) := by
  refine ⟨fun id => register_duplicate hkeys, fun id k l hne hk hl => ?_⟩
  cases hout : (roster.register .empty).outcome with
  | ok done => exact absurd hout (register_shared hne hk hl)
  | error fault =>
    refine ⟨fault, rfl, ?_⟩
    rintro hplain rfl
    have hshared := register_duplicate hkeys hout
    rcases hplain with hplain | hplain
    · exact hshared.only k hplain hk
    · exact hshared.only l hplain hl

/-- An archer who rests and walks under one id. -/
def restless : Roster where
  definitions := []
  characters := []
  styles := []
  equipments := []
  entries := []
  perks := []
  jewels := []
  accessoryPools := []
  accessories := []
  zones := []
  idleActions := [("Action.Ada.Rest", {
    enabled := .null, character := "Character.Ada", styles := ["Style.Ada.Bow"]
    animIdle := .archer "rest" false, animReady := none, animRandoms := none
    autoIdleDelay := .null, deriveKeeping := .null })]
  generalActions := []
  moveActions := [("Action.Ada.Rest", {
    enabled := .null, character := "Character.Ada", styles := ["Style.Ada.Bow"]
    enterKey := "Walk", enterLevel := .null, deriveLevel := .null, specialDeriveLevel := .null
    animMove := .archer "walk" true, moveSpeed := .int 1, starts := [], startTime := .null
    turns := [], turnTime := .null, stops := [], stopTime := .null, quickStopTime := .null
    deriveKeeping := .null, smoothMoveFroms := [], smoothMoveDuration := .null })]

theorem restless_collides :
    restless.Keyed ∧
    (restless.register .empty).outcome = .error (.duplicateId "Action.Ada.Rest") ∧
    restless.SharedByActions "Action.Ada.Rest" := by
  have hkeys : restless.Keyed := by
    intro kind
    cases kind <;> decide
  have hout : (restless.register .empty).outcome = .error (.duplicateId "Action.Ada.Rest") := by
    rfl
  exact ⟨hkeys, hout, (register_collisions hkeys).1 _ hout⟩

end Roster

end GameRoster
