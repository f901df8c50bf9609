import GameRoster.Proofs.Bounds
import GameRoster.Proofs.Links

namespace GameRoster

/-- A use of a variable, with how many values it is given. -/
structure Binding where
  id : Ref .variable
  count : Nat
deriving DecidableEq

/-- A plain value uses no variable. -/
def Setting.bindings {α : Type} : Setting α → List Binding
  | .fixed _ => []
  | .bound id values => [⟨id, values.length⟩]

def CoolDown.bindings (c : CoolDown) : List Binding :=
  c.time.bindings ++ c.rounds.bindings ++ c.initRounds.bindings

def PhaseAttributes.bindings (a : PhaseAttributes) : List Binding :=
  a.damageReduction.bindings ++ a.shieldDamageReduction.bindings ++ a.poiseLevel.bindings

/-- Every field of a general action that may depend on a variable. -/
def ActionGeneral.bindings (a : ActionGeneral) : List Binding :=
  a.base.enabled.bindings ++ a.coolDown.bindings ++
    a.attributes.values.flatMap PhaseAttributes.bindings ++
    a.deriveLevels.values.flatMap Setting.bindings ++
    (a.derives.getD []).flatMap (fun rule => rule.action.bindings) ++
    a.deriveContinues.toList.flatMap Setting.bindings ++
    a.customEvents.toList.flatMap fun events => events.pairs.flatMap fun pair => pair.2.bindings

/-- The bindings of an action; other resources use variables through index tables only. -/
def Resource.bindings : Resource → List Binding
  | .actionIdle a => a.base.enabled.bindings
  | .actionGeneral a => a.bindings
  | .actionMove a => a.base.enabled.bindings
  | _ => []

namespace Registry

/-- A binding has one value per level of a defined variable that its readers may read. -/
def Covers (reg : Registry) (readers : Readers) (b : Binding) : Prop :=
  ∃ v, reg.definition? b.id.text = some v ∧ reg.Readable v readers ∧ b.count = v.maxLevel + 1

/-- A style is registered, and anyone may read the variable or the style or its character owns
it. -/
def StyleMayRead (reg : Registry) (v : Variable) (id : Ref .style) : Prop :=
  ∃ s, reg.find? id.text = some (.style s) ∧
    (v.unrestricted = true ∨ id ∈ v.styles ∨ s.character ∈ v.characters)

theorem Allows.covers {α : Type} {reg : Registry} {readers : Readers} {setting : Setting α}
    (h : reg.Allows readers setting) : ∀ b ∈ setting.bindings, reg.Covers readers b := by
  cases setting with
  | fixed a => exact List.forall_mem_nil _
  | bound id values => exact List.forall_mem_singleton.mpr h

end Registry

theorem PhaseAttributes.Verified.covers {a : PhaseAttributes} {reg : Registry} {readers : Readers}
    (h : a.Verified reg readers) : ∀ b ∈ a.bindings, reg.Covers readers b := by
  simp only [bindings, List.forall_mem_append]
  exact ⟨⟨h.damageReduction.covers, h.shieldDamageReduction.covers⟩, h.poiseLevel.covers⟩

theorem ActionGeneral.Verified.covers {a : ActionGeneral} {reg : Registry} (h : a.Verified reg) :
    ∀ b ∈ a.bindings, reg.Covers a.base.readers b := by
  simp only [bindings, CoolDown.bindings, List.forall_mem_append, List.forall_mem_flatMap]
  refine ⟨⟨⟨⟨⟨⟨h.base.enabled.covers, ?_⟩, ?_⟩, ?_⟩, ?_⟩, ?_⟩, ?_⟩
  · exact ⟨⟨h.coolDownTime.covers, h.coolDownRounds.covers⟩, h.coolDownInitRounds.covers⟩
  · exact fun phase hphase => (h.attributes phase hphase).covers
  · exact fun level hlevel => (h.deriveLevels level hlevel).covers
  · intro rule hrule
    cases hd : a.derives with
    | none => simp [hd] at hrule
    | some rules =>
      rw [hd, Option.getD_some] at hrule
      exact (h.derives rules hd rule hrule).allowed.covers
  · intro setting hsetting
    exact (h.deriveContinues setting (Option.mem_toList.mp hsetting)).covers
  · intro events hevents pair hpair
    exact (h.customEvents events (Option.mem_toList.mp hevents) pair hpair).covers

theorem Resource.Verified.covers {r : Resource} {reg : Registry} {a : ActionBase}
    (h : r.Verified reg) (ha : r.actionBase? = some a) :
    ∀ b ∈ r.bindings, reg.Covers a.readers b := by
  cases r with
  | actionIdle i =>
    obtain rfl := Option.some.inj ha
    exact (ActionBase.Verified.enabled h).covers
  | actionGeneral g =>
    obtain rfl := Option.some.inj ha
    exact ActionGeneral.Verified.covers h
  | actionMove m =>
    obtain rfl := Option.some.inj ha
    exact (ActionMove.Verified.base h).enabled.covers
  | _ => cases ha

/-- The levels of a variable go from zero to its highest one. -/
def Variable.HasLevel (v : Variable) (index : Int) : Prop := 0 ≤ index ∧ index ≤ v.maxLevel

namespace Registry

variable {reg : Registry}

/-- A style on whose behalf a variable is read may read it. -/
theorem Readable.style {v : Variable} {styles : List (Ref .style)}
    (h : reg.Readable v (.ofStyles styles)) {id : Ref .style} (hid : id ∈ styles)
    (hs : ∃ s, reg.lookup? Resource.style? id.text = some s) : reg.StyleMayRead v id := by
  rcases h with hu | ⟨_, hread⟩
  · obtain ⟨s, hl⟩ := hs
    exact ⟨s, lookup_style.mp hl, .inl hu⟩
  · obtain ⟨s, hl, howned⟩ := hread id.text (List.mem_map_of_mem hid)
    refine ⟨s, lookup_style.mp hl, .inr ?_⟩
    simpa only [Variable.readableByStyle, Variable.ownedByStyle, Variable.ownedByCharacter,
      Bool.or_eq_true, Ref.any_text, Ref.mem_map_text] using howned

theorem mem_definitions {id : String} {v : Variable} (h : reg.definition? id = some v) :
    v ∈ reg.definitions := List.mem_of_find?_eq_some h

/-- The variables of a registry are defined, complete and open to those who read them wherever
they are used. -/
structure VariablesServe (reg : Registry) : Prop where
  actions : ∀ r a, r ∈ reg.resources → r.actionBase? = some a → ∀ b ∈ r.bindings,
    ∃ v ∈ reg.definitions, reg.definition? b.id.text = some v ∧ b.count = v.maxLevel + 1 ∧
      2 ≤ b.count ∧ ∀ id ∈ a.styles, reg.StyleMayRead v id
  perks : ∀ p, .perk p ∈ reg.resources → ∀ table ∈ p.varIndexes, ∀ row ∈ table,
    ∃ v ∈ reg.definitions, reg.definition? row.1.text = some v ∧
      (∀ index ∈ row.2, v.HasLevel index) ∧
      ∀ id ∈ p.usableStyles, reg.StyleMayRead v id
  entries : ∀ e, .entry e ∈ reg.resources → ∀ table ∈ e.varIndexes, ∀ row ∈ table,
    ∃ v ∈ reg.definitions, reg.definition? row.1.text = some v ∧
      ∀ index ∈ row.2, v.HasLevel index
  entriesPlus : ∀ e, .entry e ∈ reg.resources → ∀ table ∈ e.varIndexesPlus, ∀ row ∈ table,
    ∃ v ∈ reg.definitions, reg.definition? row.1.text = some v ∧
      ∀ index ∈ row.2, v.HasLevel index

/-- The rows of a table that was built without negative indexes lie in the levels of their
variables. -/
theorem AllowsTable.row {readers : Readers} {table : IndexTable}
    (h : reg.AllowsTable readers table) (hb : IndexTable.Nonneg table)
    {row : Ref .variable × List Int} (hrow : row ∈ table) :
    ∃ v ∈ reg.definitions, reg.definition? row.1.text = some v ∧ reg.Readable v readers ∧
      ∀ index ∈ row.2, v.HasLevel index := by
  obtain ⟨v, hd, hread, hle⟩ := h row hrow
  exact ⟨v, mem_definitions hd, hd, hread, fun index hi => ⟨hb row hrow index hi, hle index hi⟩⟩

/-- Once a registry verifies, no use of a variable fails for want of a definition, a value or a
right to read it. -/
theorem verified_variables_serve (hr : reg.Reachable) (hv : reg.verify = .ok ()) :
    reg.VariablesServe := by
  have h := hr.sound
  have hv := verify_ok.mp hv
  constructor
  case actions =>
    intro r a hm ha b hb
    obtain ⟨v, hd, hread, hcount⟩ := (hv r hm).covers ha b hb
    have hdef := mem_definitions hd
    have hlevels := hr.levels v hdef
    refine ⟨v, hdef, hd, hcount, by omega, ?_⟩
    intro id hid
    obtain ⟨s, hl, _⟩ := ((hv r hm).base ha).styles id hid
    exact hread.style hid ⟨s, hl⟩
  case perks =>
    intro p hp table ht row hrow
    have hb : p.Bounded := h.bounded hp
    have hp : p.Verified reg := hv _ hp
    obtain ⟨v, hdef, hd, hread, hrange⟩ :=
      (hp.varIndexes table ht).row (hb.varIndexes table ht) hrow
    refine ⟨v, hdef, hd, hrange, ?_⟩
    intro id hid
    obtain ⟨s, hl, _⟩ := hp.usableStyles id hid
    exact hread.style hid ⟨s, hl⟩
  case entries =>
    intro e he table ht row hrow
    have hb : e.Bounded := h.bounded he
    have he : e.Verified reg := hv _ he
    obtain ⟨v, hdef, hd, _, hrange⟩ :=
      (he.varIndexes table ht).row (hb.varIndexes table ht) hrow
    exact ⟨v, hdef, hd, hrange⟩
  case entriesPlus =>
    intro e he table ht row hrow
    have hb : e.Bounded := h.bounded he
    have he : e.Verified reg := hv _ he
    obtain ⟨v, hdef, hd, _, hrange⟩ :=
      (he.varIndexesPlus table ht).row (hb.varIndexesPlus table ht) hrow
    exact ⟨v, hdef, hd, hrange⟩

theorem veteran_variables_serve : veteran.Reachable ∧ veteran.verify = .ok () ∧
    veteran.VariablesServe :=
  ⟨veteran_reachable, veteran_verify, verified_variables_serve veteran_reachable veteran_verify⟩

end Registry

end GameRoster
