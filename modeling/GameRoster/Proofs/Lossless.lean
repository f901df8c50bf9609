import GameRoster.Proofs.AppendOnly
import GameRoster.Proofs.PlainDrafts
import GameRoster.Proofs.Records

namespace GameRoster

namespace Value

mutual

/-- How many nulls a value holds. -/
def nulls : Value → Nat
  | .null => 1
  | .bool _ => 0
  | .number _ => 0
  | .string _ => 0
  | .array items => nullsOfItems items
  | .object fields => nullsOfFields fields

def nullsOfItems : List Value → Nat
  | [] => 0
  | item :: rest => nulls item + nullsOfItems rest

def nullsOfFields : List (String × Value) → Nat
  | [] => 0
  | (_, value) :: rest => nulls value + nullsOfFields rest

end

@[simp] theorem nulls_null : nulls .null = 1 := rfl

@[simp] theorem nulls_bool (b : Bool) : (bool b).nulls = 0 := rfl

@[simp] theorem nulls_string (s : String) : (string s).nulls = 0 := rfl

@[simp] theorem nulls_int (n : Int) : (int n).nulls = 0 := rfl

@[simp] theorem nulls_nat (n : Nat) : (nat n).nulls = 0 := rfl

@[simp] theorem nulls_named {α : Type} [Named α] (a : α) : (Named.toValue a).nulls = 0 :=
  nulls_string _

theorem nulls_float (x : Float) : (float x).nulls = if x.isFinite then 0 else 1 := by
  unfold float
  split
  · rfl
  · rfl

theorem nulls_array (items : List Value) : (array items).nulls = (items.map nulls).sum := by
  change nullsOfItems items = _
  induction items with
  | nil => rfl
  | cons item rest ih =>
    change item.nulls + nullsOfItems rest = _
    rw [ih, List.map_cons, List.sum_cons]

theorem nulls_object (fields : List (String × Value)) :
    (object fields).nulls = (fields.map fun field => field.2.nulls).sum := by
  change nullsOfFields fields = _
  induction fields with
  | nil => rfl
  | cons field rest ih =>
    change field.2.nulls + nullsOfFields rest = _
    rw [ih, List.map_cons, List.sum_cons]

/-- How many nulls some fields hold. An absent field is not a null. -/
def nullsAmong (fields : List (String × Option Value)) : Nat :=
  (fields.map fun field => field.2.elim 0 nulls).sum

@[simp] theorem nullsAmong_nil : nullsAmong [] = 0 := rfl

@[simp] theorem nullsAmong_cons (name : String) (value : Option Value)
    (rest : List (String × Option Value)) :
    nullsAmong ((name, value) :: rest) = value.elim 0 nulls + nullsAmong rest := by
  simp [nullsAmong]

@[simp] theorem nullsAmong_append (fields others : List (String × Option Value)) :
    nullsAmong (fields ++ others) = nullsAmong fields + nullsAmong others := by
  simp [nullsAmong]

@[simp] theorem nulls_ofOptionalFields (fields : List (String × Option Value)) :
    (ofOptionalFields fields).nulls = nullsAmong fields := by
  rw [ofOptionalFields, nulls_object]
  induction fields with
  | nil => rfl
  | cons field rest ih =>
    obtain ⟨name, value⟩ := field
    cases value with
    | none => simpa using ih
    | some value => simpa using ih

section Mapped

variable {α : Type} {as : List α}

theorem nulls_items {value : α → Value} (h : ∀ a ∈ as, (value a).nulls = 0) :
    (array (as.map value)).nulls = 0 := by
  simp only [nulls_array, List.map_map, List.sum_eq_zero_iff_forall_eq_nat, List.forall_mem_map]
  exact h

theorem nulls_fields {field : α → String × Value} (h : ∀ a ∈ as, (field a).2.nulls = 0) :
    (object (as.map field)).nulls = 0 := by
  simp only [nulls_object, List.map_map, List.sum_eq_zero_iff_forall_eq_nat, List.forall_mem_map]
  exact h

theorem nulls_optional {value : α → Value} {o : Option α} (h : ∀ a ∈ o, (value a).nulls = 0) :
    (o.map value).elim 0 nulls = 0 := by
  cases o with
  | none => rfl
  | some a => exact h a rfl

end Mapped

@[simp] theorem nulls_strings (texts : List String) : (strings texts).nulls = 0 :=
  nulls_items fun text _ => nulls_string text

end Value

open Value

@[simp] theorem nulls_refs {family : Id.Family} (ids : List (Ref family)) : (refs ids).nulls = 0 :=
  nulls_strings _

@[simp] theorem nulls_intPair (pair : Int × Int) : (intPair pair).nulls = 0 := by
  simp [intPair, nulls_array]

theorem Numeric.BothFinite.nulls {pair : Float × Float} (h : Numeric.BothFinite pair) :
    (floatPair pair).nulls = 0 := by
  simp [floatPair, nulls_array, nulls_float, h.1, h.2]

theorem Numeric.AllFinite.nulls {xs : List Float} (h : Numeric.AllFinite xs) :
    (Value.array (xs.map .float)).nulls = 0 :=
  nulls_items fun x hx => by simp [nulls_float, h x hx]

theorem AttributeTable.Finite.nulls {table : AttributeTable} (h : table.Finite) :
    table.toValue.nulls = 0 :=
  nulls_fields fun row hrow => (h row hrow).nulls

@[simp] theorem IndexTable.nulls_toValue (table : IndexTable) : table.toValue.nulls = 0 :=
  nulls_fields fun _ _ => nulls_items fun index _ => nulls_int index

@[simp] theorem EntryTable.nulls_toValue (table : EntryTable) : table.toValue.nulls = 0 :=
  nulls_fields fun _ _ => nulls_items fun _ _ => nulls_intPair _

@[simp] theorem Parents.nulls_toValue {family : Id.Family} (parents : Parents family) :
    parents.toValue.nulls = 0 :=
  nulls_fields fun parent _ => nulls_int parent.2

@[simp] theorem JewelSlots.nulls_toValue (slots : JewelSlots) : slots.toValue.nulls = 0 := by
  simp [JewelSlots.toValue, nulls_array]

@[simp] theorem JewelSlots.nulls_items (slots : List JewelSlots) :
    (Value.array (slots.map toValue)).nulls = 0 :=
  Value.nulls_items fun row _ => nulls_toValue row

/-- A setting has the nulls of its candidates. -/
theorem Setting.nulls_toValue {α : Type} {value : α → Value} {setting : Setting α}
    (h : ∀ a ∈ setting.candidates, (value a).nulls = 0) : (setting.toValue value).nulls = 0 := by
  cases setting with
  | fixed a => exact h a (List.mem_singleton.mpr rfl)
  | bound id values =>
    have hvalues : (Value.array (values.map value)).nulls = 0 := nulls_items h
    simp [Setting.toValue, nulls_object, hvalues]

theorem Setting.Finite.nulls {setting : Setting Float} (h : setting.Finite) :
    (setting.toValue .float).nulls = 0 :=
  nulls_toValue fun x hx => by simp [nulls_float, h x hx]

@[simp] theorem Setting.nulls_int (setting : Setting Int) : (setting.toValue .int).nulls = 0 :=
  nulls_toValue fun n _ => Value.nulls_int n

@[simp] theorem Setting.nulls_bool (setting : Setting Bool) : (setting.toValue .bool).nulls = 0 :=
  nulls_toValue fun b _ => Value.nulls_bool b

@[simp] theorem Setting.nulls_string (setting : Setting String) :
    (setting.toValue .string).nulls = 0 :=
  nulls_toValue fun s _ => Value.nulls_string s

@[simp] theorem DeriveContinue.nulls_setting (setting : Setting (List DeriveContinue)) :
    (setting.toValue setValue).nulls = 0 :=
  Setting.nulls_toValue fun _ _ => nulls_items fun c _ => nulls_named c

theorem Capsule.Finite.nulls {c : Capsule} (h : c.Finite) : c.toValue.nulls = 0 := by
  simp [Capsule.toValue, nulls_object, nulls_float, h.halfHeight, h.radius]

/-- A key has a null where it has no direction. -/
theorem KeyInput.Finite.nulls {input : KeyInput} (h : input.Finite)
    (hcos : ∀ x : Float, x.isFinite = true → x.cos.isFinite = true) :
    input.toValue.nulls = if input.direction.isNone then 1 else 0 := by
  obtain ⟨key, direction⟩ := input
  cases direction with
  | none => simp [KeyInput.toValue, nulls_array]
  | some d =>
    have hd := (h d rfl).isFinite hcos
    simp [KeyInput.toValue, Direction.toValue, nulls_array, nulls_object, nulls_float, hd]

theorem PhaseAttributes.Finite.nulls {a : PhaseAttributes} (h : a.Finite) :
    a.toValue.nulls = 0 := by
  simp [PhaseAttributes.toValue, nulls_object, h.damageReduction.nulls,
    h.shieldDamageReduction.nulls]

theorem InputMovement.Finite.nulls {m : InputMovement} (h : m.Finite) : m.toValue.nulls = 0 := by
  cases m with
  | rootMotion main extra => simp [InputMovement.toValue, nulls_object]
  | rotation duration angle =>
    simp [InputMovement.toValue, nulls_object, nulls_float, h.1, h.2]

namespace Timeline

variable {V : Type} {P : V → Prop} {value : V → Value}

theorem Ranges.Finite.nulls {timeline : Ranges V} (h : timeline.Finite P)
    (hvalue : ∀ v, P v → (value v).nulls = 0) : (timeline.toValue value).nulls = 0 := by
  have hfragments : (Value.array (timeline.fragments.map Fragment.toValue)).nulls = 0 :=
    nulls_items fun fragment hm => by
      simp [Fragment.toValue, nulls_object, nulls_float, h.fragments fragment hm]
  have hvalues : (Value.array (timeline.values.map value)).nulls = 0 :=
    nulls_items fun v hm => hvalue v (h.values v hm)
  simp [Ranges.toValue, nulls_object, hfragments, hvalues]

theorem Points.Finite.nulls {timeline : Points V} (h : timeline.Finite P)
    (hvalue : ∀ v, P v → (value v).nulls = 0) : (timeline.toValue value).nulls = 0 := by
  simp only [Points.toValue, nulls_object, List.map_cons, List.map_nil, List.sum_singleton]
  refine nulls_items fun pair hm => ?_
  obtain ⟨htime, hv⟩ := h pair hm
  simp [nulls_array, nulls_float, htime, hvalue _ hv]

end Timeline

theorem Animation.Finite.nulls {clip : Animation} (h : clip.Finite) :
    nullsAmong clip.fields = 0 := by
  simp [Animation.fields, nulls_float, h.duration, h.fadeIn]

theorem Animation.Finite.nulls_toValue {clip : Animation} (h : clip.Finite) :
    clip.toValue.nulls = 0 := by
  rw [Animation.toValue, nulls_ofOptionalFields, h.nulls]

theorem MoveStart.Finite.nulls {s : MoveStart} (h : s.Finite) :
    (ActionMove.startValue s).nulls = 0 := by
  simp [ActionMove.startValue, nulls_float, h.anim.nulls, h.enterAngle.nulls, h.turnInPlaceEnd,
    h.quickStopEnd]

theorem MoveTurn.Finite.nulls {t : MoveTurn} (h : t.Finite) :
    (ActionMove.turnValue t).nulls = 0 := by
  simp [ActionMove.turnValue, nulls_float, h.anim.nulls, h.enterAngle.nulls, h.turnInPlaceEnd]

theorem PhaseRow.Finite.nulls {row : PhaseRow} (h : row.Finite) :
    (ActionMove.phaseRowValue row).nulls = 0 := by
  simp [ActionMove.phaseRowValue, nulls_array, nulls_float, h.start, h.stop, h.offset]

theorem MoveStop.Finite.nulls {s : MoveStop} (h : s.Finite) :
    (ActionMove.stopValue s).nulls = 0 := by
  have hrows : (Value.array (s.enterPhaseTable.map ActionMove.phaseRowValue)).nulls = 0 :=
    nulls_items fun row hm => (h.enterPhaseTable row hm).nulls
  simp [ActionMove.stopValue, nulls_float, h.anim.nulls, hrows, h.speedDownEnd]

@[simp] theorem ActionBase.nulls_fields (base : ActionBase) : nullsAmong base.fields = 0 := by
  simp [ActionBase.fields]

theorem Character.Finite.nulls {c : Character} (h : c.Finite) : nullsAmong c.fields = 0 := by
  simp [Character.fields, h.boundingCapsule.nulls, h.skeletonToward.nulls]

theorem FixedAttributes.Finite.nulls {a : FixedAttributes} (h : a.Finite) :
    a.toValue.nulls = 0 := by
  simp [FixedAttributes.toValue, nulls_object, nulls_float, h.damageReduceParam1,
    h.damageReduceParam2, h.guardDamageRatio1, h.depostureReduceParam1, h.depostureReduceParam2,
    h.guardDepostureRatio1, h.weakDamageUp]

theorem Style.Finite.nulls {s : Style} (h : s.Finite) : nullsAmong s.fields = 0 := by
  simp [Style.fields, h.attributes.nulls, h.fixedAttributes.nulls]

theorem Equipment.Finite.nulls {e : Equipment} (h : e.Finite) : nullsAmong e.fields = 0 := by
  have hparents := nulls_optional (o := e.parents) fun parents _ => Parents.nulls_toValue parents
  have hentries := nulls_optional (o := e.entries) fun table _ => EntryTable.nulls_toValue table
  have hslots := nulls_optional (o := e.slots) fun slots _ => JewelSlots.nulls_items slots
  simp [Equipment.fields, h.attributes.nulls, hparents, hentries, hslots]

theorem Entry.Finite.nulls {e : Entry} (h : e.Finite) : nullsAmong e.fields = 0 := by
  have hattributes := nulls_optional fun table hm => (h.attributes table hm).nulls
  have hplus := nulls_optional fun table hm => (h.attributesPlus table hm).nulls
  have hindexes := nulls_optional (o := e.varIndexes) fun table _ => IndexTable.nulls_toValue table
  have hindexesPlus :=
    nulls_optional (o := e.varIndexesPlus) fun table _ => IndexTable.nulls_toValue table
  simp [Entry.fields, hattributes, hplus, hindexes, hindexesPlus]

theorem Perk.Finite.nulls {p : Perk} (h : p.Finite) : nullsAmong p.fields = 0 := by
  have hparents := nulls_optional (o := p.parents) fun parents _ => Parents.nulls_toValue parents
  have hattributes := nulls_optional fun table hm => (h.attributes table hm).nulls
  have hslots := nulls_optional (o := p.slots) fun slots _ => JewelSlots.nulls_items slots
  have hentries := nulls_optional (o := p.entries) fun table _ => EntryTable.nulls_toValue table
  have hindexes := nulls_optional (o := p.varIndexes) fun table _ => IndexTable.nulls_toValue table
  simp [Perk.fields, hparents, hattributes, hslots, hentries, hindexes]

@[simp] theorem Jewel.nulls_fields (j : Jewel) : nullsAmong j.fields = 0 := by
  have hentry := nulls_optional (o := j.sub) fun sub _ => nulls_string sub.1.text
  have hpiece := nulls_optional (o := j.sub) fun sub _ => nulls_int sub.2
  simp [Jewel.fields, hentry, hpiece]

theorem AccessoryPool.Finite.nulls {p : AccessoryPool} (h : p.Finite) :
    nullsAmong p.fields = 0 := by
  have hweights : ∀ entries : List (Ref .entry × Float),
      (∀ entry ∈ entries, entry.2.isFinite = true) → (weightsValue entries).nulls = 0 :=
    fun entries hall => nulls_fields fun entry hm => by simp [nulls_float, hall entry hm]
  simp [AccessoryPool.fields, hweights _ h.aEntries, hweights _ h.bEntries]

@[simp] theorem Accessory.nulls_fields (a : Accessory) : nullsAmong a.fields = 0 := by
  simp [Accessory.fields]

@[simp] theorem Zone.nulls_fields (z : Zone) : nullsAmong z.fields = 0 := by
  simp [Zone.fields]

theorem ActionIdle.Finite.nulls {a : ActionIdle} (h : a.Finite) : nullsAmong a.fields = 0 := by
  have hready := nulls_optional fun clip hm => (h.animReady clip hm).nulls_toValue
  have hrandoms := nulls_optional fun clips hm =>
    nulls_items fun clip hclip => (h.animRandoms clips hm clip hclip).nulls_toValue
  simp [ActionIdle.fields, nulls_float, h.animIdle.nulls_toValue, hready, hrandoms,
    h.autoIdleDelay]

/-- Keys have as many nulls as there are directions that they lack. -/
theorem KeyInput.nulls_sum {keys : List KeyInput} (h : ∀ key ∈ keys, key.Finite)
    (hcos : ∀ x : Float, x.isFinite = true → x.cos.isFinite = true) :
    (keys.map fun key => key.toValue.nulls).sum = keys.countP fun key => key.direction.isNone := by
  induction keys with
  | nil => rfl
  | cons key rest ih =>
    obtain ⟨hkey, hrest⟩ := List.forall_mem_cons.mp h
    rw [List.map_cons, List.sum_cons, ih hrest, hkey.nulls hcos, List.countP_cons, Nat.add_comm]

@[simp] theorem DeriveRule.nulls_toValue (rule : DeriveRule) :
    rule.toValue.nulls = rule.key.toValue.nulls := by
  have haction : (rule.action.toValue fun id => .string id.text).nulls = 0 :=
    Setting.nulls_toValue fun id _ => nulls_string id.text
  simp [DeriveRule.toValue, nulls_object, haction]

theorem ActionGeneral.Finite.nulls {a : ActionGeneral} (h : a.Finite)
    (hcos : ∀ x : Float, x.isFinite = true → x.cos.isFinite = true) :
    nullsAmong a.fields = a.keys.countP fun key => key.direction.isNone := by
  have hinputs := nulls_optional fun timeline hm =>
    (h.inputMovements timeline hm).nulls fun _ hv => hv.nulls
  have hattributes := h.attributes.nulls fun _ hv => hv.nulls
  have hlevels := h.deriveLevels.nulls fun setting _ => Setting.nulls_int setting
  have hevents := nulls_optional fun timeline hm =>
    (h.customEvents timeline hm).nulls fun setting _ => Setting.nulls_string setting
  have hcontinues := nulls_optional (o := a.deriveContinues) fun setting _ =>
    DeriveContinue.nulls_setting setting
  have henter : (a.enterKey.map KeyInput.toValue).elim 0 Value.nulls =
      (a.enterKey.toList.map fun key => key.toValue.nulls).sum := by
    cases a.enterKey with
    | none => rfl
    | some key => simp
  have hderives : (a.derives.map fun rules =>
        Value.array (rules.map DeriveRule.toValue)).elim 0 Value.nulls =
      (((a.derives.getD []).map DeriveRule.key).map fun key => key.toValue.nulls).sum := by
    cases a.derives with
    | none => rfl
    | some rules => simp [nulls_array, Function.comp_def]
  rw [← KeyInput.nulls_sum h.keys hcos, ActionGeneral.keys, List.map_append, List.sum_append,
    ← henter, ← hderives]
  simp [ActionGeneral.fields, h.animMain.nulls_toValue, h.coolDownTime.nulls, hinputs, hattributes,
    hlevels, hevents, hcontinues]

theorem ActionMove.Finite.nulls {a : ActionMove} (h : a.Finite) : nullsAmong a.fields = 0 := by
  have hstarts : (Value.array (a.starts.map startValue)).nulls = 0 :=
    nulls_items fun s hm => (h.starts s hm).nulls
  have hturns : (Value.array (a.turns.map turnValue)).nulls = 0 :=
    nulls_items fun t hm => (h.turns t hm).nulls
  have hstops : (Value.array (a.stops.map stopValue)).nulls = 0 :=
    nulls_items fun s hm => (h.stops s hm).nulls
  simp [ActionMove.fields, nulls_float, h.animMove.nulls_toValue, h.moveSpeed, hstarts, h.startTime,
    hturns, h.turnTime, hstops, h.stopTime, h.quickStopTime, h.smoothMoveDuration]

/-- The record of a finite resource has a null for each direction that a key lacks, and no other. -/
theorem Resource.Finite.nulls {r : Resource} (h : r.Finite)
    (hcos : ∀ x : Float, x.isFinite = true → x.cos.isFinite = true) :
    r.toValue.nulls = r.keys.countP fun key => key.direction.isNone := by
  have hfields : nullsAmong r.fields = r.keys.countP fun key => key.direction.isNone := by
    cases r with
    | character c => exact Character.Finite.nulls h
    | style s => exact Style.Finite.nulls h
    | equipment e => exact Equipment.Finite.nulls h
    | entry e => exact Entry.Finite.nulls h
    | perk p => exact Perk.Finite.nulls h
    | jewel j => exact Jewel.nulls_fields j
    | accessoryPool p => exact AccessoryPool.Finite.nulls h
    | accessory a => exact Accessory.nulls_fields a
    | zone z => exact Zone.nulls_fields z
    | actionIdle a => exact ActionIdle.Finite.nulls h
    | actionGeneral a => exact ActionGeneral.Finite.nulls h hcos
    | actionMove a => exact ActionMove.Finite.nulls h
  simp [Resource.toValue, hfields]

/-- Variables hold no doubles. -/
def Declaration.Plain : Declaration → Prop
  | .variable _ _ => True
  | .resource _ draft => draft.Plain

instance : (d : Declaration) → Decidable d.Plain
  | .variable _ _ => .isTrue trivial
  | .resource _ draft => inferInstanceAs (Decidable draft.Plain)

namespace Registry

/-- Where a resource comes from that a declaration adds. -/
theorem declare_resource {reg grown : Registry} {d : Declaration}
    (h : (reg.declare d).result = .ok grown) {r : Resource} (hr : r ∈ grown.resources) :
    r ∈ reg.resources ∨ ∃ id draft, d = .resource id draft ∧ draft.Builds id r := by
  obtain ⟨_, a, ha, rfl⟩ := declare_ok.mp h
  match d with
  | .variable id draft =>
    obtain ⟨v, _, rfl⟩ := Declaration.made_variable.mp ha
    exact .inl hr
  | .resource id draft =>
    obtain ⟨symbols, built, _, hb, rfl⟩ := Declaration.made_resource.mp ha
    rcases List.mem_append.mp hr with hr | hr
    · exact .inl hr
    · obtain rfl := List.mem_singleton.mp hr
      exact .inr ⟨id, draft, rfl, hb⟩

/-- Every resource is built from a plain draft. -/
def FromPlain (reg : Registry) : Prop :=
  ∀ r ∈ reg.resources, ∃ (id : String) (draft : Draft), draft.Plain ∧ draft.Builds id r

theorem FromPlain.declareAll {ds : List Declaration} (hplain : ∀ d ∈ ds, d.Plain) {reg : Registry}
    (h : reg.FromPlain) : (reg.declareAll ds).registry.FromPlain := by
  induction ds generalizing reg with
  | nil => exact h
  | cons d rest ih =>
    obtain ⟨hd, hrest⟩ := List.forall_mem_cons.mp hplain
    cases hresult : (reg.declare d).result with
    | error fault =>
      rw [(declareAll_of_error hresult rest).1]
      exact h
    | ok grown =>
      rw [(declareAll_of_ok hresult rest).1]
      refine ih hrest fun r hr => ?_
      rcases declare_resource hresult hr with hr | ⟨id, draft, rfl, hb⟩
      · exact h r hr
      · exact ⟨id, draft, hd, hb⟩

theorem FromPlain.after {calls : List (List Declaration)}
    (hplain : ∀ call ∈ calls, ∀ d ∈ call, d.Plain) {reg : Registry} (h : reg.FromPlain) :
    (reg.after calls).FromPlain := by
  induction calls generalizing reg with
  | nil => exact h
  | cons call rest ih =>
    obtain ⟨hcall, hrest⟩ := List.forall_mem_cons.mp hplain
    exact ih hrest (h.declareAll hcall)

end Registry

namespace Registry

end Registry

end GameRoster
