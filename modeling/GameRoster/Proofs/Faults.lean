import GameRoster.Proofs.Bounds
import GameRoster.Proofs.Families
import GameRoster.Proofs.Places

namespace GameRoster

/-- The faults that only a look at the rest of a registry finds. -/
inductive Fault.OfVerification : Fault → Prop
  | notFound (loc : Location) (id : String) : OfVerification (.notFound loc id)
  | integrity (loc : Location) (rule : IntegrityRule) : OfVerification (.integrity loc rule)
  | variable (loc : Location) (rule : VariableRule) : OfVerification (.variable loc rule)

/-- A fault that verification finds at a location or further in. -/
abbrev Fault.FoundAt (loc : Location) : Fault → Prop := Fault.At Fault.OfVerification loc

/-- A fault that verification finds in a field of a resource. -/
abbrev Fault.FoundIn (id : String) : Fault → Prop := Fault.In Fault.OfVerification id

namespace Check.Fails

theorem integrity (holds : Bool) (loc : Location) (rule : IntegrityRule) :
    Check.Fails (Fault.FoundAt loc) (Check.integrity holds loc rule) := by
  unfold Check.integrity
  split
  · exact ok
  · exact error (.here (.integrity loc rule) rfl)

end Check.Fails

open Check.Fails

namespace Registry

variable {reg : Registry}

theorem find_fails (loc : Location) (id : String) :
    Check.Fails (Fault.FoundAt loc) (reg.find loc id) := by
  unfold Registry.find
  split
  · exact ok
  · exact error (.here (.notFound loc id) rfl)

theorem findVariable_fails (loc : Location) (id : String) :
    Check.Fails (Fault.FoundAt loc) (reg.findVariable loc id) := by
  unfold Registry.findVariable
  split
  · exact ok
  · exact error (.here (.variable loc _) rfl)

theorem checkIndex_fails (v : Variable) (loc : Location) (index : Int) :
    Check.Fails (Fault.FoundAt loc) (checkIndex v loc index) := by
  unfold checkIndex
  split
  · exact error (.here (.variable loc _) rfl)
  · exact ok

/-- Upgrades that fit on their pieces are not refused for their number. -/
theorem checkGain_fails (e : Entry) (loc : Location) {gain : EntryGain}
    (hfits : EntryTable.fits gain = true) :
    Check.Fails (Fault.FoundAt loc) (EntryTable.checkGain e loc gain) := by
  unfold EntryTable.checkGain
  rw [if_pos hfits]
  split
  · exact error (.here (.integrity loc _) rfl)
  · exact ok

section Filed

variable (h : reg.Filed)

include h

/-- A reference is never to a resource of another kind: the family of its id decides the kind. -/
theorem Filed.findAs_fails {α : Type} {family : Id.Family} {expected : Expected}
    {view : Resource → Option α}
    (hview : ∀ {r : Resource}, r.kind.family = family → (view r).isSome = true) (loc : Location)
    (id : Ref family) :
    Check.Fails (Fault.FoundAt loc) (reg.findAs expected view loc id.text) := by
  unfold Registry.findAs
  refine bind (find_fails loc id.text) fun r hr => ?_
  have hsome := hview (h.family (find_ok.mp hr))
  split
  · exact ok
  · rename_i hnone
    simp [hnone] at hsome

theorem Filed.findCharacter_fails (loc : Location) (id : Ref .character) :
    Check.Fails (Fault.FoundAt loc) (reg.findCharacter loc id.text) := by
  refine h.findAs_fails (fun {r} hr => ?_) loc id
  cases r <;> first | rfl | cases hr

theorem Filed.findStyle_fails (loc : Location) (id : Ref .style) :
    Check.Fails (Fault.FoundAt loc) (reg.findStyle loc id.text) := by
  refine h.findAs_fails (fun {r} hr => ?_) loc id
  cases r <;> first | rfl | cases hr

theorem Filed.findEquipment_fails (loc : Location) (id : Ref .equipment) :
    Check.Fails (Fault.FoundAt loc) (reg.findEquipment loc id.text) := by
  refine h.findAs_fails (fun {r} hr => ?_) loc id
  cases r <;> first | rfl | cases hr

theorem Filed.findEntry_fails (loc : Location) (id : Ref .entry) :
    Check.Fails (Fault.FoundAt loc) (reg.findEntry loc id.text) := by
  refine h.findAs_fails (fun {r} hr => ?_) loc id
  cases r <;> first | rfl | cases hr

theorem Filed.findPerk_fails (loc : Location) (id : Ref .perk) :
    Check.Fails (Fault.FoundAt loc) (reg.findPerk loc id.text) := by
  refine h.findAs_fails (fun {r} hr => ?_) loc id
  cases r <;> first | rfl | cases hr

theorem Filed.findAccessoryPool_fails (loc : Location) (id : Ref .accessoryPool) :
    Check.Fails (Fault.FoundAt loc) (reg.findAccessoryPool loc id.text) := by
  refine h.findAs_fails (fun {r} hr => ?_) loc id
  cases r <;> first | rfl | cases hr

/-- All three kinds of action are seen as actions. -/
theorem Filed.findAction_fails (loc : Location) (id : Ref .action) :
    Check.Fails (Fault.FoundAt loc) (reg.findAction loc id.text) := by
  refine h.findAs_fails (fun {r} hr => ?_) loc id
  cases r <;> first | rfl | cases hr

theorem Filed.checkStyleReaders_fails (v : Variable) (loc : Location) (ids : List (Ref .style)) :
    Check.Fails (Fault.FoundAt loc) (reg.checkStyleReaders v loc (ids.map Ref.text)) := by
  induction ids with
  | nil => exact ok
  | cons id rest ih =>
    rw [List.map_cons]
    unfold checkStyleReaders checkStyleReader
    refine step (step (h.findStyle_fails loc id) fun s => ?_) fun _ => ih
    split
    · exact ok
    · exact error (.here (.variable loc _) rfl)

/-- Variables are read on behalf of styles, named by their ids, or of nobody. -/
theorem Filed.checkReaders_fails (v : Variable) (styles : List (Ref .style)) (loc : Location) :
    Check.Fails (Fault.FoundAt loc) (reg.checkReaders v (.ofStyles styles) loc) := by
  unfold checkReaders
  split
  · exact ok
  · exact h.checkStyleReaders_fails v loc styles

theorem Filed.checkSettingWith_fails {α : Type} {each : Location → α → Check Unit}
    (heach : ∀ loc a, Check.Fails (Fault.FoundAt loc) (each loc a)) (styles : List (Ref .style))
    (loc : Location) (setting : Setting α) :
    Check.Fails (Fault.FoundAt loc)
      (reg.checkSettingWith each (.ofStyles styles) loc setting) := by
  cases setting with
  | fixed a => exact ok
  | bound id values =>
    unfold checkSettingWith
    refine step (findVariable_fails loc id.text) fun v => ?_
    refine step (h.checkReaders_fails v styles loc) fun _ => ?_
    split
    · exact step (error (.here (.variable loc _) rfl)) fun _ =>
        checkEach (fun loc a _ => heach loc a) loc
    · exact checkEach (fun loc a _ => heach loc a) loc

theorem Filed.checkSetting_fails {α : Type} (styles : List (Ref .style)) (loc : Location)
    (setting : Setting α) :
    Check.Fails (Fault.FoundAt loc) (reg.checkSetting (.ofStyles styles) loc setting) :=
  h.checkSettingWith_fails (fun _ _ => ok) styles loc setting

theorem Filed.checkIndexTable_fails (styles : List (Ref .style)) (loc : Location)
    (table : IndexTable) :
    Check.Fails (Fault.FoundAt loc) (reg.checkIndexTable (.ofStyles styles) loc table) := by
  induction table with
  | nil => exact ok
  | cons row rest ih =>
    unfold checkIndexTable
    refine step (findVariable_fails loc row.1.text) fun v => ?_
    refine step (h.checkReaders_fails v styles loc) fun _ => ?_
    exact step (checkEach (fun loc index _ => checkIndex_fails v loc index) _).ofKey fun _ => ih

theorem Filed.verifyIndexes_fails (styles : List (Ref .style)) (loc : Location)
    (table : Option IndexTable) :
    Check.Fails (Fault.FoundAt loc)
      (IndexTable.verifyOptional reg (.ofStyles styles) loc table) := by
  cases table with
  | none => exact ok
  | some table => exact h.checkIndexTable_fails styles loc table

theorem Filed.verifyEntries_fails {table : Option EntryTable}
    (hb : ∀ t ∈ table, EntryTable.Bounded t) (loc : Location) :
    Check.Fails (Fault.FoundAt loc) (EntryTable.verifyOptional reg loc table) := by
  cases table with
  | none => exact ok
  | some table =>
    have hrows : ∀ loc, ∀ row ∈ table,
        Check.Fails (Fault.FoundAt loc) (EntryTable.checkRow reg loc row.1 row.2) := by
      intro loc row hrow
      refine step (h.findEntry_fails loc row.1) fun e => checkEach ?_ loc
      intro loc gain hgain
      exact checkGain_fails e loc (hb table rfl row hrow gain hgain).fits
    exact checkRows hrows loc

theorem Filed.character_fails (c : Character) :
    Check.Fails (Fault.FoundIn c.id) (c.verify reg) := by
  unfold Character.verify
  refine stepField (checkEach ?_ _) fun _ => (checkEach ?_ _).inResource
  · intro loc id _
    exact step (h.findStyle_fails loc id) fun s => integrity _ _ _
  · intro loc id _
    exact step (h.findEquipment_fails loc id) fun e => integrity _ _ _

theorem Filed.style_fails (s : Style) : Check.Fails (Fault.FoundIn s.id) (s.verify reg) := by
  have hperks : ∀ loc, ∀ id ∈ s.perks,
      Check.Fails (Fault.FoundAt loc) (s.checkPerk reg loc id) := by
    intro loc id _
    exact step (h.findPerk_fails loc id) fun p => integrity _ _ _
  have husable : ∀ loc, ∀ id ∈ s.usablePerks,
      Check.Fails (Fault.FoundAt loc) (s.checkUsablePerk reg loc id) := by
    intro loc id _
    exact step (h.findPerk_fails loc id) fun p => integrity _ _ _
  have hactions : ∀ loc, ∀ id ∈ s.actions,
      Check.Fails (Fault.FoundAt loc) (s.checkAction reg loc id) := by
    intro loc id _
    exact step (h.findAction_fails loc id) fun a => integrity _ _ _
  unfold Style.verify
  refine stepField (h.findCharacter_fails _ s.character) fun c => ?_
  refine stepField (integrity _ _ _) fun _ => ?_
  refine stepField (integrity _ _ _) fun _ => ?_
  refine stepField (checkEach hperks _) fun _ => ?_
  exact stepField (checkEach husable _) fun _ => (checkEach hactions _).inResource

theorem Filed.equipment_fails {e : Equipment} (hb : e.Bounded) :
    Check.Fails (Fault.FoundIn e.id) (e.verify reg) := by
  have hparents : ∀ loc, ∀ row ∈ e.parents.getD [],
      Check.Fails (Fault.FoundAt loc) (e.checkParent reg loc row.1 row.2) := by
    intro loc row _
    refine step (h.findEquipment_fails loc row.1) fun parent => ?_
    refine step (integrity _ _ _) fun _ => ?_
    exact step (integrity _ _ _) fun _ => integrity _ _ _
  unfold Equipment.verify
  refine stepField (h.findCharacter_fails _ e.character) fun c => ?_
  refine stepField (integrity _ _ _) fun _ => ?_
  refine stepField (checkRows hparents _) fun _ => ?_
  exact (h.verifyEntries_fails hb.entries _).inResource

theorem Filed.entry_fails (e : Entry) : Check.Fails (Fault.FoundIn e.id) (e.verify reg) := by
  unfold Entry.verify
  refine stepField (h.verifyIndexes_fails [] _ e.varIndexes) fun _ => ?_
  exact (h.verifyIndexes_fails [] _ e.varIndexesPlus).inResource

theorem Filed.perk_fails {p : Perk} (hb : p.Bounded) :
    Check.Fails (Fault.FoundIn p.id) (p.verify reg) := by
  have hstyles : ∀ loc, ∀ id ∈ p.usableStyles,
      Check.Fails (Fault.FoundAt loc) (p.checkUsableStyle reg loc id) := by
    intro loc id _
    refine step (h.findStyle_fails loc id) fun s => ?_
    exact step (integrity _ _ _) fun _ => integrity _ _ _
  have hparents : ∀ loc, ∀ row ∈ p.parents.getD [],
      Check.Fails (Fault.FoundAt loc) (p.checkParent reg loc row.1 row.2) := by
    intro loc row _
    refine step (h.findPerk_fails loc row.1) fun parent => ?_
    exact step (integrity _ _ _) fun _ => integrity _ _ _
  unfold Perk.verify
  refine stepField (h.findCharacter_fails _ p.character) fun c => ?_
  refine stepField (h.findStyle_fails _ p.style) fun s => ?_
  refine stepField (integrity _ _ _) fun _ => ?_
  refine stepField (integrity _ _ _) fun _ => ?_
  refine stepField (checkEach hstyles _) fun _ => ?_
  refine stepField (checkRows hparents _) fun _ => ?_
  refine stepField (h.verifyEntries_fails hb.entries _) fun _ => ?_
  exact (h.verifyIndexes_fails p.usableStyles _ p.varIndexes).inResource

theorem Filed.jewel_fails (j : Jewel) : Check.Fails (Fault.FoundIn j.id) (j.verify reg) := by
  unfold Jewel.verify
  refine stepField (h.findEntry_fails _ j.entry) fun e => ?_
  refine stepField (integrity _ _ _) fun _ => ?_
  unfold Jewel.checkSub
  cases j.sub with
  | none => exact ok
  | some sub => exact stepField (h.findEntry_fails _ sub.1) fun e => (integrity _ _ _).inResource

theorem Filed.checkPool_fails (loc : Location) (rows : List (Ref .entry × Float)) :
    Check.Fails (Fault.FoundAt loc) (AccessoryPool.checkEntries reg loc rows) := by
  induction rows with
  | nil => exact ok
  | cons row rest ih => exact step (h.findEntry_fails loc row.1) fun _ => ih

theorem Filed.accessoryPool_fails (p : AccessoryPool) :
    Check.Fails (Fault.FoundIn p.id) (p.verify reg) := by
  unfold AccessoryPool.verify
  refine stepField (h.checkPool_fails _ p.aEntries) fun _ => ?_
  exact (h.checkPool_fails _ p.bEntries).inResource

theorem Filed.accessory_fails (a : Accessory) :
    Check.Fails (Fault.FoundIn a.id) (a.verify reg) := by
  unfold Accessory.verify
  refine stepField (h.findAccessoryPool_fails _ a.pool) fun pool => ?_
  exact stepField (h.findEntry_fails _ a.entry) fun e => (integrity _ _ _).inResource

theorem Filed.base_fails (base : ActionBase) (id : String) :
    Check.Fails (Fault.FoundIn id) (base.verify id reg) := by
  have hstyles : ∀ loc, ∀ style ∈ base.styles,
      Check.Fails (Fault.FoundAt loc) (base.checkStyle id reg loc style) := by
    intro loc style _
    refine step (h.findStyle_fails loc style) fun s => ?_
    exact step (integrity _ _ _) fun _ => integrity _ _ _
  unfold ActionBase.verify
  refine stepField (h.checkSetting_fails base.styles _ base.enabled) fun _ => ?_
  refine stepField (h.findCharacter_fails _ base.character) fun c => ?_
  exact (checkEach hstyles _).inResource

theorem Filed.phase_fails (styles : List (Ref .style)) (loc : Location) (a : PhaseAttributes) :
    Check.Fails (Fault.FoundAt loc) (a.verify reg (.ofStyles styles) loc) := by
  unfold PhaseAttributes.verify
  refine step (h.checkSetting_fails styles _ a.damageReduction).ofField fun _ => ?_
  refine step (h.checkSetting_fails styles _ a.shieldDamageReduction).ofField fun _ => ?_
  exact (h.checkSetting_fails styles _ a.poiseLevel).ofField

theorem Filed.rule_fails (styles : List (Ref .style)) (loc : Location) (rule : DeriveRule) :
    Check.Fails (Fault.FoundAt loc) (rule.verify reg (.ofStyles styles) loc) := by
  have htarget : ∀ loc id,
      Check.Fails (Fault.FoundAt loc) (DeriveRule.checkTarget reg loc id) :=
    fun loc id => step (h.findAction_fails loc id) fun _ => ok
  unfold DeriveRule.verify
  cases rule.action with
  | fixed id => exact (htarget _ id).ofField
  | bound id values =>
    exact (h.checkSettingWith_fails htarget styles _ (.bound id values)).ofField

theorem Filed.rules_fails (styles : List (Ref .style)) (loc : Location)
    (rules : Option (List DeriveRule)) :
    Check.Fails (Fault.FoundAt loc)
      (ActionGeneral.checkRules reg (.ofStyles styles) loc rules) := by
  cases rules with
  | none => exact ok
  | some rules => exact checkEach (fun loc rule _ => h.rule_fails styles loc rule) loc

theorem Filed.continues_fails (styles : List (Ref .style)) (loc : Location)
    (continues : Option (Setting (List DeriveContinue))) :
    Check.Fails (Fault.FoundAt loc)
      (ActionGeneral.checkContinues reg (.ofStyles styles) loc continues) := by
  cases continues with
  | none => exact ok
  | some setting => exact h.checkSetting_fails styles loc setting

theorem Filed.events_fails (styles : List (Ref .style)) (loc : Location)
    (events : Option (Timeline.Points (Setting String))) :
    Check.Fails (Fault.FoundAt loc)
      (ActionGeneral.checkEvents reg (.ofStyles styles) loc events) := by
  cases events with
  | none => exact ok
  | some events => exact checkEach (fun loc pair _ => h.checkSetting_fails styles loc pair.2) loc

theorem Filed.actionGeneral_fails (a : ActionGeneral) :
    Check.Fails (Fault.FoundIn a.id) (a.verify reg) := by
  have hphases : ∀ loc, ∀ phase ∈ a.attributes.values,
      Check.Fails (Fault.FoundAt loc) (phase.verify reg a.base.readers loc) :=
    fun loc phase _ => h.phase_fails a.base.styles loc phase
  have hlevels : ∀ loc, ∀ level ∈ a.deriveLevels.values,
      Check.Fails (Fault.FoundAt loc) (reg.checkSetting a.base.readers loc level) :=
    fun loc level _ => h.checkSetting_fails a.base.styles loc level
  unfold ActionGeneral.verify
  refine step (h.base_fails a.base a.id) fun _ => ?_
  refine stepField (h.checkSetting_fails a.base.styles _ a.coolDown.time) fun _ => ?_
  refine stepField (h.checkSetting_fails a.base.styles _ a.coolDown.rounds) fun _ => ?_
  refine stepField (h.checkSetting_fails a.base.styles _ a.coolDown.initRounds) fun _ => ?_
  refine stepField (checkEach hphases _) fun _ => ?_
  refine stepField (checkEach hlevels _) fun _ => ?_
  refine stepField (h.rules_fails a.base.styles _ a.derives) fun _ => ?_
  refine stepField (h.continues_fails a.base.styles _ a.deriveContinues) fun _ => ?_
  exact (h.events_fails a.base.styles _ a.customEvents).inResource

theorem Filed.actionMove_fails (a : ActionMove) :
    Check.Fails (Fault.FoundIn a.id) (a.verify reg) := by
  unfold ActionMove.verify
  refine step (h.base_fails a.base a.id) fun _ => (checkEach ?_ _).inResource
  intro loc id _
  exact step (find_fails loc id.text) fun r => integrity _ _ _

theorem Filed.resource_fails {r : Resource} (hb : r.Bounded) :
    Check.Fails (Fault.FoundIn r.id) (r.verify reg) := by
  cases r with
  | character c => exact h.character_fails c
  | style s => exact h.style_fails s
  | equipment e => exact h.equipment_fails hb
  | entry e => exact h.entry_fails e
  | perk p => exact h.perk_fails hb
  | jewel j => exact h.jewel_fails j
  | accessoryPool p => exact h.accessoryPool_fails p
  | accessory a => exact h.accessory_fails a
  | zone z => exact ok
  | actionIdle a => exact h.base_fails a.base a.id
  | actionGeneral a => exact h.actionGeneral_fails a
  | actionMove a => exact h.actionMove_fails a

theorem Filed.verifyFrom_fails {resources : List Resource} (hb : ∀ r ∈ resources, r.Bounded) :
    Check.Fails Fault.OfVerification (reg.verifyFrom resources) := by
  induction resources with
  | nil => exact ok
  | cons r rest ih =>
    unfold verifyFrom
    obtain ⟨hr, hrest⟩ := List.forall_mem_cons.mp hb
    have hfirst : Check.Fails Fault.OfVerification (r.verify reg) :=
      (h.resource_fails hr).mono fun _ hf => hf.among
    exact step hfirst fun _ => ih hrest

end Filed

/-- A registry fails to verify only because something is not found, two resources disagree, or a
variable is not as it is used. -/
theorem verify_fault {fault : Fault} (hr : reg.Reachable) (hf : reg.verify = .error fault) :
    fault.OfVerification := by
  have h := hr.sound
  exact hr.filed.verifyFrom_fails (fun r hm => h.bounded hm) fault hf

/-- The archer before her style is registered. -/
def novice : Registry := (empty.declareAll (Declaration.archer.take 2)).registry

theorem novice_fault : novice.Reachable ∧
    ∃ fault, novice.verify = .error fault ∧ fault.OfVerification := by
  have hr : novice.Reachable := .run _ .empty
  obtain ⟨fault, hf⟩ := Check.error_of_isOk (x := novice.verify) (by decide +kernel)
  exact ⟨hr, fault, hf, verify_fault hr hf⟩

end Registry

end GameRoster
