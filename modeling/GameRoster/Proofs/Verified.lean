import GameRoster.Proofs.Readable

namespace GameRoster

/-- An id stands in a list of references. -/
theorem Ref.any_text {family : Id.Family} {refs : List (Ref family)} {id : String} :
    refs.any (·.text == id) = true ↔ id ∈ refs.map Ref.text := by
  simp [List.any_eq_true]

structure Character.Verified (c : Character) (reg : Registry) : Prop where
  styles : ∀ id ∈ c.styles, ∃ s, reg.lookup? Resource.style? id.text = some s ∧
    s.character.text = c.id
  equipments : ∀ id ∈ c.equipments, ∃ e, reg.lookup? Resource.equipment? id.text = some e ∧
    e.character.text = c.id

structure Style.Verified (s : Style) (reg : Registry) : Prop where
  character : ∃ c, reg.lookup? Resource.character? s.character.text = some c ∧
    s.id ∈ c.styles.map Ref.text ∧ ∀ row ∈ s.attributes, row.2.length = levelCount c.level
  perks : ∀ id ∈ s.perks, ∃ p, reg.lookup? Resource.perk? id.text = some p ∧ p.style.text = s.id
  usablePerks : ∀ id ∈ s.usablePerks, ∃ p, reg.lookup? Resource.perk? id.text = some p ∧
    s.id ∈ p.usableStyles.map Ref.text
  actions : ∀ id ∈ s.actions, ∃ a, reg.lookup? Resource.actionBase? id.text = some a ∧
    s.id ∈ a.styles.map Ref.text

/-- Every level adds pieces that the entry has and upgrades that fit on them. -/
def EntryTable.Verified (table : EntryTable) (reg : Registry) : Prop :=
  ∀ row ∈ table, ∃ e, reg.lookup? Resource.entry? row.1.text = some e ∧
    ∀ gain ∈ row.2, gain.piece ≤ e.maxPiece ∧ EntryTable.fits gain = true

structure Equipment.Verified (e : Equipment) (reg : Registry) : Prop where
  character : ∃ c, reg.lookup? Resource.character? e.character.text = some c ∧
    e.id ∈ c.equipments.map Ref.text
  parents : ∀ row ∈ e.parents.getD [], ∃ parent,
    reg.lookup? Resource.equipment? row.1.text = some parent ∧
    parent.character.text = e.character.text ∧ parent.slot = e.slot ∧
    parent.level.1 ≤ row.2 ∧ row.2 ≤ parent.level.2
  entries : ∀ table ∈ e.entries, EntryTable.Verified table reg

structure Entry.Verified (e : Entry) (reg : Registry) : Prop where
  varIndexes : ∀ table ∈ e.varIndexes, reg.AllowsTable .nobody table
  varIndexesPlus : ∀ table ∈ e.varIndexesPlus, reg.AllowsTable .nobody table

structure Perk.Verified (p : Perk) (reg : Registry) : Prop where
  character : ∃ c, reg.lookup? Resource.character? p.character.text = some c
  style : ∃ s, reg.lookup? Resource.style? p.style.text = some s ∧
    s.character.text = p.character.text ∧ p.id ∈ s.perks.map Ref.text
  usableStyles : ∀ id ∈ p.usableStyles, ∃ s, reg.lookup? Resource.style? id.text = some s ∧
    s.character.text = p.character.text ∧ p.id ∈ s.usablePerks.map Ref.text
  parents : ∀ row ∈ p.parents.getD [], ∃ parent,
    reg.lookup? Resource.perk? row.1.text = some parent ∧
    parent.character.text = p.character.text ∧ row.2 ≤ parent.maxLevel
  entries : ∀ table ∈ p.entries, EntryTable.Verified table reg
  varIndexes : ∀ table ∈ p.varIndexes, reg.AllowsTable (.ofStyles p.usableStyles) table

structure Jewel.Verified (j : Jewel) (reg : Registry) : Prop where
  entry : ∃ e, reg.lookup? Resource.entry? j.entry.text = some e ∧ j.piece ≤ e.maxPiece
  sub : ∀ sub ∈ j.sub, ∃ e, reg.lookup? Resource.entry? sub.1.text = some e ∧
    sub.2 ≤ e.maxPiece

structure AccessoryPool.Verified (p : AccessoryPool) (reg : Registry) : Prop where
  aEntries : ∀ row ∈ p.aEntries, ∃ e, reg.lookup? Resource.entry? row.1.text = some e
  bEntries : ∀ row ∈ p.bEntries, ∃ e, reg.lookup? Resource.entry? row.1.text = some e

structure Accessory.Verified (a : Accessory) (reg : Registry) : Prop where
  pool : ∃ p, reg.lookup? Resource.accessoryPool? a.pool.text = some p
  entry : ∃ e, reg.lookup? Resource.entry? a.entry.text = some e ∧ a.piece ≤ e.maxPiece

structure ActionBase.Verified (base : ActionBase) (id : String) (reg : Registry) : Prop where
  enabled : reg.Allows base.readers base.enabled
  character : ∃ c, reg.lookup? Resource.character? base.character.text = some c
  styles : ∀ style ∈ base.styles, ∃ s, reg.lookup? Resource.style? style.text = some s ∧
    s.character.text = base.character.text ∧ id ∈ s.actions.map Ref.text

structure PhaseAttributes.Verified (a : PhaseAttributes) (reg : Registry) (readers : Readers) :
    Prop where
  damageReduction : reg.Allows readers a.damageReduction
  shieldDamageReduction : reg.Allows readers a.shieldDamageReduction
  poiseLevel : reg.Allows readers a.poiseLevel

/-- Every action that a rule may lead to is registered, and a bound one is allowed. -/
structure DeriveRule.Verified (rule : DeriveRule) (reg : Registry) (readers : Readers) : Prop where
  allowed : reg.Allows readers rule.action
  candidates : ∀ id ∈ rule.action.candidates, ∃ a,
    reg.lookup? Resource.actionBase? id.text = some a

structure ActionGeneral.Verified (a : ActionGeneral) (reg : Registry) : Prop where
  base : a.base.Verified a.id reg
  coolDownTime : reg.Allows a.base.readers a.coolDown.time
  coolDownRounds : reg.Allows a.base.readers a.coolDown.rounds
  coolDownInitRounds : reg.Allows a.base.readers a.coolDown.initRounds
  attributes : ∀ phase ∈ a.attributes.values, phase.Verified reg a.base.readers
  deriveLevels : ∀ level ∈ a.deriveLevels.values, reg.Allows a.base.readers level
  derives : ∀ rules ∈ a.derives, ∀ rule ∈ rules, DeriveRule.Verified rule reg a.base.readers
  deriveContinues : ∀ setting ∈ a.deriveContinues, reg.Allows a.base.readers setting
  customEvents : ∀ events ∈ a.customEvents, ∀ pair ∈ events.pairs,
    reg.Allows a.base.readers pair.2

structure ActionMove.Verified (a : ActionMove) (reg : Registry) : Prop where
  base : a.base.Verified a.id reg
  smoothMoveFroms : ∀ id ∈ a.smoothMoveFroms, ∃ source,
    reg.lookup? Resource.actionMove? id.text = some source

namespace Character

theorem checkStyle_ok (c : Character) (reg : Registry) (loc : Location) (id : Ref .style) :
    c.checkStyle reg loc id = .ok () ↔
      ∃ s, reg.lookup? Resource.style? id.text = some s ∧ s.character.text = c.id := by
  simp [checkStyle, Registry.findStyle, Registry.findAs_then, Check.integrity_ok]

theorem checkEquipment_ok (c : Character) (reg : Registry) (loc : Location)
    (id : Ref .equipment) :
    c.checkEquipment reg loc id = .ok () ↔
      ∃ e, reg.lookup? Resource.equipment? id.text = some e ∧ e.character.text = c.id := by
  simp [checkEquipment, Registry.findEquipment, Registry.findAs_then, Check.integrity_ok]

theorem verify_ok {c : Character} {reg : Registry} : c.verify reg = .ok () ↔ c.Verified reg := by
  simp only [verify, Check.then_ok, Location.checkEach_ok (c.checkStyle_ok reg),
    Location.checkEach_ok (c.checkEquipment_ok reg)]
  exact ⟨fun ⟨hs, he⟩ => ⟨hs, he⟩, fun ⟨hs, he⟩ => ⟨hs, he⟩⟩

end Character

namespace Style

theorem checkPerk_ok (s : Style) (reg : Registry) (loc : Location) (id : Ref .perk) :
    s.checkPerk reg loc id = .ok () ↔
      ∃ p, reg.lookup? Resource.perk? id.text = some p ∧ p.style.text = s.id := by
  simp [checkPerk, Registry.findPerk, Registry.findAs_then, Check.integrity_ok]

theorem checkUsablePerk_ok (s : Style) (reg : Registry) (loc : Location) (id : Ref .perk) :
    s.checkUsablePerk reg loc id = .ok () ↔
      ∃ p, reg.lookup? Resource.perk? id.text = some p ∧ s.id ∈ p.usableStyles.map Ref.text := by
  simp only [checkUsablePerk, Registry.findPerk, Registry.findAs_then, Check.integrity_ok,
    Ref.any_text]

theorem checkAction_ok (s : Style) (reg : Registry) (loc : Location) (id : Ref .action) :
    s.checkAction reg loc id = .ok () ↔
      ∃ a, reg.lookup? Resource.actionBase? id.text = some a ∧ s.id ∈ a.styles.map Ref.text := by
  simp only [checkAction, Registry.findAction, Registry.findAs_then, Check.integrity_ok,
    Ref.any_text]

theorem verify_ok {s : Style} {reg : Registry} : s.verify reg = .ok () ↔ s.Verified reg := by
  simp only [verify, Registry.findCharacter, Registry.findAs_then, Check.then_ok,
    Check.integrity_ok, Ref.any_text, List.all_eq_true, beq_iff_eq,
    Location.checkEach_ok (s.checkPerk_ok reg), Location.checkEach_ok (s.checkUsablePerk_ok reg),
    Location.checkEach_ok (s.checkAction_ok reg)]
  constructor
  · rintro ⟨c, hc, hs, ha, hp, hu, hx⟩
    exact ⟨⟨c, hc, hs, ha⟩, hp, hu, hx⟩
  · rintro ⟨⟨c, hc, hs, ha⟩, hp, hu, hx⟩
    exact ⟨c, hc, hs, ha, hp, hu, hx⟩

end Style

namespace EntryTable

theorem checkGain_ok (e : Entry) (loc : Location) (gain : EntryGain) :
    checkGain e loc gain = .ok () ↔ gain.piece ≤ e.maxPiece ∧ fits gain = true := by
  unfold checkGain
  split
  · rename_i h
    simp [Int.not_le.mpr h]
  · rename_i h
    cases hf : fits gain <;> simp [Int.not_lt.mp h, Check.field]

theorem checkRow_ok (reg : Registry) (loc : Location) (id : Ref .entry) (gains : List EntryGain) :
    checkRow reg loc id gains = .ok () ↔
      ∃ e, reg.lookup? Resource.entry? id.text = some e ∧
        ∀ gain ∈ gains, gain.piece ≤ e.maxPiece ∧ fits gain = true := by
  simp only [checkRow, Registry.findEntry, Registry.findAs_then]
  exact exists_congr fun e => and_congr_right fun _ => Location.checkEach_ok (checkGain_ok e) _ _

theorem verifyOptional_ok {reg : Registry} {loc : Location} {table : Option EntryTable} :
    verifyOptional reg loc table = .ok () ↔ ∀ t ∈ table, EntryTable.Verified t reg := by
  cases table with
  | none => simp [verifyOptional]
  | some t =>
    simp only [verifyOptional, verify, Location.checkRows_ok (checkRow_ok reg), EntryTable.Verified,
      Option.mem_def, Option.some.injEq, forall_eq']

end EntryTable

namespace Equipment

theorem checkParent_ok (e : Equipment) (reg : Registry) (loc : Location) (id : Ref .equipment)
    (level : Int) :
    e.checkParent reg loc id level = .ok () ↔
      ∃ parent, reg.lookup? Resource.equipment? id.text = some parent ∧
        parent.character.text = e.character.text ∧ parent.slot = e.slot ∧
        parent.level.1 ≤ level ∧ level ≤ parent.level.2 := by
  simp only [checkParent, Registry.findEquipment, Registry.findAs_then, Check.then_ok,
    Check.integrity_ok, Bool.and_eq_true, decide_eq_true_eq, beq_iff_eq]

theorem verify_ok {e : Equipment} {reg : Registry} : e.verify reg = .ok () ↔ e.Verified reg := by
  simp only [verify, Registry.findCharacter, Registry.findAs_then, Check.then_ok,
    Check.integrity_ok, Ref.any_text, Location.checkRows_ok (e.checkParent_ok reg),
    EntryTable.verifyOptional_ok]
  constructor
  · rintro ⟨c, hc, he, hp, ht⟩
    exact ⟨⟨c, hc, he⟩, hp, ht⟩
  · rintro ⟨⟨c, hc, he⟩, hp, ht⟩
    exact ⟨c, hc, he, hp, ht⟩

end Equipment

namespace Entry

theorem verify_ok {e : Entry} {reg : Registry} : e.verify reg = .ok () ↔ e.Verified reg := by
  simp only [verify, Check.then_ok, IndexTable.verifyOptional_ok]
  exact ⟨fun ⟨hv, hp⟩ => ⟨hv, hp⟩, fun ⟨hv, hp⟩ => ⟨hv, hp⟩⟩

end Entry

namespace Perk

theorem checkUsableStyle_ok (p : Perk) (reg : Registry) (loc : Location) (id : Ref .style) :
    p.checkUsableStyle reg loc id = .ok () ↔
      ∃ s, reg.lookup? Resource.style? id.text = some s ∧
        s.character.text = p.character.text ∧ p.id ∈ s.usablePerks.map Ref.text := by
  simp only [checkUsableStyle, Style.hasUsablePerk, Registry.findStyle, Registry.findAs_then,
    Check.then_ok, Check.integrity_ok, Ref.any_text, beq_iff_eq]

theorem checkParent_ok (p : Perk) (reg : Registry) (loc : Location) (id : Ref .perk)
    (level : Int) :
    p.checkParent reg loc id level = .ok () ↔
      ∃ parent, reg.lookup? Resource.perk? id.text = some parent ∧
        parent.character.text = p.character.text ∧ level ≤ parent.maxLevel := by
  simp only [checkParent, Registry.findPerk, Registry.findAs_then, Check.then_ok,
    Check.integrity_ok, decide_eq_true_eq, beq_iff_eq]

theorem verify_ok {p : Perk} {reg : Registry} : p.verify reg = .ok () ↔ p.Verified reg := by
  simp only [verify, Style.hasPerk, Registry.findCharacter, Registry.findStyle,
    Registry.findAs_then, Check.then_ok, Check.integrity_ok, Ref.any_text, beq_iff_eq,
    Location.checkEach_ok (p.checkUsableStyle_ok reg), Location.checkRows_ok (p.checkParent_ok reg),
    EntryTable.verifyOptional_ok, IndexTable.verifyOptional_ok]
  constructor
  · rintro ⟨c, hc, s, hs, hsc, hsp, hu, hp, he, hv⟩
    exact ⟨⟨c, hc⟩, ⟨s, hs, hsc, hsp⟩, hu, hp, he, hv⟩
  · rintro ⟨⟨c, hc⟩, ⟨s, hs, hsc, hsp⟩, hu, hp, he, hv⟩
    exact ⟨c, hc, s, hs, hsc, hsp, hu, hp, he, hv⟩

end Perk

namespace Jewel

theorem checkSub_ok {j : Jewel} {reg : Registry} :
    j.checkSub reg = .ok () ↔
      ∀ sub ∈ j.sub, ∃ e, reg.lookup? Resource.entry? sub.1.text = some e ∧ sub.2 ≤ e.maxPiece := by
  unfold checkSub
  cases j.sub with
  | none => simp
  | some sub => simp [Registry.findEntry, Registry.findAs_then, Check.integrity_ok]

theorem verify_ok {j : Jewel} {reg : Registry} : j.verify reg = .ok () ↔ j.Verified reg := by
  simp only [verify, Registry.findEntry, Registry.findAs_then, Check.then_ok, Check.integrity_ok,
    decide_eq_true_eq, checkSub_ok]
  constructor
  · rintro ⟨e, he, hp, hs⟩
    exact ⟨⟨e, he, hp⟩, hs⟩
  · rintro ⟨⟨e, he, hp⟩, hs⟩
    exact ⟨e, he, hp, hs⟩

end Jewel

namespace AccessoryPool

theorem checkEntries_ok {reg : Registry} {loc : Location} {rows : List (Ref .entry × Float)} :
    checkEntries reg loc rows = .ok () ↔
      ∀ row ∈ rows, ∃ e, reg.lookup? Resource.entry? row.1.text = some e := by
  induction rows with
  | nil => simp [checkEntries]
  | cons row rest ih => simp [checkEntries, Registry.findEntry, Registry.findAs_then, ih]

theorem verify_ok {p : AccessoryPool} {reg : Registry} :
    p.verify reg = .ok () ↔ p.Verified reg := by
  simp only [verify, Check.then_ok, checkEntries_ok]
  exact ⟨fun ⟨ha, hb⟩ => ⟨ha, hb⟩, fun ⟨ha, hb⟩ => ⟨ha, hb⟩⟩

end AccessoryPool

namespace Accessory

theorem verify_ok {a : Accessory} {reg : Registry} : a.verify reg = .ok () ↔ a.Verified reg := by
  simp only [verify, Registry.findAccessoryPool, Registry.findEntry, Registry.findAs_then,
    Check.integrity_ok, decide_eq_true_eq]
  constructor
  · rintro ⟨p, hp, e, he, hl⟩
    exact ⟨⟨p, hp⟩, e, he, hl⟩
  · rintro ⟨⟨p, hp⟩, e, he, hl⟩
    exact ⟨p, hp, e, he, hl⟩

end Accessory

namespace ActionBase

theorem checkStyle_ok (base : ActionBase) (id : String) (reg : Registry) (loc : Location)
    (style : Ref .style) :
    base.checkStyle id reg loc style = .ok () ↔
      ∃ s, reg.lookup? Resource.style? style.text = some s ∧
        s.character.text = base.character.text ∧ id ∈ s.actions.map Ref.text := by
  simp only [checkStyle, Style.hasAction, Registry.findStyle, Registry.findAs_then, Check.then_ok,
    Check.integrity_ok, Ref.any_text, beq_iff_eq]

theorem verify_ok {base : ActionBase} {id : String} {reg : Registry} :
    base.verify id reg = .ok () ↔ base.Verified id reg := by
  simp only [verify, Registry.findCharacter, Registry.findAs_then, Check.then_ok,
    Registry.checkSetting_ok, Location.checkEach_ok (base.checkStyle_ok id reg)]
  constructor
  · rintro ⟨he, c, hc, hs⟩
    exact ⟨he, ⟨c, hc⟩, hs⟩
  · rintro ⟨he, ⟨c, hc⟩, hs⟩
    exact ⟨he, c, hc, hs⟩

end ActionBase

namespace PhaseAttributes

theorem verify_ok (reg : Registry) (readers : Readers) (loc : Location) (a : PhaseAttributes) :
    a.verify reg readers loc = .ok () ↔ a.Verified reg readers := by
  simp only [verify, Check.then_ok, Registry.checkSetting_ok]
  exact ⟨fun ⟨hd, hs, hp⟩ => ⟨hd, hs, hp⟩, fun ⟨hd, hs, hp⟩ => ⟨hd, hs, hp⟩⟩

end PhaseAttributes

namespace DeriveRule

theorem checkTarget_ok (reg : Registry) (loc : Location) (id : Ref .action) :
    checkTarget reg loc id = .ok () ↔
      ∃ a, reg.lookup? Resource.actionBase? id.text = some a := by
  simp only [checkTarget, Registry.findAction, Registry.findAs_then, Check.pure_ok, and_true]

theorem verify_ok (reg : Registry) (readers : Readers) (loc : Location) (rule : DeriveRule) :
    verify reg readers loc rule = .ok () ↔ DeriveRule.Verified rule reg readers := by
  have hv : DeriveRule.Verified rule reg readers ↔ reg.Allows readers rule.action ∧
      ∀ id ∈ rule.action.candidates, ∃ a, reg.lookup? Resource.actionBase? id.text = some a :=
    ⟨fun ⟨ha, hc⟩ => ⟨ha, hc⟩, fun ⟨ha, hc⟩ => ⟨ha, hc⟩⟩
  rw [hv]
  unfold verify
  cases rule.action with
  | fixed id => simp [checkTarget_ok, Registry.Allows, Setting.candidates]
  | bound id values =>
    exact Registry.checkSettingWith_bound_ok (checkTarget_ok reg)

end DeriveRule

namespace ActionGeneral

theorem checkRules_ok {reg : Registry} {readers : Readers} {loc : Location}
    {rules : Option (List DeriveRule)} :
    checkRules reg readers loc rules = .ok () ↔
      ∀ rs ∈ rules, ∀ rule ∈ rs, DeriveRule.Verified rule reg readers := by
  cases rules with
  | none => simp [checkRules]
  | some rs => simp [checkRules, Location.checkEach_ok (DeriveRule.verify_ok reg readers)]

theorem checkContinues_ok {reg : Registry} {readers : Readers} {loc : Location}
    {continues : Option (Setting (List DeriveContinue))} :
    checkContinues reg readers loc continues = .ok () ↔
      ∀ setting ∈ continues, reg.Allows readers setting := by
  cases continues with
  | none => simp [checkContinues]
  | some setting => simp [checkContinues, Registry.checkSetting_ok]

theorem checkEvents_ok {reg : Registry} {readers : Readers} {loc : Location}
    {events : Option (Timeline.Points (Setting String))} :
    checkEvents reg readers loc events = .ok () ↔
      ∀ es ∈ events, ∀ pair ∈ es.pairs, reg.Allows readers pair.2 := by
  cases events with
  | none => simp [checkEvents]
  | some es =>
    simp only [checkEvents, Option.mem_def, Option.some.injEq, forall_eq']
    exact Location.checkEach_ok
      (P := fun pair : Float × Setting String => reg.Allows readers pair.2)
      (fun _ _ => Registry.checkSetting_ok) loc es.pairs

theorem verify_ok {a : ActionGeneral} {reg : Registry} :
    a.verify reg = .ok () ↔ a.Verified reg := by
  simp only [verify, Check.then_ok, ActionBase.verify_ok, Registry.checkSetting_ok, checkRules_ok,
    checkContinues_ok, checkEvents_ok,
    Location.checkEach_ok fun loc phase => PhaseAttributes.verify_ok reg a.base.readers loc phase,
    Location.checkEach_ok (P := fun level : Setting Int => reg.Allows a.base.readers level)
      fun _ _ => Registry.checkSetting_ok]
  constructor
  · rintro ⟨hb, ht, hr, hi, ha, hl, hd, hc, he⟩
    exact ⟨hb, ht, hr, hi, ha, hl, hd, hc, he⟩
  · rintro ⟨hb, ht, hr, hi, ha, hl, hd, hc, he⟩
    exact ⟨hb, ht, hr, hi, ha, hl, hd, hc, he⟩

end ActionGeneral

namespace ActionMove

theorem checkSource_ok (reg : Registry) (loc : Location) (id : Ref .action) :
    checkSource reg loc id = .ok () ↔
      ∃ source, reg.lookup? Resource.actionMove? id.text = some source := by
  simp only [checkSource, Check.bind_ok, Registry.find_ok, Check.integrity_ok,
    Option.isSome_iff_exists, Registry.lookup?, Option.bind_eq_some_iff]
  constructor
  · rintro ⟨r, hr, source, hs⟩
    exact ⟨source, r, hr, hs⟩
  · rintro ⟨source, r, hr, hs⟩
    exact ⟨r, hr, source, hs⟩

theorem verify_ok {a : ActionMove} {reg : Registry} : a.verify reg = .ok () ↔ a.Verified reg := by
  simp only [verify, Check.then_ok, ActionBase.verify_ok,
    Location.checkEach_ok (checkSource_ok reg)]
  exact ⟨fun ⟨hb, hs⟩ => ⟨hb, hs⟩, fun ⟨hb, hs⟩ => ⟨hb, hs⟩⟩

end ActionMove

namespace Resource

/-- A zone refers to nothing. -/
def Verified (reg : Registry) : Resource → Prop
  | .character c => c.Verified reg
  | .style s => s.Verified reg
  | .equipment e => e.Verified reg
  | .entry e => e.Verified reg
  | .perk p => p.Verified reg
  | .jewel j => j.Verified reg
  | .accessoryPool p => p.Verified reg
  | .accessory a => a.Verified reg
  | .zone _ => True
  | .actionIdle a => a.base.Verified a.id reg
  | .actionGeneral a => a.Verified reg
  | .actionMove a => a.Verified reg

theorem verify_ok {reg : Registry} {r : Resource} : r.verify reg = .ok () ↔ r.Verified reg := by
  cases r with
  | character c => exact Character.verify_ok
  | style s => exact Style.verify_ok
  | equipment e => exact Equipment.verify_ok
  | entry e => exact Entry.verify_ok
  | perk p => exact Perk.verify_ok
  | jewel j => exact Jewel.verify_ok
  | accessoryPool p => exact AccessoryPool.verify_ok
  | accessory a => exact Accessory.verify_ok
  | zone z => simp [verify, Verified]
  | actionIdle a => exact ActionBase.verify_ok
  | actionGeneral a => exact ActionGeneral.verify_ok
  | actionMove a => exact ActionMove.verify_ok

end Resource

/-- A registry verifies exactly when each of its resources does. -/
theorem Registry.verify_ok {reg : Registry} :
    reg.verify = .ok () ↔ ∀ r ∈ reg.resources, r.Verified reg := by
  have hv : ∀ resources, reg.verifyFrom resources = .ok () ↔
      ∀ r ∈ resources, r.Verified reg := by
    intro resources
    induction resources with
    | nil => simp [verifyFrom]
    | cons r rest ih => simp [verifyFrom, Check.then_ok, Resource.verify_ok, ih]
  exact hv reg.resources

end GameRoster
