import GameRoster.Registry.Access

namespace GameRoster

/-- Refuses a broken link. -/
def Check.integrity (holds : Bool) (loc : Location) (rule : IntegrityRule) : Check Unit :=
  if holds then .ok () else .error (.integrity loc rule)

/-- Checks the rows of a table one after another, each at the key of its reference. -/
def Location.checkRows {family : Id.Family} {β : Type} (loc : Location)
    (check : Location → Ref family → β → Check Unit) : List (Ref family × β) → Check Unit
  | [] => .ok ()
  | (id, row) :: rest => do
    check (loc.key id.text) id row
    checkRows loc check rest

namespace Character

def checkStyle (c : Character) (reg : Registry) (loc : Location) (id : Ref .style) :
    Check Unit := do
  let s ← reg.findStyle loc id.text
  Check.integrity (s.character.text == c.id) loc .characterStyle

def checkEquipment (c : Character) (reg : Registry) (loc : Location) (id : Ref .equipment) :
    Check Unit := do
  let e ← reg.findEquipment loc id.text
  Check.integrity (e.character.text == c.id) loc .characterEquipment

def verify (c : Character) (reg : Registry) : Check Unit := do
  let loc := Location.ofResource c.id
  (loc "styles").checkEach (c.checkStyle reg) c.styles
  (loc "equipments").checkEach (c.checkEquipment reg) c.equipments

end Character

namespace Style

def hasPerk (s : Style) (id : String) : Bool := s.perks.any (·.text == id)

def hasUsablePerk (s : Style) (id : String) : Bool := s.usablePerks.any (·.text == id)

def hasAction (s : Style) (id : String) : Bool := s.actions.any (·.text == id)

def checkPerk (s : Style) (reg : Registry) (loc : Location) (id : Ref .perk) : Check Unit := do
  let p ← reg.findPerk loc id.text
  Check.integrity (p.style.text == s.id) loc .stylePerk

def checkUsablePerk (s : Style) (reg : Registry) (loc : Location) (id : Ref .perk) :
    Check Unit := do
  let p ← reg.findPerk loc id.text
  Check.integrity (p.usableStyles.any (·.text == s.id)) loc .stylePerk

def checkAction (s : Style) (reg : Registry) (loc : Location) (id : Ref .action) :
    Check Unit := do
  let a ← reg.findAction loc id.text
  Check.integrity (a.styles.any (·.text == s.id)) loc .styleAction

/-- Every attribute has one value per level of the character. -/
def verify (s : Style) (reg : Registry) : Check Unit := do
  let loc := Location.ofResource s.id
  let c ← reg.findCharacter (loc "character") s.character.text
  Check.integrity (c.styles.any (·.text == s.id)) (loc "character") .characterStyle
  let levels := levelCount c.level
  Check.integrity (s.attributes.all fun (_, row) => row.length == levels) (loc "attributes")
    (.attributeLevels levels)
  (loc "perks").checkEach (s.checkPerk reg) s.perks
  (loc "usable_perks").checkEach (s.checkUsablePerk reg) s.usablePerks
  (loc "actions").checkEach (s.checkAction reg) s.actions

end Style

namespace EntryTable

/-- A level may not add more pieces than its entry has, nor more upgrades than fit on them. -/
def checkGain (e : Entry) (loc : Location) (gain : EntryGain) : Check Unit :=
  if e.maxPiece < gain.piece then .error (.integrity loc .tablePiece)
  else if fits gain then .ok ()
  else Check.field loc .plusLimit

def checkRow (reg : Registry) (loc : Location) (id : Ref .entry) (gains : List EntryGain) :
    Check Unit := do
  let e ← reg.findEntry loc id.text
  loc.checkEach (checkGain e) gains

def verify (reg : Registry) (loc : Location) (table : EntryTable) : Check Unit :=
  loc.checkRows (checkRow reg) table

/-- A table that is left out is right. -/
def verifyOptional (reg : Registry) (loc : Location) : Option EntryTable → Check Unit
  | none => .ok ()
  | some table => verify reg loc table

end EntryTable

/-- An index table that is left out is right. -/
def IndexTable.verifyOptional (reg : Registry) (readers : Readers) (loc : Location) :
    Option IndexTable → Check Unit
  | none => .ok ()
  | some table => reg.checkIndexTable readers loc table

namespace Equipment

/-- A parent belongs to the same character and slot, and has the level that is asked for. -/
def checkParent (e : Equipment) (reg : Registry) (loc : Location) (id : Ref .equipment)
    (level : Int) : Check Unit := do
  let parent ← reg.findEquipment loc id.text
  Check.integrity (parent.character.text == e.character.text) loc .parentCharacter
  Check.integrity (parent.slot == e.slot) loc .parentSlot
  Check.integrity (decide (parent.level.1 ≤ level) && decide (level ≤ parent.level.2)) loc
    .parentLevelRange

def verify (e : Equipment) (reg : Registry) : Check Unit := do
  let loc := Location.ofResource e.id
  let c ← reg.findCharacter (loc "character") e.character.text
  Check.integrity (c.equipments.any (·.text == e.id)) (loc "character") .characterEquipment
  (loc "parents").checkRows (e.checkParent reg) (e.parents.getD [])
  EntryTable.verifyOptional reg (loc "entries") e.entries

end Equipment

namespace Entry

def verify (e : Entry) (reg : Registry) : Check Unit := do
  let loc := Location.ofResource e.id
  IndexTable.verifyOptional reg .nobody (loc "var_indexes") e.varIndexes
  IndexTable.verifyOptional reg .nobody (loc "var_indexes_plus") e.varIndexesPlus

end Entry

namespace Perk

def checkUsableStyle (p : Perk) (reg : Registry) (loc : Location) (id : Ref .style) :
    Check Unit := do
  let s ← reg.findStyle loc id.text
  Check.integrity (s.character.text == p.character.text) loc .perkUsableStyleCharacter
  Check.integrity (s.hasUsablePerk p.id) loc .perkUsableStyle

def checkParent (p : Perk) (reg : Registry) (loc : Location) (id : Ref .perk) (level : Int) :
    Check Unit := do
  let parent ← reg.findPerk loc id.text
  Check.integrity (parent.character.text == p.character.text) loc .parentCharacter
  Check.integrity (decide (level ≤ parent.maxLevel)) loc .parentLevel

def verify (p : Perk) (reg : Registry) : Check Unit := do
  let loc := Location.ofResource p.id
  let _ ← reg.findCharacter (loc "character") p.character.text
  let s ← reg.findStyle (loc "style") p.style.text
  Check.integrity (s.character.text == p.character.text) (loc "style") .perkStyleCharacter
  Check.integrity (s.hasPerk p.id) (loc "style") .stylePerk
  (loc "usable_styles").checkEach (p.checkUsableStyle reg) p.usableStyles
  (loc "parents").checkRows (p.checkParent reg) (p.parents.getD [])
  EntryTable.verifyOptional reg (loc "entries") p.entries
  IndexTable.verifyOptional reg (.ofStyles p.usableStyles) (loc "var_indexes") p.varIndexes

end Perk

namespace Jewel

def checkSub (j : Jewel) (reg : Registry) : Check Unit :=
  match j.sub with
  | none => .ok ()
  | some (id, piece) => do
    let loc := Location.ofResource j.id
    let e ← reg.findEntry (loc "sub_entry") id.text
    Check.integrity (decide (piece ≤ e.maxPiece)) (loc "sub_piece") .subEntryPiece

def verify (j : Jewel) (reg : Registry) : Check Unit := do
  let loc := Location.ofResource j.id
  let e ← reg.findEntry (loc "entry") j.entry.text
  Check.integrity (decide (j.piece ≤ e.maxPiece)) (loc "piece") .entryPiece
  j.checkSub reg

end Jewel

namespace AccessoryPool

def checkEntries (reg : Registry) (loc : Location) : List (Ref .entry × Float) → Check Unit
  | [] => .ok ()
  | (id, _) :: rest => do
    let _ ← reg.findEntry loc id.text
    checkEntries reg loc rest

def verify (p : AccessoryPool) (reg : Registry) : Check Unit := do
  let loc := Location.ofResource p.id
  checkEntries reg (loc "a_entries") p.aEntries
  checkEntries reg (loc "b_entries") p.bEntries

end AccessoryPool

namespace Accessory

def verify (a : Accessory) (reg : Registry) : Check Unit := do
  let loc := Location.ofResource a.id
  let _ ← reg.findAccessoryPool (loc "pool") a.pool.text
  let e ← reg.findEntry (loc "entry") a.entry.text
  Check.integrity (decide (a.piece ≤ e.maxPiece)) (loc "piece") .entryPiece

end Accessory

namespace ActionBase

/-- The variables of an action are read on behalf of its styles. -/
def readers (base : ActionBase) : Readers := .ofStyles base.styles

def checkStyle (base : ActionBase) (id : String) (reg : Registry) (loc : Location)
    (style : Ref .style) : Check Unit := do
  let s ← reg.findStyle loc style.text
  Check.integrity (s.character.text == base.character.text) loc .actionStyleCharacter
  Check.integrity (s.hasAction id) loc .styleAction

def verify (base : ActionBase) (id : String) (reg : Registry) : Check Unit := do
  let loc := Location.ofResource id
  reg.checkSetting base.readers (loc "enabled") base.enabled
  let _ ← reg.findCharacter (loc "character") base.character.text
  (loc "styles").checkEach (base.checkStyle id reg) base.styles

end ActionBase

namespace PhaseAttributes

def verify (a : PhaseAttributes) (reg : Registry) (readers : Readers) (loc : Location) :
    Check Unit := do
  reg.checkSetting readers (loc.field "damage_rdc") a.damageReduction
  reg.checkSetting readers (loc.field "shield_dmg_rdc") a.shieldDamageReduction
  reg.checkSetting readers (loc.field "poise_level") a.poiseLevel

end PhaseAttributes

namespace DeriveRule

def checkTarget (reg : Registry) (loc : Location) (id : Ref .action) : Check Unit := do
  let _ ← reg.findAction loc id.text

/-- Every action that a rule may lead to is registered. -/
def verify (reg : Registry) (readers : Readers) (loc : Location) (rule : DeriveRule) :
    Check Unit :=
  match rule.action with
  | .fixed id => checkTarget reg (loc.field "action") id
  | .bound id values =>
    reg.checkSettingWith (checkTarget reg) readers (loc.field "action") (.bound id values)

end DeriveRule

namespace ActionGeneral

def checkRules (reg : Registry) (readers : Readers) (loc : Location) :
    Option (List DeriveRule) → Check Unit
  | none => .ok ()
  | some rules => loc.checkEach (DeriveRule.verify reg readers) rules

def checkContinues (reg : Registry) (readers : Readers) (loc : Location) :
    Option (Setting (List DeriveContinue)) → Check Unit
  | none => .ok ()
  | some setting => reg.checkSetting readers loc setting

def checkEvents (reg : Registry) (readers : Readers) (loc : Location) :
    Option (Timeline.Points (Setting String)) → Check Unit
  | none => .ok ()
  | some events => loc.checkEach (fun loc pair => reg.checkSetting readers loc pair.2) events.pairs

def verify (a : ActionGeneral) (reg : Registry) : Check Unit := do
  let loc := Location.ofResource a.id
  let readers := a.base.readers
  a.base.verify a.id reg
  reg.checkSetting readers (loc "cool_down_time") a.coolDown.time
  reg.checkSetting readers (loc "cool_down_round") a.coolDown.rounds
  reg.checkSetting readers (loc "cool_down_init_round") a.coolDown.initRounds
  (loc "attributes").checkEach (fun loc phase => phase.verify reg readers loc) a.attributes.values
  (loc "derive_levels").checkEach (reg.checkSetting readers) a.deriveLevels.values
  checkRules reg readers (loc "derives") a.derives
  checkContinues reg readers (loc "derive_continues") a.deriveContinues
  checkEvents reg readers (loc "custom_events") a.customEvents

end ActionGeneral

namespace ActionIdle

def verify (a : ActionIdle) (reg : Registry) : Check Unit := a.base.verify a.id reg

end ActionIdle

namespace ActionMove

/-- A move action is taken over only from another move action. -/
def checkSource (reg : Registry) (loc : Location) (id : Ref .action) : Check Unit := do
  let r ← reg.find loc id.text
  Check.integrity r.actionMove?.isSome loc .moveAction

def verify (a : ActionMove) (reg : Registry) : Check Unit := do
  a.base.verify a.id reg
  (Location.ofResource a.id "smooth_move_froms").checkEach (checkSource reg) a.smoothMoveFroms

end ActionMove

namespace Resource

/-- Checks the references of a resource. -/
def verify (reg : Registry) : Resource → Check Unit
  | .character c => c.verify reg
  | .style s => s.verify reg
  | .equipment e => e.verify reg
  | .entry e => e.verify reg
  | .perk p => p.verify reg
  | .jewel j => j.verify reg
  | .accessoryPool p => p.verify reg
  | .accessory a => a.verify reg
  | .zone _ => .ok ()
  | .actionIdle a => a.verify reg
  | .actionGeneral a => a.verify reg
  | .actionMove a => a.verify reg

end Resource

namespace Registry

def verifyFrom (reg : Registry) : List Resource → Check Unit
  | [] => .ok ()
  | r :: rest => do
    r.verify reg
    verifyFrom reg rest

/-- Checks every resource in the order of registration. -/
def verify (reg : Registry) : Check Unit := reg.verifyFrom reg.resources

end Registry

end GameRoster
