import GameRoster.Action.General
import GameRoster.Action.Idle
import GameRoster.Action.Move
import GameRoster.Resource.Accessory
import GameRoster.Resource.Character
import GameRoster.Resource.Entry
import GameRoster.Resource.Equipment
import GameRoster.Resource.Jewel
import GameRoster.Resource.Perk
import GameRoster.Resource.Style
import GameRoster.Resource.Zone
import GameRoster.Value.Printer

namespace GameRoster

/-- What an author writes for a resource. -/
inductive Draft
  | character (draft : CharacterDraft)
  | style (draft : StyleDraft)
  | equipment (draft : EquipmentDraft)
  | entry (draft : EntryDraft)
  | perk (draft : PerkDraft)
  | jewel (draft : JewelDraft)
  | accessoryPool (draft : AccessoryPoolDraft)
  | accessory (draft : AccessoryDraft)
  | zone (draft : ZoneDraft)
  | actionIdle (draft : ActionIdleDraft)
  | actionGeneral (draft : ActionGeneralDraft)
  | actionMove (draft : ActionMoveDraft)

inductive Resource
  | character (c : Character)
  | style (s : Style)
  | equipment (e : Equipment)
  | entry (e : Entry)
  | perk (p : Perk)
  | jewel (j : Jewel)
  | accessoryPool (p : AccessoryPool)
  | accessory (a : Accessory)
  | zone (z : Zone)
  | actionIdle (a : ActionIdle)
  | actionGeneral (a : ActionGeneral)
  | actionMove (a : ActionMove)

namespace Draft

def kind : Draft → Kind
  | .character _ => .character
  | .style _ => .style
  | .equipment _ => .equipment
  | .entry _ => .entry
  | .perk _ => .perk
  | .jewel _ => .jewel
  | .accessoryPool _ => .accessoryPool
  | .accessory _ => .accessory
  | .zone _ => .zone
  | .actionIdle _ => .actionIdle
  | .actionGeneral _ => .actionGeneral
  | .actionMove _ => .actionMove

/-- Reads the draft of a resource of a kind. -/
def ofNode? (format : Document.Format) (kind : Kind) (node : Document.Node) : Option Draft :=
  match kind with
  | .character => (CharacterDraft.ofNode? format node).map .character
  | .style => (StyleDraft.ofNode? format node).map .style
  | .equipment => (EquipmentDraft.ofNode? format node).map .equipment
  | .entry => (EntryDraft.ofNode? format node).map .entry
  | .perk => (PerkDraft.ofNode? format node).map .perk
  | .jewel => (JewelDraft.ofNode? format node).map .jewel
  | .accessoryPool => (AccessoryPoolDraft.ofNode? format node).map .accessoryPool
  | .accessory => (AccessoryDraft.ofNode? format node).map .accessory
  | .zone => (ZoneDraft.ofNode? format node).map .zone
  | .actionIdle => (ActionIdleDraft.ofNode? format node).map .actionIdle
  | .actionGeneral => (ActionGeneralDraft.ofNode? format node).map .actionGeneral
  | .actionMove => (ActionMoveDraft.ofNode? format node).map .actionMove

/-- Checks the fields of a draft and builds the resource. -/
def build (id : String) : Draft → Checked Resource
  | .character draft => do return .character (← Character.build id draft)
  | .style draft => do return .style (← Style.build id draft)
  | .equipment draft => do return .equipment (← Equipment.build id draft)
  | .entry draft => do return .entry (← Entry.build id draft)
  | .perk draft => do return .perk (← Perk.build id draft)
  | .jewel draft => do return .jewel (← Jewel.build id draft)
  | .accessoryPool draft => do return .accessoryPool (← AccessoryPool.build id draft)
  | .accessory draft => do return .accessory (← Accessory.build id draft)
  | .zone draft => do return .zone (← Zone.build id draft)
  | .actionIdle draft => do return .actionIdle (← ActionIdle.build id draft)
  | .actionGeneral draft => do return .actionGeneral (← ActionGeneral.build id draft)
  | .actionMove draft => do return .actionMove (← ActionMove.build id draft)

end Draft

namespace Resource

def kind : Resource → Kind
  | .character _ => .character
  | .style _ => .style
  | .equipment _ => .equipment
  | .entry _ => .entry
  | .perk _ => .perk
  | .jewel _ => .jewel
  | .accessoryPool _ => .accessoryPool
  | .accessory _ => .accessory
  | .zone _ => .zone
  | .actionIdle _ => .actionIdle
  | .actionGeneral _ => .actionGeneral
  | .actionMove _ => .actionMove

def id : Resource → String
  | .character c => c.id
  | .style s => s.id
  | .equipment e => e.id
  | .entry e => e.id
  | .perk p => p.id
  | .jewel j => j.id
  | .accessoryPool p => p.id
  | .accessory a => a.id
  | .zone z => z.id
  | .actionIdle a => a.id
  | .actionGeneral a => a.id
  | .actionMove a => a.id

def character? : Resource → Option Character
  | .character c => some c
  | _ => none

def style? : Resource → Option Style
  | .style s => some s
  | _ => none

def equipment? : Resource → Option Equipment
  | .equipment e => some e
  | _ => none

def entry? : Resource → Option Entry
  | .entry e => some e
  | _ => none

def perk? : Resource → Option Perk
  | .perk p => some p
  | _ => none

def accessoryPool? : Resource → Option AccessoryPool
  | .accessoryPool p => some p
  | _ => none

def actionMove? : Resource → Option ActionMove
  | .actionMove a => some a
  | _ => none

/-- What an action of any kind shares with the others. -/
def actionBase? : Resource → Option ActionBase
  | .actionIdle a => some a.base
  | .actionGeneral a => some a.base
  | .actionMove a => some a.base
  | _ => none

/-- The fields of a record in the order they are written. Absent ones are left out. -/
def fields : Resource → List (String × Option Value)
  | .character c => c.fields
  | .style s => s.fields
  | .equipment e => e.fields
  | .entry e => e.fields
  | .perk p => p.fields
  | .jewel j => j.fields
  | .accessoryPool p => p.fields
  | .accessory a => a.fields
  | .zone z => z.fields
  | .actionIdle a => a.fields
  | .actionGeneral a => a.fields
  | .actionMove a => a.fields

/-- The record of a resource, tagged by its kind. -/
def toValue (r : Resource) : Value :=
  .ofOptionalFields (("T", some (.string r.kind.name)) :: r.fields)

/-- The text of the record. -/
def record (r : Resource) : String := r.toValue.render

end Resource

end GameRoster
