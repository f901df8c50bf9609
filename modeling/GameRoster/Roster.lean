import GameRoster.Document.Json
import GameRoster.Document.Ron
import GameRoster.Registry.History
import GameRoster.Registry.Verification

namespace GameRoster

structure Roster where
  definitions : List (String × VariableDraft)
  characters : List (String × CharacterDraft)
  styles : List (String × StyleDraft)
  equipments : List (String × EquipmentDraft)
  entries : List (String × EntryDraft)
  perks : List (String × PerkDraft)
  jewels : List (String × JewelDraft)
  accessoryPools : List (String × AccessoryPoolDraft)
  accessories : List (String × AccessoryDraft)
  zones : List (String × ZoneDraft)
  idleActions : List (String × ActionIdleDraft)
  generalActions : List (String × ActionGeneralDraft)
  moveActions : List (String × ActionMoveDraft)

namespace Roster
open Document

/-- One map per kind, each of which may be left out. -/
def shape : Shape :=
  .record "Roster" [optional "vars" (.map VariableDraft.shape),
    optional "characters" (.map CharacterDraft.shape), optional "styles" (.map StyleDraft.shape),
    optional "equipments" (.map EquipmentDraft.shape), optional "entries" (.map EntryDraft.shape),
    optional "perks" (.map PerkDraft.shape), optional "jewels" (.map JewelDraft.shape),
    optional "accessory_pools" (.map AccessoryPoolDraft.shape),
    optional "accessories" (.map AccessoryDraft.shape), optional "zones" (.map ZoneDraft.shape),
    optional "idle_actions" (.map ActionIdleDraft.shape),
    optional "general_actions" (.map ActionGeneralDraft.shape),
    optional "move_actions" (.map ActionMoveDraft.shape)]

/-- Reads the drafts of a map; a map that is left out is empty. -/
def drafts? {α : Type} (fields : Fields) (name : String) (draft? : Node → Option α) :
    Option (List (String × α)) :=
  fields.getD? name (Node.map? draft?) []

def ofNode? (format : Format) (node : Node) : Option Roster := do
  let fields ← node.record? format shape
  return {
    definitions := ← drafts? fields "vars" (VariableDraft.ofNode? format)
    characters := ← drafts? fields "characters" (CharacterDraft.ofNode? format)
    styles := ← drafts? fields "styles" (StyleDraft.ofNode? format)
    equipments := ← drafts? fields "equipments" (EquipmentDraft.ofNode? format)
    entries := ← drafts? fields "entries" (EntryDraft.ofNode? format)
    perks := ← drafts? fields "perks" (PerkDraft.ofNode? format)
    jewels := ← drafts? fields "jewels" (JewelDraft.ofNode? format)
    accessoryPools := ← drafts? fields "accessory_pools" (AccessoryPoolDraft.ofNode? format)
    accessories := ← drafts? fields "accessories" (AccessoryDraft.ofNode? format)
    zones := ← drafts? fields "zones" (ZoneDraft.ofNode? format)
    idleActions := ← drafts? fields "idle_actions" (ActionIdleDraft.ofNode? format)
    generalActions := ← drafts? fields "general_actions" (ActionGeneralDraft.ofNode? format)
    moveActions := ← drafts? fields "move_actions" (ActionMoveDraft.ofNode? format) }

def ofJson? (text : String) : Option Roster := (Json.parse? text).bind (ofNode? .json)

def ofRon? (text : String) : Option Roster := (Ron.parse? shape text).bind (ofNode? .ron)

/-- The declarations of the resources of one kind. -/
def resources {α : Type} (draft : α → Draft) (entries : List (String × α)) : List Declaration :=
  entries.map fun (id, written) => .resource id (draft written)

def resourceDeclarations (roster : Roster) : List Declaration :=
  resources .character roster.characters ++
  resources .style roster.styles ++
  resources .equipment roster.equipments ++
  resources .entry roster.entries ++
  resources .perk roster.perks ++
  resources .jewel roster.jewels ++
  resources .accessoryPool roster.accessoryPools ++
  resources .accessory roster.accessories ++
  resources .zone roster.zones ++
  resources .actionIdle roster.idleActions ++
  resources .actionGeneral roster.generalActions ++
  resources .actionMove roster.moveActions

/-- Everything that a roster declares, in the order of registration. -/
def declarations (roster : Roster) : List Declaration :=
  roster.definitions.map (fun (id, draft) => .variable id draft) ++ roster.resourceDeclarations

/-- The number of resources declared. Variables do not count. -/
def length (roster : Roster) : Nat := roster.resourceDeclarations.length

def isEmpty (roster : Roster) : Bool := roster.length == 0

/-- Declares everything in a registry. -/
def register (roster : Roster) (reg : Registry) : Run := reg.declareAll roster.declarations

/-- A new registry that holds the roster and verifies. -/
def buildRegistry (roster : Roster) : Checked Registry := do
  let reg ← (roster.register .empty).checked
  reg.verify
  return reg

end Roster

end GameRoster
