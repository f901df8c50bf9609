import GameRoster.Id.Family

namespace GameRoster

inductive Kind
  | character
  | style
  | equipment
  | entry
  | perk
  | jewel
  | accessoryPool
  | accessory
  | zone
  | actionIdle
  | actionGeneral
  | actionMove
deriving Repr, DecidableEq

namespace Kind

/-- The name that tags an exported record. -/
def name : Kind → String
  | .character => "Character"
  | .style => "Style"
  | .equipment => "Equipment"
  | .entry => "Entry"
  | .perk => "Perk"
  | .jewel => "Jewel"
  | .accessoryPool => "AccessoryPool"
  | .accessory => "Accessory"
  | .zone => "Zone"
  | .actionIdle => "ActionIdle"
  | .actionGeneral => "ActionGeneral"
  | .actionMove => "ActionMove"

/-- The three kinds of action share a family; every other kind has one of its own. -/
def family : Kind → Id.Family
  | .character => .character
  | .style => .style
  | .equipment => .equipment
  | .entry => .entry
  | .perk => .perk
  | .jewel => .jewel
  | .accessoryPool => .accessoryPool
  | .accessory => .accessory
  | .zone => .zone
  | .actionIdle => .action
  | .actionGeneral => .action
  | .actionMove => .action

def all : List Kind :=
  [.character, .style, .equipment, .entry, .perk, .jewel, .accessoryPool, .accessory, .zone,
   .actionIdle, .actionGeneral, .actionMove]

end Kind

end GameRoster
