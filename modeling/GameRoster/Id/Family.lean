
namespace GameRoster.Id

inductive Family
  | variable
  | character
  | style
  | equipment
  | entry
  | perk
  | accessoryPool
  | accessory
  | jewel
  | action
  | material
  | zone
deriving Repr, DecidableEq

namespace Family

/-- The text an id of this family opens with. -/
def tag : Family → String
  | .variable => "#"
  | .character => "Character"
  | .style => "Style"
  | .equipment => "Equipment"
  | .entry => "Entry"
  | .perk => "Perk"
  | .accessoryPool => "AccessoryPool"
  | .accessory => "Accessory"
  | .jewel => "Jewel"
  | .action => "Action"
  | .material => "Material"
  | .zone => "Zone"

end Family

/-- Why a text is no id of a family. -/
inductive Violation
  | tag
  | pattern
deriving Repr, DecidableEq

def Violation.message (family : Family) : Violation → String
  | .tag => "must start with \"" ++ family.tag ++ "\""
  | .pattern => "must match ID pattern"

end GameRoster.Id
