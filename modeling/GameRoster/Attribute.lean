
namespace GameRoster.Attribute

/-- Base stats. -/
def primaryNames : List String :=
  ["MaxHealth", "HealthCureRatio", "MaxPosture", "PostureRecovery", "PhysicalAttack",
   "ElementalAttack", "ArcaneAttack", "PhysicalDefense", "ElementalDefense", "ArcaneDefense"]

/-- Percentage modifiers. -/
def secondaryNames : List String :=
  ["MaxHealthUp", "MaxPostureUp", "PostureRecoveryUp", "AttackUp", "AttackDown",
   "PhysicalAttackUp", "PhysicalAttackDown", "ElementalAttackUp", "ElementalAttackDown",
   "ArcaneAttackUp", "ArcaneAttackDown", "DefenseUp", "DefenseDown", "PhysicalDefenseUp",
   "PhysicalDefenseDown", "CutDefenseUp", "CutDefenseDown", "BluntDefenseUp", "BluntDefenseDown",
   "AmmoDefenseUp", "AmmoDefenseDown", "ElementalDefenseUp", "ElementalDefenseDown",
   "FireDefenseUp", "FireDefenseDown", "IceDefenseUp", "IceDefenseDown", "ThunderDefenseUp",
   "ThunderDefenseDown", "ArcaneDefenseUp", "ArcaneDefenseDown", "CriticalChance",
   "CriticalDamage", "DamageUp", "DamageDown", "PhysicalDamageUp", "PhysicalDamageDown",
   "CutDamageUp", "CutDamageDown", "BluntDamageUp", "BluntDamageDown", "AmmoDamageUp",
   "AmmoDamageDown", "ElementalDamageUp", "ElementalDamageDown", "FireDamageUp", "FireDamageDown",
   "IceDamageUp", "IceDamageDown", "ThunderDamageUp", "ThunderDamageDown", "ArcaneDamageUp",
   "ArcaneDamageDown", "NormalDamageUp", "NormalDamageDown", "SkillDamageUp", "SkillDamageDown",
   "BurstDamageUp", "BurstDamageDown", "MeleeDamageUp", "MeleeDamageDown", "RangedDamageUp",
   "RangedDamageDown", "DepostureUp", "DepostureDown", "PhysicalDepostureUp",
   "PhysicalDepostureDown", "ElementalDepostureUp", "ElementalDepostureDown", "ArcaneDepostureUp",
   "ArcaneDepostureDown", "MeleeDepostureUp", "MeleeDepostureDown", "RangedDepostureUp",
   "RangedDepostureDown", "PerfectDodgeTime", "PerfectGuardTime"]

/-- Multipliers that are applied last. -/
def finalNames : List String :=
  ["FinalMaxHealthRatio", "FinalMaxPostureRatio", "FinalPostureRecoveryRatio", "FinalDamageRatio",
   "FinalPhysicalDamageRatio", "FinalCutDamageRatio", "FinalBluntDamageRatio",
   "FinalAmmoDamageRatio", "FinalElementalDamageRatio", "FinalFireDamageRatio",
   "FinalIceDamageRatio", "FinalThunderDamageRatio", "FinalArcaneDamageRatio",
   "FinalNormalDamageRatio", "FinalSkillDamageRatio", "FinalBurstDamageRatio",
   "FinalMeleeDamageRatio", "FinalRangedDamageRatio", "FinalDepostureRatio",
   "FinalPhysicalDepostureRatio", "FinalElementalDepostureRatio", "FinalArcaneDepostureRatio",
   "FinalNormalDepostureRatio", "FinalSkillDepostureRatio", "FinalBurstDepostureRatio",
   "FinalMeleeDepostureRatio", "FinalRangedDepostureRatio"]

inductive Group
  | primary
  | primaryPlus
  | secondary
  | secondaryPlus
  | final
  | finalPlus
deriving Repr, DecidableEq

namespace Group

def name : Group → String
  | .primary => "Primary"
  | .primaryPlus => "PrimaryPlus"
  | .secondary => "Secondary"
  | .secondaryPlus => "SecondaryPlus"
  | .final => "Final"
  | .finalPlus => "FinalPlus"

def all : List Group :=
  [.primary, .primaryPlus, .secondary, .secondaryPlus, .final, .finalPlus]

/-- The group of a name without a dollar sign. -/
def ofBase? (name : String) : Option Group :=
  if primaryNames.contains name then some .primary
  else if secondaryNames.contains name then some .secondary
  else if finalNames.contains name then some .final
  else none

def plus : Group → Group
  | .primary | .primaryPlus => .primaryPlus
  | .secondary | .secondaryPlus => .secondaryPlus
  | .final | .finalPlus => .finalPlus

end Group

/-- The name that follows a dollar sign. -/
def plusBase? (name : String) : Option String :=
  match name.toList with
  | '$' :: base => some (String.ofList base)
  | _ => none

/-- The group a name belongs to, if it is an attribute. -/
def groupOf? (name : String) : Option Group :=
  match plusBase? name with
  | some base => (Group.ofBase? base).map Group.plus
  | none => Group.ofBase? name

end GameRoster.Attribute
