import GameRoster.Action.Base
import GameRoster.Action.Key
import GameRoster.Document.Reading

namespace GameRoster

structure DeriveRuleDraft where
  key : Value
  level : Value
  action : Value

structure DeriveRule where
  key : KeyInput
  /-- The enter level of the derive. -/
  level : Int
  action : Setting (Ref .action)

open Document in
def DeriveRuleDraft.shape : Shape :=
  .record "DeriveRuleArgs" [required "key" .value, required "level" .value,
    required "action" .value]

open Document in
def DeriveRuleDraft.ofNode? (format : Format) (node : Node) : Option DeriveRuleDraft := do
  let fields ← node.record? format shape
  return {
    key := ← fields.value? "key"
    level := ← fields.value? "level"
    action := ← fields.value? "action" }

namespace DeriveRule

def read (loc : Location) (draft : DeriveRuleDraft) : Check DeriveRule := do
  return {
    key := ← KeyInput.read (loc.field "key") draft.key
    level := ← Level.read (loc.field "level") draft.level
    action := ← Setting.ref {} .action (loc.field "action") draft.action }

def toValue (rule : DeriveRule) : Value :=
  .object [
    ("key", rule.key.toValue),
    ("level", .int rule.level),
    ("action", rule.action.toValue fun id => .string id.text)]

end DeriveRule

end GameRoster
