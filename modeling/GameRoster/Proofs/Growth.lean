import GameRoster.Proofs.Building
import GameRoster.Registry.History
import Mathlib.Data.List.Nodup

namespace GameRoster

namespace Registry

/-- Everything that one declaration can make of a registry. -/
inductive Grows (reg : Registry) : Registry → Prop
  | define {id : String} {draft : VariableDraft} {v : Variable}
      (free : reg.definition? id = none) (built : Variable.ofDraft id draft = .ok v) :
      Grows reg { reg with definitions := reg.definitions ++ [v] }
  | add {id : String} {draft : Draft} {symbols : List String} {r : Resource}
      (wellFormed : Id.symbols? draft.kind.family id = .ok symbols) (free : reg.find? id = none)
      (built : draft.Builds id r) : Grows reg (reg.push r symbols)

theorem define_grows {reg grown : Registry} {id : String} {draft : VariableDraft}
    (h : reg.define id draft = .ok grown) : reg.Grows grown := by
  unfold define at h
  cases hf : reg.definition? id with
  | some v => simp [hf] at h
  | none =>
    simp only [hf] at h
    obtain ⟨v, hv, hg⟩ := Check.bind_ok.mp h
    obtain rfl := Check.pure_ok.mp hg
    exact .define hf hv

theorem add_grows {reg grown : Registry} {id : String} {draft : Draft}
    (h : (reg.add id draft).result = .ok grown) : reg.Grows grown := by
  unfold add at h
  cases hs : Id.symbols? draft.kind.family id with
  | error violation => simp [hs, Checked.fail] at h
  | ok symbols =>
    cases hf : reg.find? id with
    | some r => simp [hs, hf, Checked.fail] at h
    | none =>
      simp only [hs, hf, Checked.result_bind, Checked.result_pure] at h
      obtain ⟨r, hr, hg⟩ := Check.bind_ok.mp h
      obtain rfl := Check.pure_ok.mp hg
      exact .add hs hf (Draft.builds hr)

theorem declare_grows {reg grown : Registry} {declaration : Declaration}
    (h : (reg.declare declaration).result = .ok grown) : reg.Grows grown := by
  match declaration with
  | .variable id draft => exact define_grows h
  | .resource id draft => exact add_grows h

section Preserved

variable {P : Registry → Prop} (hg : ∀ {reg grown : Registry}, P reg → reg.Grows grown → P grown)

include hg

theorem declareAll_preserves (declarations : List Declaration) {reg : Registry} (h : P reg) :
    P (reg.declareAll declarations).registry := by
  induction declarations generalizing reg with
  | nil => exact h
  | cons declaration rest ih =>
    cases hd : (reg.declare declaration).result with
    | error fault =>
      rw [(declareAll_of_error hd rest).1]
      exact h
    | ok grown =>
      rw [(declareAll_of_ok hd rest).1]
      exact ih (hg h (declare_grows hd))

/-- What growth preserves holds of every reachable registry. -/
theorem Reachable.preserves (hempty : P Registry.empty) {reg : Registry} (h : reg.Reachable) :
    P reg := by
  induction h with
  | empty => exact hempty
  | run declarations before ih => exact declareAll_preserves hg declarations ih

end Preserved

/-- Each resource was built under its own id, and no other one has that id. -/
structure Sound (reg : Registry) : Prop where
  ids : (reg.resources.map Resource.id).Nodup
  built : ∀ r ∈ reg.resources, ∃ draft : Draft, draft.Builds r.id r

theorem not_mem_of_free {reg : Registry} {id : String} (h : reg.find? id = none) :
    id ∉ reg.resources.map Resource.id := by
  intro hm
  obtain ⟨r, hr, he⟩ := List.mem_map.mp hm
  have hn := List.find?_eq_none.mp h r hr
  simp [he] at hn

theorem push_ids (reg : Registry) (r : Resource) (symbols : List String) :
    (reg.push r symbols).resources.map Resource.id =
      (reg.resources.map Resource.id).concat r.id := by
  simp [push]

theorem Sound.grow {reg grown : Registry} (h : reg.Sound) (hg : reg.Grows grown) : grown.Sound := by
  cases hg with
  | define => exact ⟨h.ids, h.built⟩
  | @add id draft symbols r _ free built =>
    have hid := built.id_eq
    constructor
    · rw [push_ids, hid]
      exact List.Nodup.concat (not_mem_of_free free) h.ids
    · intro q hq
      simp only [push, List.mem_append, List.mem_singleton] at hq
      rcases hq with hq | rfl
      · exact h.built q hq
      · exact ⟨draft, hid ▸ built⟩

theorem Reachable.sound {reg : Registry} (h : reg.Reachable) : reg.Sound :=
  Reachable.preserves Sound.grow ⟨List.nodup_nil, by simp [Registry.empty]⟩ h

/-- A registered resource is what its id leads to. -/
theorem Sound.find {reg : Registry} (h : reg.Sound) {r : Resource} (hr : r ∈ reg.resources) :
    reg.find? r.id = some r := by
  cases hf : reg.find? r.id with
  | none => exact absurd (List.mem_map_of_mem hr) (not_mem_of_free hf)
  | some found =>
    obtain ⟨hm, hid⟩ := mem_of_find hf
    rw [List.inj_on_of_nodup_map h.ids hm hr hid]

end Registry

/-- A clip of one second. -/
def AnimationDraft.archer (files : String) (rootMotion : Bool) : AnimationDraft :=
  { files, duration := .int 1, fadeIn := .null, rootMotion := .bool rootMotion
    weaponMotion := .null }

/-- An archer who holds a reference of every sort. -/
def Declaration.archer : List Declaration := [
  .variable "#.Might" { maxLevel := .int 1, owners := .anyone },
  .resource "Character.Ada" (.character {
    name := "Adèle", level := .array [.int 1, .int 1], styles := ["Style.Ada.Bow"]
    equipments := ["Equipment.Ada.Cap", "Equipment.Ada.Helm"],
    boundingCapsule := { halfHeight := .int 1, radius := .int 1 }, skeletonFiles := "ada"
    skeletonToward := .array [.int 0, .int 1] }),
  .resource "Style.Ada.Bow" (.style {
    name := "Bow", character := "Character.Ada", attributes := .object [], slots := .array []
    fixedAttributes := ⟨.int 0, .int 0, .int 0, .int 0, .int 0, .int 0, .int 0⟩
    perks := ["Perk.Ada.Aim", "Perk.Ada.Calm"], usablePerks := []
    actions := ["Action.Ada.Rest", "Action.Ada.Walk", "Action.Ada.Shot"], viewModel := "bow.vrm" }),
  .resource "Entry.Power" (.entry {
    name := "Power", maxPiece := .int 2, attributes := .null, varIndexes := .null }),
  .resource "Equipment.Ada.Cap" (.equipment {
    name := "Cap", character := "Character.Ada", slot := "Slot1", parents := .null
    level := .array [.int 1, .int 1], attributes := .object [], slots := .null
    entries := .object [("Entry.Power", .array [.array [.int 1, .int 0]])] }),
  .resource "Equipment.Ada.Helm" (.equipment {
    name := "Helm", character := "Character.Ada", slot := "Slot1"
    parents := .object [("Equipment.Ada.Cap", .int 1)]
    level := .array [.int 1, .int 1], attributes := .object [], slots := .null
    entries := .null }),
  .resource "Perk.Ada.Aim" (.perk {
    name := "Aim", character := "Character.Ada", style := "Style.Ada.Bow", usableStyles := none
    parents := .null, maxLevel := .int 1, attributes := .null, slots := .null, entries := .null
    varIndexes := .null }),
  .resource "Perk.Ada.Calm" (.perk {
    name := "Calm", character := "Character.Ada", style := "Style.Ada.Bow", usableStyles := none
    parents := .object [("Perk.Ada.Aim", .int 1)], maxLevel := .int 1, attributes := .null
    slots := .null, entries := .object [("Entry.Power", .array [.array [.int 1, .int 0]])]
    varIndexes := .null }),
  .resource "Jewel.Ruby" (.jewel {
    slot := "Attack", rare := "Rare1", entry := "Entry.Power", piece := .int 1
    subEntry := some "Entry.Power", subPiece := .int 1, variant := "Variant1" }),
  .resource "AccessoryPool.Ring" (.accessoryPool {
    rare := "Rare1", patterns := "S A", maxLevel := .int 6
    aEntries := .object [("Entry.Power", .int 1)], bEntries := .object [("Entry.Power", .int 2)] }),
  .resource "Accessory.Ring.Gold" (.accessory {
    pool := "AccessoryPool.Ring", rare := "Rare1", entry := "Entry.Power", piece := .int 1
    variant := "Variant1" }),
  .resource "Action.Ada.Rest" (.actionIdle {
    enabled := .null, character := "Character.Ada", styles := ["Style.Ada.Bow"]
    animIdle := .archer "rest" false, animReady := none, animRandoms := none
    autoIdleDelay := .null, deriveKeeping := .null }),
  .resource "Action.Ada.Walk" (.actionMove {
    enabled := .null, character := "Character.Ada", styles := ["Style.Ada.Bow"]
    enterKey := "Walk", enterLevel := .null, deriveLevel := .null, specialDeriveLevel := .null
    animMove := .archer "walk" true, moveSpeed := .int 1, starts := [], startTime := .null
    turns := [], turnTime := .null, stops := [], stopTime := .null, quickStopTime := .null
    deriveKeeping := .null, smoothMoveFroms := ["Action.Ada.Walk"]
    smoothMoveDuration := .null }),
  .resource "Action.Ada.Shot" (.actionGeneral {
    enabled := .array [.string "#.Might", .array [.bool false, .bool true]]
    character := "Character.Ada", styles := ["Style.Ada.Bow"]
    animMain := .archer "shot" true, enterKey := .string "Attack1", enterLevel := .null
    coolDownTime := .null, coolDownRound := .null, coolDownInitRound := .null
    inputMovements := .null, attributes := .object [("0-1s", .object [])]
    deriveLevels := .object [("0-1s", .int 100)]
    derives := some [
      { key := .string "Attack1", level := .int 100, action := .string "Action.Ada.Shot" },
      { key := .string "Attack2", level := .int 100
        action := .array [.string "#.Might",
          .array [.string "Action.Ada.Rest", .string "Action.Ada.Walk"]] }]
    deriveContinues := .null, customEvents := .null })]

def Registry.archer : Registry := (Registry.empty.declareAll Declaration.archer).registry

theorem Registry.archer_reachable : Registry.archer.Reachable := .run _ .empty

theorem Registry.archer_verify : Registry.archer.verify = .ok () :=
  Check.ok_of_isOk (by decide +kernel)

end GameRoster
