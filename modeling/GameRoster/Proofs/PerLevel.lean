import GameRoster.Proofs.Bounds
import GameRoster.Proofs.Verified

namespace GameRoster

namespace Field

/-- What a range yields, both its ends are as wanted and the first is not above the second. -/
theorem range_yields {α : Type} [LT α] [DecidableLT α] {P : α → Prop}
    {item : Location → Value → Check α} (h : ∀ loc raw, Check.Yields P (item loc raw))
    (loc : Location) (raw : Value) :
    Check.Yields (fun r => P r.1 ∧ P r.2 ∧ ¬ r.2 < r.1) (range item loc raw) := by
  unfold range
  refine .bind fun items hitems => ?_
  have hall := numbers_all h _ _ loc raw items hitems
  split
  · rename_i a b
    split
    · exact .fault
    · rename_i hle
      exact .pure ⟨hall a (by simp), hall b (by simp), hle⟩
  · exact .fault

/-- A list has an item for each one that was written. -/
theorem listOf_written {α : Type} (lengths : Lengths) (item : Location → Value → Check α)
    (loc : Location) (raw : Value) :
    Check.Yields (fun items => ∃ written, raw = .array written ∧ items.length = written.length)
      (listOf lengths item loc raw) := by
  refine .bind fun written hwritten => ?_
  refine (Location.each_length loc written).mono fun items hlen => ?_
  exact ⟨written, list_written lengths loc raw written hwritten, hlen⟩

end Field

/-- The levels of a character go upwards from zero or above. -/
theorem Character.build_level (id : String) (draft : CharacterDraft) :
    Check.Yields (fun c => 0 ≤ c.level.1 ∧ c.level.1 ≤ c.level.2) (Character.build id draft) := by
  unfold Character.build
  refine .step fun name => .bind fun level hlevel => ?_
  repeat' refine .step fun _ => ?_
  obtain ⟨hlow, _, hle⟩ := Field.range_yields Field.int_nonneg _ _ level hlevel
  exact .pure ⟨hlow, Int.not_lt.mp hle⟩

theorem Style.build_slots (id : String) (draft : StyleDraft) :
    Check.Yields (fun s => ∃ items, draft.slots = .array items ∧ s.slots.length = items.length)
      (Style.build id draft) := by
  unfold Style.build
  iterate 5 refine .step fun _ => ?_
  refine .bind fun slots hslots => ?_
  repeat' refine .step fun _ => ?_
  exact .pure (Field.listOf_written _ _ _ _ slots hslots)

namespace Registry

theorem Sound.level {reg : Registry} (h : reg.Sound) {c : Character}
    (hc : .character c ∈ reg.resources) : 0 ≤ c.level.1 ∧ c.level.1 ≤ c.level.2 := by
  obtain ⟨draft, hb⟩ := h.built _ hc
  cases hb with
  | @character draft _ hd => exact Character.build_level _ draft c hd

end Registry

/-- Each row of attributes has a value per level of the character, provided that the levels can be
counted in a word. There are as many slots as the author wrote, and verification passes with any
others. -/
structure Style.PerLevel (s : Style) (reg : Registry) : Prop where
  attributes : ∃ c, reg.find? s.character.text = some (.character c) ∧
    c.level.1 ≤ c.level.2 ∧
    (c.level.2 - c.level.1 < Numeric.wordMax →
      ∀ row ∈ s.attributes, (row.2.length : Int) = c.level.2 - c.level.1 + 1)
  slots_written : ∃ draft items, Style.build s.id draft = .ok s ∧ draft.slots = .array items ∧
    s.slots.length = items.length
  slots_unread : ∀ slots, ({ s with slots } : Style).verify reg = .ok ()

namespace Registry

/-- Once a registry verifies, the attributes of every style have a value per level. One range is
left out, that of all levels from zero to the greatest word, because no word holds their number. -/
theorem verified_attributes_per_level {reg : Registry} (hr : reg.Reachable)
    (hv : reg.verify = .ok ()) : ∀ s, .style s ∈ reg.resources → s.PerLevel reg := by
  intro s hs
  have h := hr.sound
  have hverified : s.Verified reg := verify_ok.mp hv _ hs
  constructor
  case attributes =>
    obtain ⟨c, hl, _, hrows⟩ := hverified.character
    have hf := lookup_character.mp hl
    obtain ⟨_, hle⟩ := h.level (mem_of_find hf).1
    refine ⟨c, hf, hle, ?_⟩
    intro _ row hrow
    rw [hrows row hrow, levelCount]
    omega
  case slots_written =>
    obtain ⟨draft, hb⟩ := h.built _ hs
    cases hb with
    | @style draft _ hd =>
      obtain ⟨items, hwritten, hlen⟩ := Style.build_slots _ draft s hd
      exact ⟨draft, items, hd, hwritten, hlen⟩
  case slots_unread =>
    intro slots
    exact Style.verify_ok.mpr ⟨hverified.character, hverified.perks, hverified.usablePerks,
      hverified.actions⟩

/-- A squire of three levels, whose style has an attribute for each of them and slots for one. -/
def squire : Registry := (empty.declareAll [
  .resource "Character.Cy" (.character {
    name := "Cy", level := .array [.int 1, .int 3], styles := ["Style.Cy.Lance"], equipments := []
    boundingCapsule := { halfHeight := .int 1, radius := .int 1 }, skeletonFiles := "cy"
    skeletonToward := .array [.int 0, .int 1] }),
  .resource "Style.Cy.Lance" (.style {
    name := "Lance", character := "Character.Cy"
    attributes := .object [("MaxHealth", .array [.int 10, .int 20, .int 30])]
    slots := .array [.string "A1"]
    fixedAttributes := ⟨.int 0, .int 0, .int 0, .int 0, .int 0, .int 0, .int 0⟩
    perks := [], usablePerks := [], actions := [], viewModel := "lance.vrm" })]).registry

theorem squire_verify : squire.verify = .ok () := Check.ok_of_isOk (by decide +kernel)

theorem squire_lance : (squire.lookup? Resource.style? "Style.Cy.Lance").map
    (fun s => (s.character.text, s.slots.length)) = some ("Character.Cy", 1) := by
  decide +kernel

theorem squire_level : (squire.lookup? Resource.character? "Character.Cy").map Character.level =
    some (1, 3) := by
  decide +kernel

theorem squire_attributes_per_level : squire.Reachable ∧ squire.verify = .ok () ∧
    ∃ s, .style s ∈ squire.resources ∧ s.PerLevel squire := by
  obtain ⟨s, hl, _⟩ := Option.map_eq_some_iff.mp squire_lance
  obtain ⟨hs, _⟩ := mem_of_find (lookup_style.mp hl)
  have hr : squire.Reachable := .run _ .empty
  exact ⟨hr, squire_verify, s, hs, verified_attributes_per_level hr squire_verify s hs⟩

/-- A registry may verify although a style has fewer slots than its character has levels. -/
theorem slots_not_per_level : ¬ ∀ reg : Registry, reg.Reachable → reg.verify = .ok () →
    ∀ s c, .style s ∈ reg.resources → reg.find? s.character.text = some (.character c) →
      (s.slots.length : Int) = c.level.2 - c.level.1 + 1 := by
  intro h
  obtain ⟨s, hs, hlance⟩ := Option.map_eq_some_iff.mp squire_lance
  obtain ⟨c, hc, hlevel⟩ := Option.map_eq_some_iff.mp squire_level
  obtain ⟨hname, hslots⟩ := Prod.mk.inj hlance
  have hcount := h squire (.run _ .empty) squire_verify s c (mem_of_find (lookup_style.mp hs)).1
    (hname ▸ lookup_character.mp hc)
  rw [hslots, hlevel] at hcount
  omega

end Registry

end GameRoster
