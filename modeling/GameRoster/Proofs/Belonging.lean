import GameRoster.Proofs.Links

namespace GameRoster

namespace Registry

/-- Linked resources are of one character. -/
structure CharactersAgree (reg : Registry) : Prop where
  stylePerks : ∀ s, .style s ∈ reg.resources → ∀ id ∈ s.perks,
    ∃ p, reg.find? id.text = some (.perk p) ∧ p.character = s.character
  styleUsablePerks : ∀ s, .style s ∈ reg.resources → ∀ id ∈ s.usablePerks,
    ∃ p, reg.find? id.text = some (.perk p) ∧ p.character = s.character
  styleActions : ∀ s, .style s ∈ reg.resources → ∀ id ∈ s.actions,
    ∃ r a, reg.find? id.text = some r ∧ r.actionBase? = some a ∧ a.character = s.character
  perkStyle : ∀ p, .perk p ∈ reg.resources →
    ∃ s, reg.find? p.style.text = some (.style s) ∧ s.character = p.character
  perkUsableStyles : ∀ p, .perk p ∈ reg.resources → ∀ id ∈ p.usableStyles,
    ∃ s, reg.find? id.text = some (.style s) ∧ s.character = p.character
  perkParents : ∀ p, .perk p ∈ reg.resources → ∀ parents ∈ p.parents, ∀ row ∈ parents,
    ∃ parent, reg.find? row.1.text = some (.perk parent) ∧ parent.character = p.character
  equipmentParents : ∀ e, .equipment e ∈ reg.resources → ∀ parents ∈ e.parents, ∀ row ∈ parents,
    ∃ parent, reg.find? row.1.text = some (.equipment parent) ∧
      parent.character = e.character ∧ parent.slot = e.slot
  actionStyles : ∀ r a, r ∈ reg.resources → r.actionBase? = some a → ∀ id ∈ a.styles,
    ∃ s, reg.find? id.text = some (.style s) ∧ s.character = a.character

section Chains

variable {reg : Registry} (h : reg.Sound) (hv : ∀ r ∈ reg.resources, r.Verified reg)

include h hv

/-- The style asks that the perk names it, and the perk compares itself with the style it names. -/
theorem Sound.perk_character {s : Style} (hs : .style s ∈ reg.resources) {id : Ref .perk}
    (hid : id ∈ s.perks) :
    ∃ p, reg.find? id.text = some (.perk p) ∧ p.character = s.character := by
  have hsv : s.Verified reg := hv _ hs
  obtain ⟨p, hl, hstyle⟩ := hsv.perks id hid
  have hf := lookup_perk.mp hl
  have hpv : p.Verified reg := hv _ (mem_of_find hf).1
  obtain ⟨hc, _⟩ := h.of_lookup hpv.style hs rfl hstyle
  exact ⟨p, hf, Ref.eq_of_text hc.symm⟩

theorem Sound.usablePerk_character {s : Style} (hs : .style s ∈ reg.resources) {id : Ref .perk}
    (hid : id ∈ s.usablePerks) :
    ∃ p, reg.find? id.text = some (.perk p) ∧ p.character = s.character := by
  have hsv : s.Verified reg := hv _ hs
  obtain ⟨p, hl, hstyle⟩ := hsv.usablePerks id hid
  have hf := lookup_perk.mp hl
  have hpv : p.Verified reg := hv _ (mem_of_find hf).1
  obtain ⟨hc, _⟩ := h.of_listed hpv.usableStyles hs rfl hstyle
  exact ⟨p, hf, Ref.eq_of_text hc.symm⟩

theorem Sound.action_character {s : Style} (hs : .style s ∈ reg.resources) {id : Ref .action}
    (hid : id ∈ s.actions) :
    ∃ r a, reg.find? id.text = some r ∧ r.actionBase? = some a ∧ a.character = s.character := by
  have hsv : s.Verified reg := hv _ hs
  obtain ⟨a, hl, hstyle⟩ := hsv.actions id hid
  obtain ⟨r, hf, ha⟩ := Option.bind_eq_some_iff.mp hl
  have hav := (hv _ (mem_of_find hf).1).base ha
  obtain ⟨hc, _⟩ := h.of_listed hav.styles hs rfl hstyle
  exact ⟨r, a, hf, ha, Ref.eq_of_text hc.symm⟩

end Chains

/-- In a registry that verifies, links never lead from one character to another. -/
theorem verified_characters_agree {reg : Registry} (hr : reg.Reachable)
    (hv : reg.verify = .ok ()) : reg.CharactersAgree := by
  have h := hr.sound
  have hv := verify_ok.mp hv
  constructor
  case stylePerks => exact fun s hs id hid => h.perk_character hv hs hid
  case styleUsablePerks => exact fun s hs id hid => h.usablePerk_character hv hs hid
  case styleActions => exact fun s hs id hid => h.action_character hv hs hid
  case perkStyle =>
    intro p hp
    have hp : p.Verified reg := hv _ hp
    obtain ⟨s, hl, hc, _⟩ := hp.style
    exact ⟨s, lookup_style.mp hl, Ref.eq_of_text hc⟩
  case perkUsableStyles =>
    intro p hp id hid
    have hp : p.Verified reg := hv _ hp
    obtain ⟨s, hl, hc, _⟩ := hp.usableStyles id hid
    exact ⟨s, lookup_style.mp hl, Ref.eq_of_text hc⟩
  case perkParents =>
    intro p hp parents hparents row hrow
    have hp : p.Verified reg := hv _ hp
    obtain ⟨parent, hl, hc, _⟩ := hp.parents row (by rwa [hparents])
    exact ⟨parent, lookup_perk.mp hl, Ref.eq_of_text hc⟩
  case equipmentParents =>
    intro e he parents hparents row hrow
    have he : e.Verified reg := hv _ he
    obtain ⟨parent, hl, hc, hslot, _⟩ := he.parents row (by rwa [hparents])
    exact ⟨parent, lookup_equipment.mp hl, Ref.eq_of_text hc, hslot⟩
  case actionStyles =>
    intro r a hm ha id hid
    obtain ⟨s, hl, hc, _⟩ := ((hv _ hm).base ha).styles id hid
    exact ⟨s, lookup_style.mp hl, Ref.eq_of_text hc⟩

theorem archer_characters_agree : archer.Reachable ∧ archer.verify = .ok () ∧
    archer.CharactersAgree :=
  ⟨archer_reachable, archer_verify, verified_characters_agree archer_reachable archer_verify⟩

end Registry

end GameRoster
