import GameRoster.Proofs.Growth
import GameRoster.Proofs.Verified

namespace GameRoster

/-- Registered resources agree on the links between them, and every perk can be used by its own
style. -/
structure Registry.Linked (reg : Registry) : Prop where
  styles : ∀ c s, .character c ∈ reg.resources → .style s ∈ reg.resources →
    (s.id ∈ c.styles.map Ref.text ↔ s.character.text = c.id)
  equipments : ∀ c e, .character c ∈ reg.resources → .equipment e ∈ reg.resources →
    (e.id ∈ c.equipments.map Ref.text ↔ e.character.text = c.id)
  perks : ∀ s p, .style s ∈ reg.resources → .perk p ∈ reg.resources →
    (p.id ∈ s.perks.map Ref.text ↔ p.style.text = s.id)
  usablePerks : ∀ s p, .style s ∈ reg.resources → .perk p ∈ reg.resources →
    (p.id ∈ s.usablePerks.map Ref.text ↔ s.id ∈ p.usableStyles.map Ref.text)
  actions : ∀ s r a, .style s ∈ reg.resources → r ∈ reg.resources → r.actionBase? = some a →
    (r.id ∈ s.actions.map Ref.text ↔ s.id ∈ a.styles.map Ref.text)
  ownStyle : ∀ p, .perk p ∈ reg.resources → p.style ∈ p.usableStyles ∧
    ∃ s, .style s ∈ reg.resources ∧ s.id = p.style.text ∧ p.id ∈ s.usablePerks.map Ref.text

theorem Resource.Verified.base {r : Resource} {reg : Registry} {a : ActionBase}
    (h : r.Verified reg) (ha : r.actionBase? = some a) : a.Verified r.id reg := by
  cases r with
  | actionIdle i => exact Option.some.inj ha ▸ h
  | actionGeneral g => exact Option.some.inj ha ▸ ActionGeneral.Verified.base h
  | actionMove m => exact Option.some.inj ha ▸ ActionMove.Verified.base h
  | _ => cases ha

namespace Registry

variable {reg : Registry}

/-- What a reference finds is the resource registered under its id. -/
theorem Sound.lookup {α : Type} (h : reg.Sound) {r : Resource} (hr : r ∈ reg.resources)
    (view : Resource → Option α) : reg.lookup? view r.id = view r := by
  simp [lookup?, h.find hr]

section Ends

variable {α : Type} {view : Resource → Option α} {Q : α → Prop} {r : Resource} {a : α}

theorem Sound.of_lookup (h : reg.Sound) {id : String}
    (hq : ∃ b, reg.lookup? view id = some b ∧ Q b) (hr : r ∈ reg.resources)
    (ha : view r = some a) (hid : id = r.id) : Q a := by
  obtain ⟨b, hb, hq⟩ := hq
  rw [hid, h.lookup hr view, ha] at hb
  obtain rfl := Option.some.inj hb
  exact hq

/-- What holds of everything that a list refers to holds of a registered resource in it. -/
theorem Sound.of_listed {family : Id.Family} {refs : List (Ref family)} (h : reg.Sound)
    (hq : ∀ id ∈ refs, ∃ b, reg.lookup? view id.text = some b ∧ Q b) (hr : r ∈ reg.resources)
    (ha : view r = some a) (hm : r.id ∈ refs.map Ref.text) : Q a := by
  obtain ⟨id, hid, he⟩ := List.mem_map.mp hm
  exact h.of_lookup (hq id hid) hr ha he

end Ends

section Pairs

variable {c : Character} {s : Style} {e : Equipment} {p : Perk}

theorem Sound.styles_iff (h : reg.Sound) (hc : .character c ∈ reg.resources)
    (hs : .style s ∈ reg.resources) (hcv : c.Verified reg) (hsv : s.Verified reg) :
    s.id ∈ c.styles.map Ref.text ↔ s.character.text = c.id := by
  constructor
  · intro hm
    have he := h.of_listed hcv.styles hs rfl hm
    exact he
  · intro he
    obtain ⟨hm, _⟩ := h.of_lookup hsv.character hc rfl he
    exact hm

theorem Sound.equipments_iff (h : reg.Sound) (hc : .character c ∈ reg.resources)
    (he : .equipment e ∈ reg.resources) (hcv : c.Verified reg) (hev : e.Verified reg) :
    e.id ∈ c.equipments.map Ref.text ↔ e.character.text = c.id := by
  constructor
  · intro hm
    have ho := h.of_listed hcv.equipments he rfl hm
    exact ho
  · intro ho
    have hm := h.of_lookup hev.character hc rfl ho
    exact hm

theorem Sound.perks_iff (h : reg.Sound) (hs : .style s ∈ reg.resources)
    (hp : .perk p ∈ reg.resources) (hsv : s.Verified reg) (hpv : p.Verified reg) :
    p.id ∈ s.perks.map Ref.text ↔ p.style.text = s.id := by
  constructor
  · intro hm
    have he := h.of_listed hsv.perks hp rfl hm
    exact he
  · intro he
    obtain ⟨_, hm⟩ := h.of_lookup hpv.style hs rfl he
    exact hm

theorem Sound.usablePerks_iff (h : reg.Sound) (hs : .style s ∈ reg.resources)
    (hp : .perk p ∈ reg.resources) (hsv : s.Verified reg) (hpv : p.Verified reg) :
    p.id ∈ s.usablePerks.map Ref.text ↔ s.id ∈ p.usableStyles.map Ref.text := by
  constructor
  · intro hm
    have hu := h.of_listed hsv.usablePerks hp rfl hm
    exact hu
  · intro hu
    obtain ⟨_, hm⟩ := h.of_listed hpv.usableStyles hs rfl hu
    exact hm

theorem Sound.actions_iff {r : Resource} {a : ActionBase} (h : reg.Sound)
    (hs : .style s ∈ reg.resources) (hr : r ∈ reg.resources) (ha : r.actionBase? = some a)
    (hsv : s.Verified reg) (hav : a.Verified r.id reg) :
    r.id ∈ s.actions.map Ref.text ↔ s.id ∈ a.styles.map Ref.text := by
  constructor
  · intro hm
    have hl := h.of_listed hsv.actions hr ha hm
    exact hl
  · intro hl
    obtain ⟨_, hm⟩ := h.of_listed hav.styles hs rfl hl
    exact hm

/-- The style of a perk is among those that may use it, which was seen to when it was built. -/
theorem Sound.own_style (h : reg.Sound) (hp : .perk p ∈ reg.resources) (hpv : p.Verified reg) :
    p.style ∈ p.usableStyles ∧ ∃ s, .style s ∈ reg.resources ∧ s.id = p.style.text ∧
      p.id ∈ s.usablePerks.map Ref.text := by
  obtain ⟨draft, hb⟩ := h.built _ hp
  have hown : p.style ∈ p.usableStyles := by
    cases hb with
    | perk hd => exact Perk.build_own_style _ _ p hd
  obtain ⟨s, hf, _, hl⟩ := hpv.usableStyles p.style hown
  obtain ⟨hm, hid⟩ := mem_of_find (lookup_style.mp hf)
  exact ⟨hown, s, hm, hid, hl⟩

end Pairs

/-- In a registry that verifies, the two ends of every link agree. -/
theorem verified_linked (hr : reg.Reachable) (hv : reg.verify = .ok ()) : reg.Linked := by
  have h := hr.sound
  have hv := verify_ok.mp hv
  constructor
  case styles => exact fun c s hc hs => h.styles_iff hc hs (hv _ hc) (hv _ hs)
  case equipments => exact fun c e hc he => h.equipments_iff hc he (hv _ hc) (hv _ he)
  case perks => exact fun s p hs hp => h.perks_iff hs hp (hv _ hs) (hv _ hp)
  case usablePerks => exact fun s p hs hp => h.usablePerks_iff hs hp (hv _ hs) (hv _ hp)
  case actions =>
    intro s r a hs hm ha
    exact h.actions_iff hs hm ha (hv _ hs) ((hv _ hm).base ha)
  case ownStyle => exact fun p hp => h.own_style hp (hv _ hp)

theorem archer_linked : archer.Reachable ∧ archer.verify = .ok () ∧ archer.Linked :=
  ⟨archer_reachable, archer_verify, verified_linked archer_reachable archer_verify⟩

end Registry

end GameRoster
