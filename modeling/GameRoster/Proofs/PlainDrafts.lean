import GameRoster.Proofs.Finite

namespace GameRoster

open Numeric (BothFinite)
open Value (AllPlain)

def CharacterDraft.raws (draft : CharacterDraft) : List Value :=
  [draft.level, draft.boundingCapsule.halfHeight, draft.boundingCapsule.radius,
   draft.skeletonToward]

def FixedAttributesDraft.raws (draft : FixedAttributesDraft) : List Value :=
  [draft.damageReduceParam1, draft.damageReduceParam2, draft.guardDamageRatio1,
   draft.depostureReduceParam1, draft.depostureReduceParam2, draft.guardDepostureRatio1,
   draft.weakDamageUp]

def StyleDraft.raws (draft : StyleDraft) : List Value :=
  draft.fixedAttributes.raws ++ [draft.attributes, draft.slots]

def EquipmentDraft.raws (draft : EquipmentDraft) : List Value :=
  [draft.parents, draft.level, draft.attributes, draft.slots, draft.entries]

def EntryDraft.raws (draft : EntryDraft) : List Value :=
  [draft.maxPiece, draft.attributes, draft.varIndexes]

def PerkDraft.raws (draft : PerkDraft) : List Value :=
  [draft.parents, draft.maxLevel, draft.attributes, draft.slots, draft.entries, draft.varIndexes]

def JewelDraft.raws (draft : JewelDraft) : List Value := [draft.piece, draft.subPiece]

def AccessoryPoolDraft.raws (draft : AccessoryPoolDraft) : List Value :=
  [draft.maxLevel, draft.aEntries, draft.bEntries]

def AccessoryDraft.raws (draft : AccessoryDraft) : List Value := [draft.piece]

def ActionIdleDraft.raws (draft : ActionIdleDraft) : List Value :=
  draft.animIdle.raws ++ draft.animReady.toList.flatMap AnimationDraft.raws ++
    (draft.animRandoms.getD []).flatMap AnimationDraft.raws ++
    [draft.enabled, draft.autoIdleDelay, draft.deriveKeeping]

def ActionGeneralDraft.raws (draft : ActionGeneralDraft) : List Value :=
  draft.animMain.raws ++ (draft.derives.getD []).flatMap DeriveRuleDraft.raws ++
    [draft.enabled, draft.enterKey, draft.enterLevel, draft.coolDownTime, draft.coolDownRound,
     draft.coolDownInitRound, draft.inputMovements, draft.attributes, draft.deriveLevels,
     draft.deriveContinues, draft.customEvents]

def ActionMoveDraft.raws (draft : ActionMoveDraft) : List Value :=
  draft.animMove.raws ++ draft.starts.flatMap MoveStartDraft.raws ++
    draft.turns.flatMap MoveTurnDraft.raws ++ draft.stops.flatMap MoveStopDraft.raws ++
    [draft.enabled, draft.enterLevel, draft.deriveLevel, draft.specialDeriveLevel,
     draft.moveSpeed, draft.startTime, draft.turnTime, draft.stopTime, draft.quickStopTime,
     draft.deriveKeeping, draft.smoothMoveDuration]

/-- The values that an author gives, of whatever type. What is text by its type is not among them,
since no double is read from it. -/
def Draft.raws : Draft → List Value
  | .character draft => draft.raws
  | .style draft => draft.raws
  | .equipment draft => draft.raws
  | .entry draft => draft.raws
  | .perk draft => draft.raws
  | .jewel draft => draft.raws
  | .accessoryPool draft => draft.raws
  | .accessory draft => draft.raws
  | .zone _ => []
  | .actionIdle draft => draft.raws
  | .actionGeneral draft => draft.raws
  | .actionMove draft => draft.raws

/-- Every value in a draft is plain. -/
def Draft.Plain (draft : Draft) : Prop := AllPlain draft.raws

instance (draft : Draft) : Decidable draft.Plain :=
  inferInstanceAs (Decidable (∀ raw ∈ draft.raws, raw.plain = true))

structure Character.Finite (c : Character) : Prop where
  boundingCapsule : c.boundingCapsule.Finite
  skeletonToward : BothFinite c.skeletonToward

structure FixedAttributes.Finite (a : FixedAttributes) : Prop where
  damageReduceParam1 : a.damageReduceParam1.isFinite = true
  damageReduceParam2 : a.damageReduceParam2.isFinite = true
  guardDamageRatio1 : a.guardDamageRatio1.isFinite = true
  depostureReduceParam1 : a.depostureReduceParam1.isFinite = true
  depostureReduceParam2 : a.depostureReduceParam2.isFinite = true
  guardDepostureRatio1 : a.guardDepostureRatio1.isFinite = true
  weakDamageUp : a.weakDamageUp.isFinite = true

structure Style.Finite (s : Style) : Prop where
  attributes : s.attributes.Finite
  fixedAttributes : s.fixedAttributes.Finite

structure Equipment.Finite (e : Equipment) : Prop where
  attributes : e.attributes.Finite

structure Entry.Finite (e : Entry) : Prop where
  attributes : ∀ table ∈ e.attributes, AttributeTable.Finite table
  attributesPlus : ∀ table ∈ e.attributesPlus, AttributeTable.Finite table

structure Perk.Finite (p : Perk) : Prop where
  attributes : ∀ table ∈ p.attributes, AttributeTable.Finite table

structure AccessoryPool.Finite (p : AccessoryPool) : Prop where
  aEntries : ∀ entry ∈ p.aEntries, entry.2.isFinite = true
  bEntries : ∀ entry ∈ p.bEntries, entry.2.isFinite = true

structure ActionIdle.Finite (a : ActionIdle) : Prop where
  animIdle : a.animIdle.Finite
  animReady : ∀ clip ∈ a.animReady, clip.Finite
  animRandoms : ∀ clips ∈ a.animRandoms, ∀ clip ∈ clips, clip.Finite
  autoIdleDelay : a.autoIdleDelay.isFinite = true

/-- The keys that enter an action and those that lead out of it. -/
def ActionGeneral.keys (a : ActionGeneral) : List KeyInput :=
  a.enterKey.toList ++ (a.derives.getD []).map DeriveRule.key

structure ActionGeneral.Finite (a : ActionGeneral) : Prop where
  animMain : a.animMain.Finite
  keys : ∀ key ∈ a.keys, key.Finite
  coolDownTime : a.coolDown.time.Finite
  inputMovements : ∀ timeline ∈ a.inputMovements, timeline.Finite InputMovement.Finite
  attributes : a.attributes.Finite PhaseAttributes.Finite
  deriveLevels : a.deriveLevels.Finite fun _ => True
  customEvents : ∀ timeline ∈ a.customEvents, timeline.Finite fun _ => True

structure ActionMove.Finite (a : ActionMove) : Prop where
  animMove : a.animMove.Finite
  moveSpeed : a.moveSpeed.isFinite = true
  starts : ∀ s ∈ a.starts, s.Finite
  startTime : a.startTime.isFinite = true
  turns : ∀ t ∈ a.turns, t.Finite
  turnTime : a.turnTime.isFinite = true
  stops : ∀ s ∈ a.stops, s.Finite
  stopTime : a.stopTime.isFinite = true
  quickStopTime : a.quickStopTime.isFinite = true
  smoothMoveDuration : a.smoothMoveDuration.isFinite = true

namespace Resource

def keys : Resource → List KeyInput
  | .actionGeneral a => a.keys
  | _ => []

/-- Every double that a resource holds is finite, and every cosine is that of a finite angle.
Jewels, accessories and zones hold none. -/
def Finite : Resource → Prop
  | .character c => c.Finite
  | .style s => s.Finite
  | .equipment e => e.Finite
  | .entry e => e.Finite
  | .perk p => p.Finite
  | .accessoryPool p => p.Finite
  | .actionIdle a => a.Finite
  | .actionGeneral a => a.Finite
  | .actionMove a => a.Finite
  | .jewel _ | .accessory _ | .zone _ => True

theorem Finite.key {r : Resource} (h : r.Finite) {key : KeyInput} (hkey : key ∈ r.keys) :
    key.Finite := by
  cases r with
  | actionGeneral a => exact ActionGeneral.Finite.keys h key hkey
  | _ => exact absurd hkey List.not_mem_nil

end Resource

theorem Character.build_finite (id : String) {draft : CharacterDraft} (h : AllPlain draft.raws) :
    Check.Yields Character.Finite (Character.build id draft) := by
  unfold Character.build
  iterate 4 refine .step fun _ => ?_
  refine .bind fun capsule hcapsule => .step fun _ => .bind fun toward htoward => .pure ?_
  constructor
  case boundingCapsule =>
    have hheight := h draft.boundingCapsule.halfHeight (by simp [CharacterDraft.raws])
    have hradius := h draft.boundingCapsule.radius (by simp [CharacterDraft.raws])
    exact Capsule.ofDraft_finite hheight hradius _ capsule hcapsule
  case skeletonToward =>
    have hplain := h draft.skeletonToward (by simp [CharacterDraft.raws])
    exact Field.vector_bothFinite _ _ _ hplain toward htoward

theorem FixedAttributes.ofDraft_finite {draft : FixedAttributesDraft}
    (h : AllPlain draft.raws) (loc : Location) :
    Check.Yields FixedAttributes.Finite (FixedAttributes.ofDraft draft loc) := by
  have hread : ∀ {limits : FloatLimits} {loc : Location} {raw : Value} {x : Float},
      Field.float limits loc raw = .ok x → raw ∈ draft.raws → x.isFinite = true :=
    fun hx hm => Field.float_isFinite _ _ _ (h _ hm) _ hx
  unfold FixedAttributes.ofDraft
  refine .bind fun damage₁ h₁ => .bind fun damage₂ h₂ => .bind fun guard h₃ => ?_
  refine .bind fun deposture₁ h₄ => .bind fun deposture₂ h₅ => .bind fun guardDeposture h₆ => ?_
  refine .bind fun weak h₇ => .pure ?_
  constructor
  case damageReduceParam1 => exact hread h₁ (by simp [FixedAttributesDraft.raws])
  case damageReduceParam2 => exact hread h₂ (by simp [FixedAttributesDraft.raws])
  case guardDamageRatio1 => exact hread h₃ (by simp [FixedAttributesDraft.raws])
  case depostureReduceParam1 => exact hread h₄ (by simp [FixedAttributesDraft.raws])
  case depostureReduceParam2 => exact hread h₅ (by simp [FixedAttributesDraft.raws])
  case guardDepostureRatio1 => exact hread h₆ (by simp [FixedAttributesDraft.raws])
  case weakDamageUp => exact hread h₇ (by simp [FixedAttributesDraft.raws])

theorem Style.build_finite (id : String) {draft : StyleDraft} (h : AllPlain draft.raws) :
    Check.Yields Style.Finite (Style.build id draft) := by
  obtain ⟨hfixed, hown⟩ := List.forall_mem_append.mp h
  unfold Style.build
  iterate 4 refine .step fun _ => ?_
  refine .bind fun table htable => .step fun _ => .bind fun fixed hread => ?_
  iterate 2 refine .step fun _ => ?_
  refine .pure ⟨?_, FixedAttributes.ofDraft_finite hfixed _ fixed hread⟩
  exact AttributeTable.read_finite _ (by simp) _ _ (hown _ (by simp)) table htable

theorem Equipment.build_finite (id : String) {draft : EquipmentDraft} (h : AllPlain draft.raws) :
    Check.Yields Equipment.Finite (Equipment.build id draft) := by
  unfold Equipment.build
  iterate 5 refine .step fun _ => ?_
  refine .bind fun table htable => ?_
  iterate 2 refine .step fun _ => ?_
  have hplain := h draft.attributes (by simp [EquipmentDraft.raws])
  exact .pure ⟨AttributeTable.read_finite _ (by simp [AttributeTable.RowLimits.perLevel]) _ _
    hplain table htable⟩

theorem Entry.build_finite (id : String) {draft : EntryDraft} (h : AllPlain draft.raws) :
    Check.Yields Entry.Finite (Entry.build id draft) := by
  unfold Entry.build
  iterate 2 refine .step fun _ => ?_
  refine .bind fun tables htables => .step fun _ => .pure ?_
  have hplain := h draft.attributes (by simp [EntryDraft.raws])
  have hfirst : ∀ x ∈ some (0 : Float), x.isFinite = true := by
    rintro _ ⟨⟩
    decide +kernel
  have hall := Field.orElse_at (by simp)
    (AttributeTable.readPlus_finite _ hfirst _ _ hplain) tables htables
  exact ⟨hall.1, hall.2⟩

theorem Perk.build_finite (id : String) {draft : PerkDraft} (h : AllPlain draft.raws) :
    Check.Yields Perk.Finite (Perk.build id draft) := by
  unfold Perk.build
  iterate 6 refine .step fun _ => ?_
  refine .bind fun table htable => ?_
  iterate 3 refine .step fun _ => ?_
  have hplain := h draft.attributes (by simp [PerkDraft.raws])
  exact .pure ⟨Field.optional_at
    (AttributeTable.read_finite _ (by simp [AttributeTable.RowLimits.perLevel]) _ _ hplain)
    table htable⟩

theorem AccessoryPool.weights_finite (loc : Location) {raw : Value} (h : raw.plain = true) :
    Check.Yields (fun entries => ∀ entry ∈ entries, entry.2.isFinite = true)
      (AccessoryPool.weights loc raw) := by
  unfold AccessoryPool.weights
  refine .bind fun fields hfields => ?_
  have hplain := Field.object_plain loc h fields hfields
  refine Location.eachKey_mem (fun field hm loc => ?_) loc
  exact .step fun _ => .bind fun weight hweight => .pure
    (Field.float_isFinite _ loc field.2 (hplain field hm).2 weight hweight)

theorem AccessoryPool.build_finite (id : String) {draft : AccessoryPoolDraft}
    (h : AllPlain draft.raws) :
    Check.Yields AccessoryPool.Finite (AccessoryPool.build id draft) := by
  unfold AccessoryPool.build
  iterate 3 refine .step fun _ => ?_
  refine .bind fun a ha => .bind fun b hb => .pure ?_
  exact ⟨weights_finite _ (h _ (by simp [AccessoryPoolDraft.raws])) a ha,
    weights_finite _ (h _ (by simp [AccessoryPoolDraft.raws])) b hb⟩

theorem ActionIdle.numbered_finite {a : ActionIdle} (h : a.Finite) : a.numbered.Finite where
  animIdle := h.animIdle.withId 0
  animReady clip hclip := by
    obtain ⟨unnumbered, hready, rfl⟩ := Option.map_eq_some_iff.mp hclip
    exact (h.animReady unnumbered hready).withId 1
  animRandoms clips hclips := by
    obtain ⟨unnumbered, hrandoms, rfl⟩ := Option.map_eq_some_iff.mp hclips
    exact Animation.number_finite (h.animRandoms unnumbered hrandoms) 2
  autoIdleDelay := h.autoIdleDelay

theorem ActionIdle.readClip_finite (loc : Location) {draft : Option AnimationDraft}
    (h : AllPlain (draft.toList.flatMap AnimationDraft.raws)) :
    Check.Yields (fun result => ∀ clip ∈ result, clip.Finite) (readClip loc draft).result := by
  cases draft with
  | none => exact .pure (by simp)
  | some draft =>
    simp only [readClip, Checked.result_bind]
    refine .bind fun clip hclip => .pure ?_
    rintro _ ⟨⟩
    exact Animation.read_finite _ _ (by simpa using h) clip hclip

theorem ActionIdle.readClips_finite (loc : Location) {drafts : Option (List AnimationDraft)}
    (h : AllPlain ((drafts.getD []).flatMap AnimationDraft.raws)) :
    Check.Yields (fun result => ∀ clips ∈ result, ∀ clip ∈ clips, clip.Finite)
      (readClips loc drafts).result := by
  cases drafts with
  | none => exact .pure (by simp)
  | some drafts =>
    simp only [readClips, Checked.result_bind, Location.result_each]
    refine .bind fun clips hclips => .pure ?_
    rintro _ ⟨⟩
    refine Location.each_mem (fun draft hd loc => ?_) loc clips hclips
    exact Animation.read_finite _ _ fun raw hraw => h raw (List.mem_flatMap.mpr ⟨draft, hd, hraw⟩)

theorem ActionIdle.build_finite (id : String) {draft : ActionIdleDraft} (h : AllPlain draft.raws) :
    Check.Yields ActionIdle.Finite (ActionIdle.build id draft).result := by
  simp only [AllPlain, ActionIdleDraft.raws, List.forall_mem_append] at h
  obtain ⟨⟨⟨hidle, hready⟩, hrandoms⟩, hown⟩ := h
  unfold ActionIdle.build
  simp only [Checked.result_bind, Field.result_orElse]
  refine .step fun _ => .bind fun idle hi => .bind fun ready hr => .bind fun randoms hs => ?_
  refine .bind fun delay hdelay => .step fun _ => .pure (numbered_finite ?_)
  constructor
  case animIdle => exact Animation.read_finite _ _ hidle idle hi
  case animReady => exact readClip_finite _ hready ready hr
  case animRandoms => exact readClips_finite _ hrandoms randoms hs
  case autoIdleDelay =>
    exact Field.orElse_at (by decide +kernel) (Field.time_isFinite _ _ _ (hown _ (by simp)))
      delay hdelay

theorem ActionGeneral.readCoolDown_finite (id : String) {draft : ActionGeneralDraft}
    (h : draft.coolDownTime.plain = true) :
    Check.Yields (fun c : CoolDown => c.time.Finite) (readCoolDown id draft) := by
  unfold readCoolDown
  refine .bind fun time htime => ?_
  iterate 2 refine .step fun _ => ?_
  refine .pure (Field.orElse_at ?_ (Setting.float_finite _ _ _ h) time htime)
  exact List.forall_mem_singleton.mpr (by decide +kernel)

theorem ActionGeneral.readEnterKey_finite (loc : Location) {raw : Value} (h : raw.plain = true) :
    Check.Yields (fun key => ∀ input ∈ key, input.Finite) (readEnterKey loc raw) :=
  Field.optional_at (KeyInput.read_finite loc raw h)

theorem ActionGeneral.readRules_finite (loc : Location) {drafts : Option (List DeriveRuleDraft)}
    (h : AllPlain ((drafts.getD []).flatMap DeriveRuleDraft.raws)) :
    Check.Yields
      (fun rules : Option (List DeriveRule) => ∀ rule ∈ rules.getD [], rule.key.Finite)
      (readRules loc drafts) := by
  cases drafts with
  | none => exact .ok (List.forall_mem_nil _)
  | some drafts =>
    refine .bind fun rules hrules => .pure ?_
    refine Location.each_mem (fun draft hd loc => ?_) loc rules hrules
    exact DeriveRule.read_finite loc fun raw hraw => h raw (List.mem_flatMap.mpr ⟨draft, hd, hraw⟩)

theorem ActionGeneral.build_finite (id : String) {draft : ActionGeneralDraft}
    (h : AllPlain draft.raws) :
    Check.Yields ActionGeneral.Finite (ActionGeneral.build id draft).result := by
  simp only [AllPlain, ActionGeneralDraft.raws, List.forall_mem_append] at h
  obtain ⟨⟨hmain, hrules⟩, hown⟩ := h
  unfold ActionGeneral.build
  simp only [Checked.result_bind, Field.result_optional]
  refine .step fun _ => .bind fun clip hclip => .bind fun enterKey henter => .step fun _ => ?_
  refine .bind fun coolDown hcool => .bind fun inputMovements hinputs => ?_
  refine .bind fun attributes hattributes => .bind fun deriveLevels hlevels => ?_
  refine .bind fun derives hderives => .step fun _ => .bind fun customEvents hevents => .pure ?_
  have hanything : ∀ {V : Type} {item : Location → Value → Check V} (loc : Location) (raw : Value),
      raw.plain = true → Check.Yields (fun _ => True) (item loc raw) :=
    fun _ _ _ _ _ => trivial
  constructor
  case animMain => exact (Animation.read_finite _ _ hmain clip hclip).withId _
  case keys =>
    refine List.forall_mem_append.mpr ⟨fun key hkey => ?_, List.forall_mem_map.mpr ?_⟩
    · have hread := readEnterKey_finite _ (hown _ (by simp)) enterKey henter
      exact hread key (Option.mem_toList.mp hkey)
    · exact readRules_finite _ hrules derives hderives
  case coolDownTime => exact readCoolDown_finite id (hown _ (by simp)) coolDown hcool
  case inputMovements =>
    exact Field.optional_at (Timeline.Points.read_finite InputMovement.read_finite _ _ _
      (hown _ (by simp))) inputMovements hinputs
  case attributes =>
    exact Timeline.Ranges.read_finite PhaseAttributes.read_finite _ _ (hown _ (by simp))
      attributes hattributes
  case deriveLevels =>
    exact Timeline.Ranges.read_finite hanything _ _ (hown _ (by simp)) deriveLevels hlevels
  case customEvents =>
    exact Field.optional_at (Timeline.Points.read_finite hanything _ _ _ (hown _ (by simp)))
      customEvents hevents

theorem ActionMove.numbered_finite {a : ActionMove} (h : a.Finite) : a.numbered.Finite where
  animMove := h.animMove.withId _
  moveSpeed := h.moveSpeed
  starts := numberFrom_all (fun _ _ hs => { hs with anim := hs.anim.withId _ }) h.starts _
  startTime := h.startTime
  turns := numberFrom_all (fun _ _ ht => { ht with anim := ht.anim.withId _ }) h.turns _
  turnTime := h.turnTime
  stops := numberFrom_all (fun _ _ hs => { hs with anim := hs.anim.withId _ }) h.stops _
  stopTime := h.stopTime
  quickStopTime := h.quickStopTime
  smoothMoveDuration := h.smoothMoveDuration

theorem ActionMove.build_finite (id : String) {draft : ActionMoveDraft} (h : AllPlain draft.raws) :
    Check.Yields ActionMove.Finite (ActionMove.build id draft).result := by
  simp only [AllPlain, ActionMoveDraft.raws, List.forall_mem_append, List.forall_mem_flatMap] at h
  obtain ⟨⟨⟨⟨hmove, hstarts⟩, hturns⟩, hstops⟩, hown⟩ := h
  unfold ActionMove.build
  simp only [Checked.result_bind, Location.result_each]
  refine .step fun _ => .step fun _ => .bind fun clip hclip => .bind fun starts hs => ?_
  refine .bind fun turns ht => .bind fun stops hp => ?_
  iterate 4 refine .step fun _ => ?_
  refine .bind fun speed hspeed => .bind fun startTime hstart => .bind fun turnTime hturn => ?_
  refine .bind fun stopTime hstop => .bind fun quickTime hquick => .step fun _ => ?_
  refine .bind fun smooth hsmooth => .pure (numbered_finite ?_)
  constructor
  case animMove => exact Animation.read_finite _ _ hmove clip hclip
  case moveSpeed => exact Field.float_isFinite _ _ _ (hown _ (by simp)) speed hspeed
  case starts =>
    exact Location.each_mem (fun s hm loc => readStart_finite loc (hstarts s hm)) _ starts hs
  case startTime => exact timeOr_isFinite (by decide +kernel) _ (hown _ (by simp)) startTime hstart
  case turns =>
    exact Location.each_mem (fun t hm loc => readTurn_finite loc (hturns t hm)) _ turns ht
  case turnTime => exact timeOr_isFinite (by decide +kernel) _ (hown _ (by simp)) turnTime hturn
  case stops =>
    exact Location.each_mem (fun s hm loc => readStop_finite loc (hstops s hm)) _ stops hp
  case stopTime => exact timeOr_isFinite (by decide +kernel) _ (hown _ (by simp)) stopTime hstop
  case quickStopTime =>
    exact timeOr_isFinite (by decide +kernel) _ (hown _ (by simp)) quickTime hquick
  case smoothMoveDuration =>
    exact timeOr_isFinite (by decide +kernel) _ (hown _ (by simp)) smooth hsmooth

/-- What is built from a plain draft is finite, in every kind. -/
theorem Draft.Builds.finite {draft : Draft} {id : String} {r : Resource} (h : draft.Builds id r)
    (hplain : draft.Plain) : r.Finite := by
  cases h with
  | character h => exact Character.build_finite id hplain _ h
  | style h => exact Style.build_finite id hplain _ h
  | equipment h => exact Equipment.build_finite id hplain _ h
  | entry h => exact Entry.build_finite id hplain _ h
  | perk h => exact Perk.build_finite id hplain _ h
  | accessoryPool h => exact AccessoryPool.build_finite id hplain _ h
  | actionIdle h => exact ActionIdle.build_finite id hplain _ h
  | actionGeneral h => exact ActionGeneral.build_finite id hplain _ h
  | actionMove h => exact ActionMove.build_finite id hplain _ h
  | jewel h => trivial
  | accessory h => trivial
  | zone h => trivial

end GameRoster
