import GameRoster.Proofs.Checks

namespace GameRoster

namespace Ref

variable {family : Id.Family}

theorem eq_of_text {a b : Ref family} (h : a.text = b.text) : a = b := by
  cases a
  cases b
  cases h
  rfl

theorem mem_map_text {id : Ref family} {refs : List (Ref family)} :
    id.text ∈ refs.map text ↔ id ∈ refs := by
  constructor
  · intro h
    obtain ⟨listed, hl, he⟩ := List.mem_map.mp h
    rwa [← eq_of_text he]
  · exact List.mem_map_of_mem

theorem ofText_text (loc : Location) (text : String) :
    Check.Yields (fun ref : Ref family => ref.text = text) (ofText family loc text) := by
  intro ref h
  unfold ofText parse? at h
  split at h
  · rename_i parsed hp
    split at hp
    · obtain rfl := Except.ok.inj hp
      obtain rfl := Except.ok.inj h
      rfl
    · cases hp
  · cases h

theorem listFrom_texts (repeats : Bool) (loc : Location) (i : Nat) (taken texts : List String) :
    Check.Yields (fun refs : List (Ref family) => refs.map text = texts)
      (listFrom family repeats loc i taken texts) := by
  induction texts generalizing i taken with
  | nil => exact .pure rfl
  | cons text rest ih =>
    unfold listFrom
    split
    · intro refs h
      cases h
    · refine .bind fun ref href => .bind fun refs hrefs => .pure ?_
      simp [ofText_text _ _ ref href, ih _ _ refs hrefs]

theorem list_texts (lengths : Lengths) (repeats : Bool) (taken : List String) (loc : Location)
    (texts : List String) :
    Check.Yields (fun refs : List (Ref family) => refs.map text = texts)
      (list family lengths repeats taken loc texts) :=
  .step fun _ => listFrom_texts repeats loc 0 taken texts

end Ref

namespace Perk

theorem readUsableStyles_own (style : Ref .style) (loc : Location)
    (texts : Option (List String)) :
    Check.Yields (fun styles => style ∈ styles) (readUsableStyles style loc texts) := by
  cases texts with
  | none => exact .pure (List.mem_singleton.mpr rfl)
  | some texts =>
    by_cases hc : texts.contains style.text = true
    · simp only [readUsableStyles, hc, if_true]
      intro styles h
      have ht := Ref.list_texts _ _ _ _ _ styles h
      have hm : style.text ∈ styles.map Ref.text := by
        rw [ht]
        exact List.contains_iff_mem.mp hc
      exact Ref.mem_map_text.mp hm
    · simp only [readUsableStyles, hc]
      exact .step fun _ => .pure List.mem_cons_self

/-- A perk can be used by its own style, whether its author lists that style or not. -/
theorem build_own_style (id : String) (draft : PerkDraft) :
    Check.Yields (fun p => p.style ∈ p.usableStyles) (build id draft) := by
  unfold build
  iterate 3 refine .step fun _ => ?_
  refine .bind fun styles hs => ?_
  repeat' refine .step fun _ => ?_
  exact .pure (readUsableStyles_own _ _ _ styles hs)

end Perk

theorem Character.build_id (id : String) (draft : CharacterDraft) :
    Check.Yields (fun c : Character => c.id = id) (Character.build id draft) := by
  unfold Character.build
  repeat' refine .step fun _ => ?_
  exact .pure rfl

theorem Style.build_id (id : String) (draft : StyleDraft) :
    Check.Yields (fun s : Style => s.id = id) (Style.build id draft) := by
  unfold Style.build
  repeat' refine .step fun _ => ?_
  exact .pure rfl

theorem Equipment.build_id (id : String) (draft : EquipmentDraft) :
    Check.Yields (fun e : Equipment => e.id = id) (Equipment.build id draft) := by
  unfold Equipment.build
  repeat' refine .step fun _ => ?_
  exact .pure rfl

theorem Entry.build_id (id : String) (draft : EntryDraft) :
    Check.Yields (fun e : Entry => e.id = id) (Entry.build id draft) := by
  unfold Entry.build
  repeat' refine .step fun _ => ?_
  exact .pure rfl

theorem Perk.build_id (id : String) (draft : PerkDraft) :
    Check.Yields (fun p : Perk => p.id = id) (Perk.build id draft) := by
  unfold Perk.build
  repeat' refine .step fun _ => ?_
  exact .pure rfl

theorem Jewel.build_id (id : String) (draft : JewelDraft) :
    Check.Yields (fun j : Jewel => j.id = id) (Jewel.build id draft) := by
  unfold Jewel.build
  repeat' refine .step fun _ => ?_
  exact .pure rfl

theorem AccessoryPool.build_id (id : String) (draft : AccessoryPoolDraft) :
    Check.Yields (fun p : AccessoryPool => p.id = id) (AccessoryPool.build id draft) := by
  unfold AccessoryPool.build
  repeat' refine .step fun _ => ?_
  exact .pure rfl

theorem Accessory.build_id (id : String) (draft : AccessoryDraft) :
    Check.Yields (fun a : Accessory => a.id = id) (Accessory.build id draft) := by
  unfold Accessory.build
  repeat' refine .step fun _ => ?_
  exact .pure rfl

theorem Zone.build_id (id : String) (draft : ZoneDraft) :
    Check.Yields (fun z : Zone => z.id = id) (Zone.build id draft) := by
  unfold Zone.build
  repeat' refine .step fun _ => ?_
  exact .pure rfl

theorem ActionIdle.build_id (id : String) (draft : ActionIdleDraft) :
    Check.Yields (fun a : ActionIdle => a.id = id) (ActionIdle.build id draft).result := by
  unfold ActionIdle.build
  simp only [Checked.result_bind]
  repeat' refine .step fun _ => ?_
  exact .pure rfl

theorem ActionGeneral.build_id (id : String) (draft : ActionGeneralDraft) :
    Check.Yields (fun a : ActionGeneral => a.id = id) (ActionGeneral.build id draft).result := by
  unfold ActionGeneral.build
  simp only [Checked.result_bind]
  repeat' refine .step fun _ => ?_
  exact .pure rfl

theorem ActionMove.build_id (id : String) (draft : ActionMoveDraft) :
    Check.Yields (fun a : ActionMove => a.id = id) (ActionMove.build id draft).result := by
  unfold ActionMove.build
  simp only [Checked.result_bind]
  repeat' refine .step fun _ => ?_
  exact .pure rfl

/-- A draft and the resource that its kind's builder makes of it. -/
inductive Draft.Builds (id : String) : Draft → Resource → Prop
  | character {draft : CharacterDraft} {c : Character} (h : Character.build id draft = .ok c) :
      Builds id (.character draft) (.character c)
  | style {draft : StyleDraft} {s : Style} (h : Style.build id draft = .ok s) :
      Builds id (.style draft) (.style s)
  | equipment {draft : EquipmentDraft} {e : Equipment} (h : Equipment.build id draft = .ok e) :
      Builds id (.equipment draft) (.equipment e)
  | entry {draft : EntryDraft} {e : Entry} (h : Entry.build id draft = .ok e) :
      Builds id (.entry draft) (.entry e)
  | perk {draft : PerkDraft} {p : Perk} (h : Perk.build id draft = .ok p) :
      Builds id (.perk draft) (.perk p)
  | jewel {draft : JewelDraft} {j : Jewel} (h : Jewel.build id draft = .ok j) :
      Builds id (.jewel draft) (.jewel j)
  | accessoryPool {draft : AccessoryPoolDraft} {p : AccessoryPool}
      (h : AccessoryPool.build id draft = .ok p) :
      Builds id (.accessoryPool draft) (.accessoryPool p)
  | accessory {draft : AccessoryDraft} {a : Accessory} (h : Accessory.build id draft = .ok a) :
      Builds id (.accessory draft) (.accessory a)
  | zone {draft : ZoneDraft} {z : Zone} (h : Zone.build id draft = .ok z) :
      Builds id (.zone draft) (.zone z)
  | actionIdle {draft : ActionIdleDraft} {a : ActionIdle}
      (h : (ActionIdle.build id draft).result = .ok a) :
      Builds id (.actionIdle draft) (.actionIdle a)
  | actionGeneral {draft : ActionGeneralDraft} {a : ActionGeneral}
      (h : (ActionGeneral.build id draft).result = .ok a) :
      Builds id (.actionGeneral draft) (.actionGeneral a)
  | actionMove {draft : ActionMoveDraft} {a : ActionMove}
      (h : (ActionMove.build id draft).result = .ok a) :
      Builds id (.actionMove draft) (.actionMove a)

theorem Draft.builds {draft : Draft} {id : String} {r : Resource}
    (h : (draft.build id).result = .ok r) : draft.Builds id r := by
  cases draft
  all_goals
    simp only [Draft.build, Checked.result_bind, Checked.result_pure] at h
    obtain ⟨built, hb, hr⟩ := Check.bind_ok.mp h
    obtain rfl := Check.pure_ok.mp hr
    constructor
    exact hb

/-- A resource is built under the id that it is given. -/
theorem Draft.Builds.id_eq {draft : Draft} {id : String} {r : Resource} (h : draft.Builds id r) :
    r.id = id := by
  cases h with
  | character h => exact Character.build_id id _ _ h
  | style h => exact Style.build_id id _ _ h
  | equipment h => exact Equipment.build_id id _ _ h
  | entry h => exact Entry.build_id id _ _ h
  | perk h => exact Perk.build_id id _ _ h
  | jewel h => exact Jewel.build_id id _ _ h
  | accessoryPool h => exact AccessoryPool.build_id id _ _ h
  | accessory h => exact Accessory.build_id id _ _ h
  | zone h => exact Zone.build_id id _ _ h
  | actionIdle h => exact ActionIdle.build_id id _ _ h
  | actionGeneral h => exact ActionGeneral.build_id id _ _ h
  | actionMove h => exact ActionMove.build_id id _ _ h

end GameRoster
