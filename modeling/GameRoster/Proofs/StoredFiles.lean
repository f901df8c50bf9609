import GameRoster.Proofs.Bounds
import GameRoster.Proofs.Building
import GameRoster.Proofs.RelativePaths

namespace GameRoster

open GameRoster.Path (StoredFrom)

/-- A clip plays the file that its draft names. -/
def Animation.Plays (draft : AnimationDraft) (clip : Animation) : Prop :=
  StoredFrom draft.files clip.files

theorem Animation.read_plays (limits : AnimationLimits) (loc : Location) (draft : AnimationDraft) :
    Check.Yields (Plays draft) (read limits loc draft).result := by
  unfold read
  simp only [Checked.result_bind]
  refine .bind fun stored hstored => ?_
  iterate 4 refine .step fun _ => ?_
  have hlimits : ({} : PathLimits).allowAbsolute = false := rfl
  exact .pure (Field.path_storedFrom hlimits _ _ stored hstored)

/-- Numbering clips leaves their files as they are. -/
theorem Animation.number_files (place : Nat) (clips : List Animation) :
    (number place clips).map files = clips.map files := by
  induction clips generalizing place with
  | nil => rfl
  | cons clip rest ih => exact congrArg (clip.files :: ·) (ih (place + 1))

/-- Items of an action, each with a clip that plays the file its draft names. -/
theorem Animation.plays_each {α β : Type} {drafted : α → AnimationDraft} {clip : β → Animation}
    {drafts : List α} {items : List β}
    (h : List.Forall₂ (fun draft item => Plays (drafted draft) (clip item)) drafts items) :
    List.Forall₂ Plays (drafts.map drafted) (items.map clip) :=
  List.forall₂_map_left_iff.mpr (List.forall₂_map_right_iff.mpr h)

def ActionIdleDraft.clips (draft : ActionIdleDraft) : List AnimationDraft :=
  draft.animIdle :: draft.animReady.toList ++ draft.animRandoms.getD []

namespace ActionIdle

def clips (a : ActionIdle) : List Animation :=
  a.animIdle :: a.animReady.toList ++ a.animRandoms.getD []

theorem numbered_files (a : ActionIdle) :
    a.numbered.clips.map Animation.files = a.clips.map Animation.files := by
  have hready : a.numbered.animReady.toList.map Animation.files =
      a.animReady.toList.map Animation.files := by
    change (a.animReady.map _).toList.map Animation.files = _
    cases a.animReady <;> rfl
  have hrandoms : (a.numbered.animRandoms.getD []).map Animation.files =
      (a.animRandoms.getD []).map Animation.files := by
    change ((a.animRandoms.map (Animation.number 2)).getD []).map Animation.files = _
    cases a.animRandoms with
    | none => rfl
    | some clips => exact Animation.number_files 2 clips
  simp only [clips, List.map_append, List.map_cons, hready, hrandoms]
  rfl

theorem readClip_plays (loc : Location) (draft : Option AnimationDraft) :
    Check.Yields (fun clip => List.Forall₂ Animation.Plays draft.toList clip.toList)
      (readClip loc draft).result := by
  cases draft with
  | none => exact .pure .nil
  | some draft =>
    simp only [readClip, Checked.result_bind]
    refine .bind fun clip hclip => .pure ?_
    exact .cons (Animation.read_plays _ _ _ clip hclip) .nil

theorem readClips_plays (loc : Location) (drafts : Option (List AnimationDraft)) :
    Check.Yields (fun clips => List.Forall₂ Animation.Plays (drafts.getD []) (clips.getD []))
      (readClips loc drafts).result := by
  cases drafts with
  | none => exact .pure .nil
  | some drafts =>
    simp only [readClips, Checked.result_bind, Location.result_each]
    refine .bind fun clips hclips => .pure ?_
    exact Location.each_related (Animation.read_plays still) loc drafts clips hclips

theorem build_files (id : String) (draft : ActionIdleDraft) :
    Check.Yields (fun a => List.Forall₂ StoredFrom (draft.clips.map AnimationDraft.files)
      (a.clips.map Animation.files)) (build id draft).result := by
  unfold build
  simp only [Checked.result_bind]
  refine .step fun _ => .bind fun idle hidle => .bind fun ready hready => ?_
  refine .bind fun randoms hrandoms => .step fun _ => .step fun _ => .pure ?_
  rw [numbered_files, List.forall₂_map_left_iff, List.forall₂_map_right_iff]
  have hstances : List.Forall₂ Animation.Plays (draft.animIdle :: draft.animReady.toList)
      (idle :: ready.toList) :=
    .cons (Animation.read_plays _ _ _ idle hidle) (readClip_plays _ _ ready hready)
  exact List.rel_append hstances (readClips_plays _ _ randoms hrandoms)

end ActionIdle

def ActionMoveDraft.clips (draft : ActionMoveDraft) : List AnimationDraft :=
  draft.animMove :: draft.starts.map MoveStartDraft.anim ++ draft.turns.map MoveTurnDraft.anim ++
    draft.stops.map MoveStopDraft.anim

namespace ActionMove

theorem numberFrom_map {α β : Type} {place : Nat → α → α} {f : α → β}
    (h : ∀ i a, f (place i a) = f a) (i : Nat) (items : List α) :
    (numberFrom place i items).map f = items.map f := by
  induction items generalizing i with
  | nil => rfl
  | cons item rest ih =>
    rw [numberFrom, List.map_cons, List.map_cons, h, ih]

theorem numbered_files (a : ActionMove) :
    a.numbered.clips.map Animation.files = a.clips.map Animation.files := by
  have hstarts : a.numbered.starts.map (fun s => s.anim.files) =
      a.starts.map fun s => s.anim.files := by
    apply numberFrom_map
    exact fun _ _ => rfl
  have hturns : a.numbered.turns.map (fun t => t.anim.files) =
      a.turns.map fun t => t.anim.files := by
    apply numberFrom_map
    exact fun _ _ => rfl
  have hstops : a.numbered.stops.map (fun s => s.anim.files) =
      a.stops.map fun s => s.anim.files := by
    apply numberFrom_map
    exact fun _ _ => rfl
  simp only [clips, List.map_append, List.map_cons, List.map_map, Function.comp_def, hstarts,
    hturns, hstops]
  rfl

theorem readStart_plays (loc : Location) (draft : MoveStartDraft) :
    Check.Yields (fun s => Animation.Plays draft.anim s.anim) (readStart loc draft).result := by
  unfold readStart
  simp only [Checked.result_bind]
  refine .bind fun clip hclip => ?_
  iterate 3 refine .step fun _ => ?_
  exact .pure (Animation.read_plays _ _ _ clip hclip)

theorem readTurn_plays (loc : Location) (draft : MoveTurnDraft) :
    Check.Yields (fun t => Animation.Plays draft.anim t.anim) (readTurn loc draft).result := by
  unfold readTurn
  simp only [Checked.result_bind]
  refine .bind fun clip hclip => .step fun _ => .step fun _ => ?_
  exact .pure (Animation.read_plays _ _ _ clip hclip)

theorem readStop_plays (loc : Location) (draft : MoveStopDraft) :
    Check.Yields (fun s => Animation.Plays draft.anim s.anim) (readStop loc draft).result := by
  unfold readStop
  simp only [Checked.result_bind]
  refine .bind fun clip hclip => .step fun _ => .step fun _ => ?_
  exact .pure (Animation.read_plays _ _ _ clip hclip)

theorem build_files (id : String) (draft : ActionMoveDraft) :
    Check.Yields (fun a => List.Forall₂ StoredFrom (draft.clips.map AnimationDraft.files)
      (a.clips.map Animation.files)) (build id draft).result := by
  unfold build
  simp only [Checked.result_bind, Location.result_each]
  refine .step fun _ => .step fun _ => .bind fun clip hclip => .bind fun starts hs => ?_
  refine .bind fun turns ht => .bind fun stops hp => ?_
  repeat' refine .step fun _ => ?_
  refine .pure ?_
  rw [numbered_files, List.forall₂_map_left_iff, List.forall₂_map_right_iff]
  have hmove := Animation.read_plays _ _ _ clip hclip
  have hstarts := Animation.plays_each (Location.each_related readStart_plays _ _ starts hs)
  have hturns := Animation.plays_each (Location.each_related readTurn_plays _ _ turns ht)
  have hstops := Animation.plays_each (Location.each_related readStop_plays _ _ stops hp)
  exact List.rel_append (List.rel_append (.cons hmove hstarts) hturns) hstops

end ActionMove

/-- The files that a draft names. -/
def Draft.files : Draft → List String
  | .character draft => [draft.skeletonFiles]
  | .style draft => [draft.viewModel]
  | .zone draft => [draft.zoneFile, draft.viewZoneFile]
  | .actionIdle draft => draft.clips.map AnimationDraft.files
  | .actionGeneral draft => [draft.animMain.files]
  | .actionMove draft => draft.clips.map AnimationDraft.files
  | .equipment _ | .entry _ | .perk _ | .jewel _ | .accessoryPool _ | .accessory _ => []

/-- The files of a resource, in the order in which its draft names them. -/
def Resource.files : Resource → List String
  | .character c => [c.skeletonFiles]
  | .style s => [s.viewModel]
  | .zone z => [z.zoneFile, z.viewZoneFile]
  | .actionIdle a => a.clips.map Animation.files
  | .actionGeneral a => [a.animMain.files]
  | .actionMove a => a.clips.map Animation.files
  | .equipment _ | .entry _ | .perk _ | .jewel _ | .accessoryPool _ | .accessory _ => []

theorem Character.build_files (id : String) (draft : CharacterDraft) :
    Check.Yields (fun c : Character => StoredFrom draft.skeletonFiles c.skeletonFiles)
      (Character.build id draft) := by
  unfold Character.build
  iterate 5 refine .step fun _ => ?_
  refine .bind fun stored hstored => .step fun _ => .pure ?_
  exact Field.path_storedFrom (by rfl) _ _ stored hstored

theorem Style.build_files (id : String) (draft : StyleDraft) :
    Check.Yields (fun s : Style => StoredFrom draft.viewModel s.viewModel)
      (Style.build id draft) := by
  unfold Style.build
  iterate 8 refine .step fun _ => ?_
  refine .bind fun stored hstored => .pure ?_
  exact Field.path_storedFrom (by rfl) _ _ stored hstored

theorem Zone.build_files (id : String) (draft : ZoneDraft) :
    Check.Yields (fun z : Zone => StoredFrom draft.zoneFile z.zoneFile ∧
      StoredFrom draft.viewZoneFile z.viewZoneFile) (Zone.build id draft) := by
  unfold Zone.build
  refine .step fun _ => .bind fun zone hzone => .bind fun view hview => .pure ⟨?_, ?_⟩
  · exact Field.path_storedFrom (by rfl) _ _ zone hzone
  · exact Field.path_storedFrom (by rfl) _ _ view hview

theorem ActionGeneral.build_files (id : String) (draft : ActionGeneralDraft) :
    Check.Yields (fun a : ActionGeneral => StoredFrom draft.animMain.files a.animMain.files)
      (ActionGeneral.build id draft).result := by
  unfold ActionGeneral.build
  simp only [Checked.result_bind]
  refine .step fun _ => .bind fun clip hclip => ?_
  repeat' refine .step fun _ => ?_
  exact .pure (Animation.read_plays _ _ _ clip hclip)

/-- What is built keeps the files of its draft, in every kind. -/
theorem Draft.Builds.files {draft : Draft} {id : String} {r : Resource} (h : draft.Builds id r) :
    List.Forall₂ StoredFrom draft.files r.files := by
  cases h with
  | character h => exact .cons (Character.build_files id _ _ h) .nil
  | style h => exact .cons (Style.build_files id _ _ h) .nil
  | zone h =>
    obtain ⟨hzone, hview⟩ := Zone.build_files id _ _ h
    exact .cons hzone (.cons hview .nil)
  | actionIdle h => exact ActionIdle.build_files id _ _ h
  | actionGeneral h => exact .cons (ActionGeneral.build_files id _ _ h) .nil
  | actionMove h => exact ActionMove.build_files id _ _ h
  | equipment h => exact .nil
  | entry h => exact .nil
  | perk h => exact .nil
  | jewel h => exact .nil
  | accessoryPool h => exact .nil
  | accessory h => exact .nil

/-- Every file that has to be relative, as a field on its own and in a resource of any kind, was
relative as it was written. It is kept in its normal form, which begins at no root and is absolute
if and only if the path hides a drive. -/
theorem files_stored (raw : String) (draft : Draft) (id : String) :
    (∀ limits : PathLimits, limits.allowAbsolute = false → ∀ loc stored,
      Field.path limits loc raw = .ok stored → StoredFrom raw stored) ∧
    ∀ r, (draft.build id).result = .ok r → List.Forall₂ StoredFrom draft.files r.files := by
  constructor
  · exact fun limits hlimits loc stored h => Field.path_storedFrom hlimits loc raw stored h
  · exact fun r h => (Draft.builds h).files

/-- A hall that is played from a drive behind a step that stays where it is. -/
def drivenHall : ZoneDraft := ⟨"Hall", "./C:/hall.json", "..\\hall.usd"⟩

theorem drivenHall_stored : ∃ r, ((Draft.zone drivenHall).build "Zone.Hall").result = .ok r ∧
    r.files = ["C:/hall.json", "../hall.usd"] ∧
    List.Forall₂ StoredFrom ["./C:/hall.json", "..\\hall.usd"] r.files ∧
    Field.path {} (.label "x") "./C:/x" = .ok "C:/x" ∧ StoredFrom "./C:/x" "C:/x" := by
  obtain ⟨hfield, hresource⟩ := files_stored "./C:/x" (.zone drivenHall) "Zone.Hall"
  have hbuilt : ((Draft.zone drivenHall).build "Zone.Hall").result =
      .ok (.zone ⟨"Zone.Hall", "Hall", "C:/hall.json", "../hall.usd"⟩) := by rfl
  have hpath : Field.path {} (.label "x") "./C:/x" = .ok "C:/x" := by rfl
  exact ⟨_, hbuilt, rfl, hresource _ hbuilt, hpath, hfield {} rfl _ _ hpath⟩

/-- What is kept for a relative path need not be relative. -/
theorem stored_not_relative : ¬ ∀ (limits : PathLimits) (loc : Location) (raw stored : String),
    limits.allowAbsolute = false → Field.path limits loc raw = .ok stored →
      Path.isAbsolute stored.toList = false := by
  intro h
  have hstored := h {} (.label "x") "./C:/x" "C:/x" rfl (by rfl)
  exact absurd hstored (by decide +kernel)

end GameRoster
