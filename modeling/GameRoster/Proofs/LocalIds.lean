import GameRoster.Proofs.StoredFiles
import Mathlib.Data.List.ReduceOption

namespace GameRoster

open ActionMove (placed numberFrom)

namespace Animation

theorem idAt_of_lt {place : Nat} (h : place < unassigned) : idAt place = place := if_pos h

theorem assignFrom_eq (place : Nat) (slots : List (Option Animation)) :
    assignFrom place slots = slots.mapIdx fun i slot => slot.map (placed (place + i)) := by
  induction slots generalizing place with
  | nil => rfl
  | cons slot rest ih =>
    rw [assignFrom, ih, List.mapIdx_cons]
    simp only [Nat.add_assoc, Nat.add_comm 1]
    rfl

theorem assignFrom_append (place : Nat) (xs ys : List (Option Animation)) :
    assignFrom place (xs ++ ys) = assignFrom place xs ++ assignFrom (place + xs.length) ys := by
  rw [assignFrom_eq, assignFrom_eq, assignFrom_eq, List.mapIdx_append]
  simp only [Nat.add_assoc, Nat.add_comm xs.length]

/-- A slot is numbered by its place alone, and nothing but the local id of its clip changes. -/
theorem getElem?_assign (slots : List (Option Animation)) (i : Nat) :
    (assign slots)[i]? = slots[i]?.map (Option.map (placed i)) := by
  rw [assign, assignFrom_eq, List.getElem?_mapIdx, Nat.zero_add]

/-- Clips that are known by the numbers of their places, as long as there are ids. -/
def Placed (slots : List (Option Animation)) : Prop :=
  ∀ i clip, slots[i]? = some (some clip) → clip.localId = if i < 65535 then i else unassigned

theorem assign_placed (slots : List (Option Animation)) : Placed (assign slots) := by
  intro i clip h
  rw [getElem?_assign] at h
  obtain ⟨_, _, hslot⟩ := Option.map_eq_some_iff.mp h
  obtain ⟨_, _, rfl⟩ := Option.map_eq_some_iff.mp hslot
  rfl

/-- Clips of which each has an id that no other one has. -/
structure Identified (clips : List Animation) : Prop where
  assigned : ∀ clip ∈ clips, clip.localId < unassigned
  distinct : (clips.map localId).Nodup

theorem Placed.identified {slots : List (Option Animation)} (h : Placed slots)
    (hlength : slots.length ≤ unassigned) : Identified slots.reduceOption := by
  have hid : ∀ i clip, slots[i]? = some (some clip) → clip.localId = i ∧ i < unassigned := by
    intro i clip hslot
    have hlt := lt_of_lt_of_le (List.getElem?_eq_some_iff.mp hslot).1 hlength
    exact ⟨(h i clip hslot).trans (idAt_of_lt hlt), hlt⟩
  constructor
  case assigned =>
    intro clip hm
    obtain ⟨i, hi⟩ := List.mem_iff_getElem?.mp (List.reduceOption_mem_iff.mp hm)
    obtain ⟨heq, hlt⟩ := hid i clip hi
    exact heq ▸ hlt
  case distinct =>
    rw [List.Nodup, List.pairwise_map, List.reduceOption, List.pairwise_filterMap,
      List.pairwise_iff_getElem]
    intro i j hi hj hij first hfirst second hsecond heq
    obtain ⟨hleft, _⟩ := hid i first (List.getElem?_eq_some_iff.mpr ⟨hi, hfirst⟩)
    obtain ⟨hright, _⟩ := hid j second (List.getElem?_eq_some_iff.mpr ⟨hj, hsecond⟩)
    omega

theorem reduceOption_some (clips : List Animation) : (clips.map some).reduceOption = clips := by
  rw [List.reduceOption, List.filterMap_map]
  exact List.filterMap_some

theorem Placed.take {slots : List (Option Animation)} (h : Placed slots) (n : Nat) :
    Placed (slots.take n) := by
  intro i clip hslot
  rw [List.getElem?_take] at hslot
  split at hslot
  · exact h i clip hslot
  · cases hslot

end Animation

namespace ActionIdle

theorem number_some (place : Nat) (clips : List Animation) :
    (Animation.number place clips).map some = Animation.assignFrom place (clips.map some) := by
  induction clips generalizing place with
  | nil => rfl
  | cons clip rest ih => exact congrArg (some (placed place clip) :: ·) (ih (place + 1))

theorem numbered_slots (a : ActionIdle) : a.numbered.slots = Animation.assign a.slots := by
  have hrandoms : (a.numbered.animRandoms.getD []).map some =
      Animation.assignFrom 2 ((a.animRandoms.getD []).map some) := by
    change ((a.animRandoms.map (Animation.number 2)).getD []).map some = _
    cases a.animRandoms with
    | none => rfl
    | some clips => exact number_some 2 clips
  rw [slots, hrandoms]
  rfl

theorem slots_clips (a : ActionIdle) : a.slots.reduceOption = a.clips := by
  have hrandoms := Animation.reduceOption_some (a.animRandoms.getD [])
  unfold slots clips
  cases a.animReady with
  | none =>
    rw [List.reduceOption_cons_of_some, List.reduceOption_cons_of_none, hrandoms]
    rfl
  | some clip =>
    rw [List.reduceOption_cons_of_some, List.reduceOption_cons_of_some, hrandoms]
    rfl

theorem build_placed (id : String) (draft : ActionIdleDraft) :
    Check.Yields (fun a => Animation.Placed a.slots) (build id draft).result := by
  unfold build
  simp only [Checked.result_bind]
  iterate 6 refine .step fun _ => ?_
  refine .pure ?_
  rw [numbered_slots]
  exact Animation.assign_placed _

/-- The action with another stance in combat, or without one. -/
def withReady (a : ActionIdle) (clip : Option Animation) : ActionIdle :=
  { a with animReady := clip.map (placed 1) }

/-- The stance in combat has no influence on anything else of the action. -/
theorem build_ready {id : String} {draft : ActionIdleDraft} {a : ActionIdle}
    (h : (build id draft).result = .ok a) (ready : Option AnimationDraft) :
    (build id { draft with animReady := ready }).result =
      (readClip (.ofResource id "anim_ready") ready).result.map a.withReady := by
  unfold build at h ⊢
  simp only [Checked.result_bind, Check.bind_ok, Checked.result_pure] at h
  obtain ⟨base, hbase, idle, hidle, _, _, randoms, hrandoms, delay, hdelay, keeping, hkeeping,
    h⟩ := h
  obtain rfl := Except.ok.inj h
  simp only [Checked.result_bind, hbase, hidle, hrandoms, hdelay, hkeeping]
  cases (readClip (.ofResource id "anim_ready") ready).result <;> rfl

end ActionIdle

namespace ActionMove

/-- Items are numbered as their clips are. -/
theorem numberFrom_clips {α : Type} {clip : α → Animation} {place : Nat → α → α}
    (h : ∀ i item, clip (place i item) = placed i (clip item)) (i : Nat) (items : List α) :
    ((numberFrom place i items).map clip).map some =
      Animation.assignFrom i ((items.map clip).map some) := by
  induction items generalizing i with
  | nil => rfl
  | cons item rest ih =>
    rw [numberFrom, List.map_cons, List.map_cons, h, ih]
    rfl

theorem numbered_clips (a : ActionMove) :
    a.numbered.clips.map some = Animation.assign (a.clips.map some) := by
  have hstarts : (a.numbered.starts.map MoveStart.anim).map some =
      Animation.assignFrom 1 ((a.starts.map MoveStart.anim).map some) :=
    numberFrom_clips (fun _ _ => rfl) 1 a.starts
  have hturns : (a.numbered.turns.map MoveTurn.anim).map some =
      Animation.assignFrom (1 + a.starts.length) ((a.turns.map MoveTurn.anim).map some) :=
    numberFrom_clips (fun _ _ => rfl) _ a.turns
  have hstops : (a.numbered.stops.map MoveStop.anim).map some =
      Animation.assignFrom (1 + a.starts.length + a.turns.length)
        ((a.stops.map MoveStop.anim).map some) :=
    numberFrom_clips (fun _ _ => rfl) _ a.stops
  simp only [clips, List.map_append, List.map_cons, hstarts, hturns, hstops, Animation.assign,
    Animation.assignFrom_append, List.length_append, List.length_cons, List.length_map]
  rw [Nat.zero_add, Nat.add_comm 1 a.starts.length, Nat.zero_add]
  rfl

theorem build_placed (id : String) (draft : ActionMoveDraft) :
    Check.Yields (fun a => Animation.Placed (a.clips.map some)) (build id draft).result := by
  unfold build
  simp only [Checked.result_bind]
  iterate 17 refine .step fun _ => ?_
  refine .pure ?_
  rw [numbered_clips]
  exact Animation.assign_placed _

end ActionMove

/-- Numbering gives each clip the id of its place, or none where no ids are left, and changes
nothing else. The clips of an action that is built are numbered in their order, all differently as
long as there are ids for all places. The stance in combat has a place of its own: with another one,
or without one, all other clips of the action are the same. -/
theorem clips_numbered :
    (∀ (slots : List (Option Animation)) (i : Nat), (Animation.assign slots)[i]? =
      slots[i]?.map (Option.map fun clip : Animation =>
        { clip with localId := if i < 65535 then i else Animation.unassigned })) ∧
    (∀ slots, Animation.Identified ((Animation.assign slots).take 65535).reduceOption) ∧
    (∀ id draft a, (ActionIdle.build id draft).result = .ok a →
      Animation.Placed a.slots ∧
      (a.slots.length ≤ 65535 → Animation.Identified a.clips) ∧
      ∀ ready, (ActionIdle.build id { draft with animReady := ready }).result =
        (ActionIdle.readClip (.ofResource id "anim_ready") ready).result.map a.withReady) ∧
    ∀ id draft a, (ActionMove.build id draft).result = .ok a →
      Animation.Placed (a.clips.map some) ∧
      (a.clips.length ≤ 65535 → Animation.Identified a.clips) := by
  refine ⟨Animation.getElem?_assign, ?_, ?_, ?_⟩
  · intro slots
    exact ((Animation.assign_placed slots).take 65535).identified (List.length_take_le _ _)
  · intro id draft a h
    have hplaced := ActionIdle.build_placed id draft a h
    refine ⟨hplaced, fun hlength => ?_, ActionIdle.build_ready h⟩
    rw [← ActionIdle.slots_clips]
    exact hplaced.identified hlength
  · intro id draft a h
    have hplaced := ActionMove.build_placed id draft a h
    refine ⟨hplaced, fun hlength => ?_⟩
    have hidentified := hplaced.identified (by rwa [List.length_map])
    rwa [Animation.reduceOption_some] at hidentified

/-- An archer at rest, who has no stance in combat and fidgets in two ways. -/
def ActionIdleDraft.resting : ActionIdleDraft where
  enabled := .null
  character := "Character.Ada"
  styles := ["Style.Ada.Bow"]
  animIdle := .archer "rest" false
  animReady := none
  animRandoms := some [.archer "yawn" false, .archer "stretch" false]
  autoIdleDelay := .null
  deriveKeeping := .null

/-- An archer who walks, starts in one way and stops in another one. -/
def ActionMoveDraft.walking : ActionMoveDraft where
  enabled := .null
  character := "Character.Ada"
  styles := ["Style.Ada.Bow"]
  enterKey := "Walk"
  enterLevel := .null
  deriveLevel := .null
  specialDeriveLevel := .null
  animMove := .archer "walk" true
  moveSpeed := .int 1
  starts := [{ anim := .archer "start" true, enterAngle := .array [.string "L45", .string "R45"]
               turnInPlaceEnd := .null, quickStopEnd := .null }]
  startTime := .null
  turns := []
  turnTime := .null
  stops := [{ anim := .archer "stop" true
              enterPhaseTable := .array [.array [.int 0, .int 1, .string "0.2s"]]
              speedDownEnd := .int 1 }]
  stopTime := .null
  quickStopTime := .null
  deriveKeeping := .null
  smoothMoveFroms := []
  smoothMoveDuration := .null

theorem resting_and_walking_numbered :
    (∃ a, (ActionIdle.build "Action.Ada.Rest" .resting).result = .ok a ∧
      a.clips.map Animation.localId = [0, 2, 3] ∧ Animation.Identified a.clips ∧
      (ActionIdle.build "Action.Ada.Rest"
          { ActionIdleDraft.resting with animReady := some (.archer "ready" false) }).result =
        (ActionIdle.readClip (.ofResource "Action.Ada.Rest" "anim_ready")
          (some (.archer "ready" false))).result.map a.withReady) ∧
    ∃ a, (ActionMove.build "Action.Ada.Walk" .walking).result = .ok a ∧
      a.clips.map Animation.localId = [0, 1, 2] ∧ Animation.Identified a.clips := by
  obtain ⟨-, -, hidle, hmove⟩ := clips_numbered
  constructor
  · obtain ⟨a, h⟩ := Check.exists_of_isOk
      (x := (ActionIdle.build "Action.Ada.Rest" .resting).result) (by decide +kernel)
    obtain ⟨-, hidentified, hready⟩ := hidle _ _ a h
    have hids : (ActionIdle.build "Action.Ada.Rest" .resting).result.toOption.any (fun a =>
        decide (a.clips.map Animation.localId = [0, 2, 3] ∧ a.slots.length ≤ 65535)) = true := by
      decide +kernel
    obtain ⟨hnumbers, hlength⟩ := of_decide_eq_true (Check.any_ok hids h)
    exact ⟨a, h, hnumbers, hidentified hlength, hready _⟩
  · obtain ⟨a, h⟩ := Check.exists_of_isOk
      (x := (ActionMove.build "Action.Ada.Walk" .walking).result) (by decide +kernel)
    obtain ⟨-, hidentified⟩ := hmove _ _ a h
    have hids : (ActionMove.build "Action.Ada.Walk" .walking).result.toOption.any (fun a =>
        decide (a.clips.map Animation.localId = [0, 1, 2] ∧ a.clips.length ≤ 65535)) = true := by
      decide +kernel
    obtain ⟨hnumbers, hlength⟩ := of_decide_eq_true (Check.any_ok hids h)
    exact ⟨a, h, hnumbers, hidentified hlength⟩

end GameRoster
