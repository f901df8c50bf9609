import GameRoster.Proofs.FieldFaults
import GameRoster.Resource

namespace GameRoster

open Check.Fails GameRoster.Field

/-- A fault in a field of the resource that is built. -/
abbrev Fault.BuiltIn (id : String) : Fault → Prop := Fault.In Fault.OfBuilding id

section Tables

namespace AttributeTable

variable (groups : List Attribute.Group) (limits : RowLimits)

theorem row_reader (name : String) :
    Check.Reader fun loc raw => row groups limits loc name raw := by
  intro loc raw
  dsimp only [row]
  split
  · exact step (numbers_reader (float_reader _) _ _ _ loc raw) fun _ => ok
  · exact field _

theorem read_reader : Check.Reader (read groups limits) := by
  intro loc raw
  exact step (object_reader loc raw) fun fields => eachKey (row_reader groups limits) loc fields

theorem readPlus_reader : Check.Reader (readPlus groups limits) := by
  intro loc raw
  exact step (read_reader groups limits loc raw) fun _ => ok

end AttributeTable

namespace IndexTable

variable (length : Option Nat)

theorem row_reader (id : String) : Check.Reader (row length id) := by
  intro loc raw
  refine step (Ref.ofText_reader _ loc id) fun _ => ?_
  exact step (ints_reader _ _ loc raw) fun _ => ok

theorem read_reader : Check.Reader (read length) := by
  intro loc raw
  refine step (object_reader loc raw) fun fields => ?_
  exact step (eachKey (row_reader length) loc fields) fun _ => ok

theorem plusRow_reader (name : String) :
    Check.Reader fun loc raw => plusRow length loc name raw := by
  intro loc raw
  dsimp only [plusRow]
  split
  · exact step (row_reader length _ loc raw) fun _ => ok
  · exact step (row_reader length _ loc raw) fun _ => ok

theorem readPlus_reader : Check.Reader (readPlus length) := by
  intro loc raw
  refine step (object_reader loc raw) fun fields => ?_
  exact step (eachKey (plusRow_reader length) loc fields) fun _ => ok

end IndexTable

theorem Parents.row_reader (family : Id.Family) (id : String) :
    Check.Reader fun loc raw => row family loc id raw := by
  intro loc raw
  refine step (Ref.ofText_reader family loc id) fun _ => ?_
  exact step (int_reader _ loc raw) fun _ => ok

theorem Parents.read_reader (family : Id.Family) : Check.Reader (read family) := by
  intro loc raw
  refine optional_fails (fun raw => ?_) raw
  exact step (object_reader loc raw) fun fields => eachKey (row_reader family) loc fields

namespace EntryTable

theorem gain_reader : Check.Reader gain := by
  intro loc raw
  refine step (list_reader _ loc raw) fun items => ?_
  split
  · refine step (int_reader _ _ _).ofIndex fun _ => step (int_reader _ _ _).ofIndex fun _ => ?_
    split
    · exact ok
    · exact field _
  · exact field _

theorem row_reader (lengths : Lengths) (id : String) :
    Check.Reader fun loc raw => row lengths loc id raw := by
  intro loc raw
  refine step (Ref.ofText_reader _ loc id) fun _ => ?_
  exact step (listOf_reader gain_reader lengths loc raw) fun _ => ok

theorem read_reader (lengths : Lengths) : Check.Reader (read lengths) := by
  intro loc raw
  exact step (object_reader loc raw) fun fields => eachKey (row_reader lengths) loc fields

end EntryTable

theorem JewelSlots.read_reader : Check.Reader read := by
  intro loc raw
  unfold read
  split
  · split
    · exact ok
    · exact field _
  · refine step (ints_reader _ _ loc _) fun counts => ?_
    split
    · exact ok
    · exact field _
  · exact field _

theorem JewelSlots.readAll_reader (lengths : Lengths) : Check.Reader (readAll lengths) :=
  listOf_reader read_reader lengths

theorem AccessoryPool.weight_reader (id : String) :
    Check.Reader fun loc raw => weight loc id raw := by
  intro loc raw
  refine step (Ref.ofText_reader _ loc id) fun _ => ?_
  exact step (float_reader _ loc raw) fun _ => ok

theorem AccessoryPool.weights_reader : Check.Reader weights := by
  intro loc raw
  exact step (object_reader loc raw) fun fields => eachKey weight_reader loc fields

end Tables

section Resources

variable (id : String)

theorem Character.build_fails (draft : CharacterDraft) :
    Check.Fails (Fault.BuiltIn id) (build id draft) := by
  refine stepField (text_reader _ _ _) fun _ => ?_
  refine stepField (intRange_reader _ _ _) fun _ => ?_
  refine stepField (Ref.distinct_reader _ _ _) fun _ => ?_
  refine stepField (Ref.distinct_reader _ _ _) fun _ => ?_
  refine stepField (Capsule.ofDraft_fails _ _) fun _ => ?_
  refine stepField (path_reader _ _ _) fun _ => ?_
  exact stepField (vector_reader _ _ _ _) fun _ => ok

theorem FixedAttributes.ofDraft_fails (draft : FixedAttributesDraft) (loc : Location) :
    Check.Fails (Fault.ReadAt loc) (ofDraft draft loc) := by
  refine step (float_reader _ _ _).ofField fun _ => ?_
  refine step (float_reader _ _ _).ofField fun _ => ?_
  refine step (float_reader _ _ _).ofField fun _ => ?_
  refine step (float_reader _ _ _).ofField fun _ => ?_
  refine step (float_reader _ _ _).ofField fun _ => ?_
  refine step (float_reader _ _ _).ofField fun _ => ?_
  exact step (float_reader _ _ _).ofField fun _ => ok

theorem Style.build_fails (draft : StyleDraft) :
    Check.Fails (Fault.BuiltIn id) (build id draft) := by
  refine stepField (Ref.distinct_reader _ _ _) fun _ => ?_
  refine stepField (Ref.distinct_reader _ _ _) fun _ => ?_
  refine stepField (text_reader _ _ _) fun _ => ?_
  refine stepField (Ref.ofText_reader _ _ _) fun _ => ?_
  refine stepField (AttributeTable.read_reader _ _ _ _) fun _ => ?_
  refine stepField (JewelSlots.readAll_reader _ _ _) fun _ => ?_
  refine stepField (FixedAttributes.ofDraft_fails _ _) fun _ => ?_
  refine stepField (Ref.distinct_reader _ _ _) fun _ => ?_
  exact stepField (path_reader _ _ _) fun _ => ok

theorem Equipment.build_fails (draft : EquipmentDraft) :
    Check.Fails (Fault.BuiltIn id) (build id draft) := by
  refine stepField (text_reader _ _ _) fun _ => ?_
  refine stepField (Ref.ofText_reader _ _ _) fun _ => ?_
  refine stepField (Named.read_reader _ _) fun _ => ?_
  refine stepField (intRange_reader _ _ _) fun _ => ?_
  refine stepField (Parents.read_reader _ _ _) fun _ => ?_
  refine stepField (AttributeTable.read_reader _ _ _ _) fun _ => ?_
  refine stepField (optional_fails (JewelSlots.readAll_reader _ _) _) fun _ => ?_
  exact stepField (optional_fails (EntryTable.read_reader _ _) _) fun _ => ok

theorem Entry.build_fails (draft : EntryDraft) :
    Check.Fails (Fault.BuiltIn id) (build id draft) := by
  refine stepField (text_reader _ _ _) fun _ => ?_
  refine stepField (int_reader _ _ _) fun _ => ?_
  refine stepField (orElse_fails _ (AttributeTable.readPlus_reader _ _ _) _) fun _ => ?_
  exact stepField (orElse_fails _ (IndexTable.readPlus_reader _ _) _) fun _ => ok

theorem Perk.readUsableStyles_reader (style : Ref .style) :
    Check.Reader (readUsableStyles style) := by
  intro loc texts
  unfold readUsableStyles
  split
  · exact ok
  · split
    · exact Ref.distinct_reader _ loc _
    · exact step (Ref.list_reader _ _ _ _ loc _) fun _ => ok

theorem Perk.build_fails (draft : PerkDraft) :
    Check.Fails (Fault.BuiltIn id) (build id draft) := by
  refine stepField (text_reader _ _ _) fun _ => ?_
  refine stepField (Ref.ofText_reader _ _ _) fun _ => ?_
  refine stepField (Ref.ofText_reader _ _ _) fun style => ?_
  refine stepField (readUsableStyles_reader style _ _) fun _ => ?_
  refine stepField (Parents.read_reader _ _ _) fun _ => ?_
  refine stepField (int_reader _ _ _) fun _ => ?_
  refine stepField (optional_fails (AttributeTable.read_reader _ _ _) _) fun _ => ?_
  refine stepField (optional_fails (JewelSlots.readAll_reader _ _) _) fun _ => ?_
  refine stepField (optional_fails (EntryTable.read_reader _ _) _) fun _ => ?_
  exact stepField (orElse_fails _ (IndexTable.read_reader _ _) _) fun _ => ok

theorem Jewel.readSub_fails (entry : Option String) (piece : Value) :
    Check.Fails (Fault.BuiltIn id) (readSub id entry piece) := by
  unfold readSub
  dsimp only
  split
  · exact ok
  · refine stepField (Ref.ofText_reader _ _ _) fun _ => ?_
    exact stepField (int_reader _ _ _) fun _ => ok
  · exact (field _).inResource

theorem Jewel.build_fails (draft : JewelDraft) :
    Check.Fails (Fault.BuiltIn id) (build id draft) := by
  refine stepField (Named.read_reader _ _) fun _ => ?_
  refine stepField (Named.read_reader _ _) fun _ => ?_
  refine stepField (Ref.ofText_reader _ _ _) fun _ => ?_
  refine stepField (int_reader _ _ _) fun _ => ?_
  refine step (readSub_fails id _ _) fun _ => ?_
  exact stepField (Named.read_reader _ _) fun _ => ok

/-- A pattern that does not fit the highest level is reported at the level. -/
theorem PoolStep.readPattern_fails (maxLevel : Int) (text : String) :
    Check.Fails (Fault.BuiltIn id) (readPattern id maxLevel text) := by
  unfold readPattern
  dsimp only
  split
  · exact (field _).inResource
  · split
    · split
      · exact ok
      · exact (field _).inResource
    · exact (field _).inResource

theorem AccessoryPool.build_fails (draft : AccessoryPoolDraft) :
    Check.Fails (Fault.BuiltIn id) (build id draft) := by
  refine stepField (Named.read_reader _ _) fun _ => ?_
  refine stepField (int_reader _ _ _) fun maxLevel => ?_
  refine step (PoolStep.readPattern_fails id maxLevel _) fun _ => ?_
  refine stepField (weights_reader _ _) fun _ => ?_
  exact stepField (weights_reader _ _) fun _ => ok

theorem Accessory.build_fails (draft : AccessoryDraft) :
    Check.Fails (Fault.BuiltIn id) (build id draft) := by
  refine stepField (Ref.ofText_reader _ _ _) fun _ => ?_
  refine stepField (Named.read_reader _ _) fun _ => ?_
  refine stepField (Ref.ofText_reader _ _ _) fun _ => ?_
  refine stepField (int_reader _ _ _) fun _ => ?_
  exact stepField (Named.read_reader _ _) fun _ => ok

theorem Zone.build_fails (draft : ZoneDraft) :
    Check.Fails (Fault.BuiltIn id) (build id draft) := by
  refine stepField (text_reader _ _ _) fun _ => ?_
  refine stepField (path_reader _ _ _) fun _ => ?_
  exact stepField (path_reader _ _ _) fun _ => ok

end Resources

section Actions

theorem Level.read_reader : Check.Reader read := int_reader _

theorem Level.readOr_reader (default : Int) : Check.Reader (readOr default) :=
  fun loc => orElse_fails default (read_reader loc)

theorem Level.readSetting_reader : Check.Reader readSetting := Setting.int_reader {} _

theorem ActionBase.read_fails (id : String) (enabled : Value) (character : String)
    (styles : List String) :
    Check.Fails (Fault.BuiltIn id) (read id enabled character styles) := by
  refine stepField (orElse_fails _ (Setting.bool_reader _ _) _) fun _ => ?_
  refine stepField (Ref.ofText_reader _ _ _) fun _ => ?_
  exact stepField (Ref.distinct_reader _ _ _) fun _ => ok

theorem DeriveContinue.readSetting_reader : Check.Reader readSetting :=
  have hset : Check.Reader (readSet {}) := listOf_reader Named.readValue_reader {}
  Setting.read_reader {} hset (listOf_reader hset)

theorem Animation.readFlag_reader (expected : Option Bool) : Check.Reader (readFlag expected) := by
  intro loc raw
  refine step (boolOr_reader false loc raw) fun flag => ?_
  split
  · split
    · exact ok
    · exact field _
  · exact ok

/-- A time that may be left out. -/
theorem timeOr_fails {loc : Location} (default : Float) (limits : TimeLimits) (raw : Value) :
    Check.Fails (Fault.ReadAt loc) (orElse default (time limits loc) raw).result := by
  rw [result_orElse]
  exact orElse_fails default (time_reader limits loc) raw

theorem Animation.read_reader (limits : AnimationLimits) : Checked.Reader (read limits) := by
  intro loc draft
  refine checkStep (path_reader _ _ _).ofField fun _ => ?_
  refine resultStep (time_reader _ _ _).ofField fun _ => ?_
  refine resultStep (timeOr_fails _ _ _).ofField fun _ => ?_
  refine checkStep (readFlag_reader _ _ _).ofField fun _ => ?_
  exact checkStep (readFlag_reader _ _ _).ofField fun _ => ok

section Keys

theorem VirtualKey.checkGroup_reader (accepted : List KeyGroup) :
    Check.Reader (checkGroup accepted) := by
  intro loc key
  unfold checkGroup
  split
  · exact ok
  · split
    · exact ok
    · exact field _

theorem VirtualKey.readValue_reader : Check.Reader readValue := by
  intro loc raw
  exact step (Named.readValue_reader loc raw) fun key => checkGroup_reader [] loc key

theorem Direction.ofText_reader : Check.Reader ofText := by
  intro loc text
  unfold ofText
  split
  · split
    · exact step (float_reader _ loc _) fun _ => ok
    · exact field _
  · exact field _

theorem Direction.read_reader : Check.Reader read := by
  intro loc raw
  unfold read
  split
  · exact ofText_reader loc _
  · refine step (list_reader _ loc _) fun items => ?_
    split
    · refine step (Named.readValue_reader loc _) fun _ => ?_
      exact step (float_reader _ _ _).ofIndex fun _ => ok
    · exact field _

theorem KeyInput.read_reader : Check.Reader read := by
  intro loc raw
  unfold read
  split
  · refine step (list_reader _ loc _) fun items => ?_
    split
    · refine step (VirtualKey.readValue_reader _ _).ofIndex fun _ => ?_
      exact step (Direction.read_reader _ _).ofIndex fun _ => ok
    · exact field _
  · exact step (VirtualKey.readValue_reader loc _) fun _ => ok

theorem DeriveRule.read_reader : Check.Reader read := by
  intro loc draft
  refine step (KeyInput.read_reader _ _).ofField fun _ => ?_
  refine step (Level.read_reader _ _).ofField fun _ => ?_
  exact step (Setting.ref_reader _ _ _ _).ofField fun _ => ok

end Keys

section Timelines

theorem PhaseAttributes.readFloat_reader (name : String) :
    Check.Reader fun loc raw => readFloat loc raw name := by
  intro loc raw
  dsimp only [readFloat]
  split
  · exact (Setting.float_reader _ _ _ _).ofField
  · exact ok

theorem PhaseAttributes.readPoise_reader : Check.Reader readPoise := by
  intro loc raw
  unfold readPoise
  split
  · exact (Setting.int_reader _ _ _ _).ofField
  · exact ok

theorem PhaseAttributes.read_reader : Check.Reader read := by
  intro loc raw
  refine step (object_reader loc raw) fun _ => ?_
  refine step (readFloat_reader _ loc raw) fun _ => step (readFloat_reader _ loc raw) fun _ => ?_
  exact step (readPoise_reader loc raw) fun _ => ok

theorem InputMovement.flag_reader (name : String) :
    Check.Reader fun loc raw => flag loc raw name := by
  intro loc raw
  dsimp only [flag]
  split
  · exact (bool_reader _ _).ofField
  · exact ok

theorem InputMovement.read_reader : Checked.Reader read := by
  intro loc raw
  dsimp only [read]
  split
  · refine checkStep (flag_reader _ loc raw) fun _ => ?_
    exact checkStep (flag_reader _ loc raw) fun _ => ok
  · split
    · refine resultStep (time_reader _ _ _).ofField fun _ => ?_
      exact checkStep (angle_reader _ _ _).ofField fun _ => ok
    · exact field _

namespace Timeline

theorem Fragment.partition_reader (limits : FragmentLimits Float) :
    Check.Reader (partition limits) := by
  intro loc ranges
  unfold partition
  dsimp only
  split
  · exact timeline _
  · split
    · exact (timeline _).ofIndex
    · split
      · exact timeline _
      · split
        · exact timeline _
        · split
          · exact ok
          · exact timeline _

theorem Fragment.readAll_reader (limits : FragmentLimits Float) :
    Checked.Reader (readAll limits) := by
  intro loc raws
  dsimp only [readAll]
  split
  · exact timeline _
  · refine resultStep (resultEach (timeRange_reader _) loc raws) fun ranges => ?_
    exact partition_reader limits loc ranges

section Values

variable {V : Type} {item : Location → Value → Checked V} (h : Checked.Reader item)

include h

theorem Ranges.read_reader (limits : FragmentLimits Float) :
    Checked.Reader (read limits item) := by
  intro loc raw
  dsimp only [read]
  split
  · refine resultStep (Fragment.readAll_reader limits loc _) fun _ => ?_
    exact resultStep (resultEach h loc _) fun _ => ok
  · refine resultStep (Fragment.readAll_reader limits loc _) fun _ => ?_
    exact resultStep (resultEachKey (fun _ => h) loc _) fun _ => ok
  · exact timeline _

theorem Points.readItem_reader (limits : TimeLimits) : Checked.Reader (readItem limits item) := by
  intro loc raw
  refine resultStep (time_reader _ _ _).ofField fun _ => ?_
  exact resultStep (h loc raw) fun _ => ok

theorem Points.readEntry_reader (limits : TimeLimits) (name : String) :
    Checked.Reader fun loc raw => readEntry limits item loc name raw := by
  intro loc raw
  refine resultStep (time_reader limits loc _) fun _ => ?_
  exact resultStep (h loc raw) fun _ => ok

theorem Points.read_reader (duration : Float) : Checked.Reader (read duration item) := by
  intro loc raw
  dsimp only [read]
  split
  · exact resultStep (resultEach (readItem_reader h _) loc _) fun _ => ok
  · exact resultStep (resultEachKey (readEntry_reader h _) loc _) fun _ => ok
  · exact timeline _

end Values

end Timeline

end Timelines

namespace ActionIdle

theorem readClip_reader : Checked.Reader readClip := by
  intro loc draft
  dsimp only [readClip]
  split
  · exact ok
  · exact resultStep (Animation.read_reader _ loc _) fun _ => ok

theorem readClips_reader : Checked.Reader readClips := by
  intro loc drafts
  dsimp only [readClips]
  split
  · exact ok
  · exact resultStep (resultEach (Animation.read_reader _) loc _) fun _ => ok

theorem build_fails (id : String) (draft : ActionIdleDraft) :
    Check.Fails (Fault.BuiltIn id) (build id draft).result := by
  refine checkStep (ActionBase.read_fails id _ _ _) fun _ => ?_
  refine resultStep (Animation.read_reader _ _ _).inResource fun _ => ?_
  refine resultStep (readClip_reader _ _).inResource fun _ => ?_
  refine resultStep (readClips_reader _ _).inResource fun _ => ?_
  refine resultStep (timeOr_fails _ _ _).inResource fun _ => ?_
  exact checkStep (boolOr_reader _ _ _).inResource fun _ => ok

end ActionIdle

namespace ActionGeneral

theorem readEvent_reader : Check.Reader readEvent :=
  Setting.read_reader {} (textOfValue_reader {}) (listOf_reader (textOfValue_reader {}))

theorem readRules_reader : Check.Reader readRules := by
  intro loc drafts
  unfold readRules
  split
  · exact ok
  · exact step (each DeriveRule.read_reader loc _) fun _ => ok

theorem readCoolDown_fails (id : String) (draft : ActionGeneralDraft) :
    Check.Fails (Fault.BuiltIn id) (readCoolDown id draft) := by
  refine stepField (orElse_fails _ (Setting.float_reader _ _ _) _) fun _ => ?_
  refine stepField (orElse_fails _ (Setting.int_reader _ _ _) _) fun rounds => ?_
  exact stepField (orElse_fails rounds (Setting.int_reader _ _ _) _) fun _ => ok

theorem build_fails (id : String) (draft : ActionGeneralDraft) :
    Check.Fails (Fault.BuiltIn id) (build id draft).result := by
  refine checkStep (ActionBase.read_fails id _ _ _) fun _ => ?_
  refine resultStep (Animation.read_reader _ _ _).inResource fun clip => ?_
  refine checkStep (optional_fails (KeyInput.read_reader _) _).inResource fun _ => ?_
  refine checkStep (Level.readOr_reader _ _ _).inResource fun _ => ?_
  refine checkStep (readCoolDown_fails id draft) fun _ => ?_
  refine resultStep ?_ fun _ => ?_
  · rw [result_optional]
    exact (optional_fails (Timeline.Points.read_reader InputMovement.read_reader _ _) _).inResource
  refine resultStep (Timeline.Ranges.read_reader PhaseAttributes.read_reader _ _ _).inResource
    fun _ => ?_
  refine resultStep (Timeline.Ranges.read_reader Level.readSetting_reader _ _ _).inResource
    fun _ => ?_
  refine checkStep (readRules_reader _ _).inResource fun _ => ?_
  refine checkStep (optional_fails (DeriveContinue.readSetting_reader _) _).inResource fun _ => ?_
  refine resultStep ?_ fun _ => ok
  rw [result_optional]
  exact (optional_fails (Timeline.Points.read_reader readEvent_reader _ _) _).inResource

end ActionGeneral

namespace ActionMove

theorem readStart_reader : Checked.Reader readStart := by
  intro loc draft
  refine resultStep (Animation.read_reader _ loc _) fun _ => ?_
  refine checkStep (angleRange_reader _ _ _).ofField fun _ => ?_
  refine resultStep (timeOr_fails _ _ _).ofField fun _ => ?_
  exact resultStep (timeOr_fails _ _ _).ofField fun _ => ok

theorem readTurn_reader : Checked.Reader readTurn := by
  intro loc draft
  refine resultStep (Animation.read_reader _ loc _) fun _ => ?_
  refine checkStep (angleRange_reader _ _ _).ofField fun _ => ?_
  exact resultStep (timeOr_fails _ _ _).ofField fun _ => ok

theorem readPhaseRow_reader (duration : Float) : Checked.Reader (readPhaseRow duration) := by
  intro loc raw
  refine checkStep (list_reader _ loc raw) fun items => ?_
  split
  · refine checkStep (float_reader _ _ _).ofIndex fun _ => ?_
    refine checkStep (float_reader _ _ _).ofIndex fun _ => ?_
    exact resultStep (time_reader _ _ _).ofIndex fun _ => ok
  · exact field _

theorem readPhaseTable_reader (duration : Float) : Checked.Reader (readPhaseTable duration) := by
  intro loc raw
  refine checkStep (list_reader _ loc raw) fun rows => ?_
  exact resultEach (readPhaseRow_reader duration) loc rows

theorem readStop_reader : Checked.Reader readStop := by
  intro loc draft
  refine resultStep (Animation.read_reader _ loc _) fun _ => ?_
  refine resultStep (readPhaseTable_reader _ _ _).ofField fun _ => ?_
  exact resultStep (time_reader _ _ _).ofField fun _ => ok

theorem build_fails (id : String) (draft : ActionMoveDraft) :
    Check.Fails (Fault.BuiltIn id) (build id draft).result := by
  refine checkStep (ActionBase.read_fails id _ _ _) fun _ => ?_
  refine checkStep (Named.read_reader _ _).inResource fun _ => ?_
  refine resultStep (Animation.read_reader _ _ _).inResource fun _ => ?_
  refine resultStep (resultEach readStart_reader _ _).inResource fun _ => ?_
  refine resultStep (resultEach readTurn_reader _ _).inResource fun _ => ?_
  refine resultStep (resultEach readStop_reader _ _).inResource fun _ => ?_
  refine checkStep (boolOr_reader _ _ _).inResource fun _ => ?_
  refine checkStep (Level.readOr_reader _ _ _).inResource fun _ => ?_
  refine checkStep (Level.readOr_reader _ _ _).inResource fun _ => ?_
  refine checkStep (Level.readOr_reader _ _ _).inResource fun _ => ?_
  refine checkStep (float_reader _ _ _).inResource fun _ => ?_
  refine resultStep (timeOr_fails _ _ _).inResource fun _ => ?_
  refine resultStep (timeOr_fails _ _ _).inResource fun _ => ?_
  refine resultStep (timeOr_fails _ _ _).inResource fun _ => ?_
  refine resultStep (timeOr_fails _ _ _).inResource fun _ => ?_
  refine checkStep (Ref.distinct_reader _ _ _).inResource fun _ => ?_
  exact resultStep (timeOr_fails _ _ _).inResource fun _ => ok

end ActionMove

end Actions

/-- A draft that is refused is refused for one of its fields. -/
theorem Draft.build_fails (id : String) (draft : Draft) :
    Check.Fails (Fault.BuiltIn id) (draft.build id).result := by
  cases draft with
  | character draft => exact checkStep (Character.build_fails id draft) fun _ => ok
  | style draft => exact checkStep (Style.build_fails id draft) fun _ => ok
  | equipment draft => exact checkStep (Equipment.build_fails id draft) fun _ => ok
  | entry draft => exact checkStep (Entry.build_fails id draft) fun _ => ok
  | perk draft => exact checkStep (Perk.build_fails id draft) fun _ => ok
  | jewel draft => exact checkStep (Jewel.build_fails id draft) fun _ => ok
  | accessoryPool draft => exact checkStep (AccessoryPool.build_fails id draft) fun _ => ok
  | accessory draft => exact checkStep (Accessory.build_fails id draft) fun _ => ok
  | zone draft => exact checkStep (Zone.build_fails id draft) fun _ => ok
  | actionIdle draft => exact resultStep (ActionIdle.build_fails id draft) fun _ => ok
  | actionGeneral draft => exact resultStep (ActionGeneral.build_fails id draft) fun _ => ok
  | actionMove draft => exact resultStep (ActionMove.build_fails id draft) fun _ => ok

end GameRoster
