import GameRoster.Proofs.Bindings
import GameRoster.Proofs.Locations
import GameRoster.Proofs.PointPositions

namespace GameRoster

/-- A setting is refused where it stands. -/
theorem Registry.checkSetting_located {α : Type} {reg : Registry} {readers : Readers}
    {loc : Location} {setting : Setting α} {fault : Fault}
    (h : reg.checkSetting readers loc setting = .error fault) : fault.location? = some loc := by
  cases setting with
  | fixed a => cases h
  | bound id values =>
    cases denies_iff.mp h with
    | undefined => rfl
    | count => rfl
    | character hdefined hlimited hwho hrejects => cases hrejects <;> rfl
    | style hdefined hlimited hcharacter hfirst =>
      obtain ⟨_, _, -, hrejects, -⟩ := hfirst
      cases hrejects <;> rfl
    | value hdefined hopen hcount hfirst =>
      obtain ⟨_, _, -, hfault, -⟩ := hfirst
      cases hfault

/-- A phase is refused in one of its attributes. -/
theorem PhaseAttributes.verify_located {phase : PhaseAttributes} {reg : Registry}
    {readers : Readers} {loc : Location} {fault : Fault}
    (h : phase.verify reg readers loc = .error fault) :
    ∃ place, fault.location? = some place ∧ loc.Holds place := by
  simp only [verify, Check.then_error] at h
  rcases h with h | ⟨-, h | ⟨-, h⟩⟩
  all_goals exact ⟨_, Registry.checkSetting_located h, .step _ _⟩

/-- Under keys, values are read one by one. -/
theorem Timeline.Ranges.read_object {V : Type} {limits : FragmentLimits Float}
    {item : Location → Value → Checked V} {loc : Location} {fields : List (String × Value)}
    {timeline : Ranges V} (h : (read limits item loc (.object fields)).result = .ok timeline) :
    List.Forall₂ (fun entry v => (item (loc.key entry.1) entry.2).result = .ok v) fields
      timeline.values := by
  simp only [read, Checked.result_bind, Location.result_eachKey, Check.bind_ok,
    Checked.result_pure, Except.ok.injEq] at h
  obtain ⟨fragments, -, values, hvalues, rfl⟩ := h
  exact Location.eachKey_iff.mp hvalues

namespace ActionGeneral

/-- The fields of an action whose entries depend on variables. -/
inductive EntryField
  | attributes
  | deriveLevels
  | customEvents
deriving Repr, DecidableEq

def EntryField.name : EntryField → String
  | .attributes => "attributes"
  | .deriveLevels => "derive_levels"
  | .customEvents => "custom_events"

/-- The entries of an action in the order their author wrote them. -/
structure Entries where
  phases : List PhaseAttributes
  levels : List (Setting Int)
  events : List (Float × Setting String)

/-- The number that an entry is reported under. -/
def Entries.reported (entries : Entries) : EntryField → Nat → Nat
  | .attributes, i => i
  | .deriveLevels, i => i
  | .customEvents, i => Timeline.Points.position entries.events i

/-- Entries as they are read from timelines in the form of objects. -/
structure Entries.Written (entries : Entries) (id : String) (duration : Float)
    (attributes levels events : List (String × Value)) : Prop where
  phases : List.Forall₂ (fun entry phase =>
    PhaseAttributes.read ((Location.ofResource id "attributes").key entry.1) entry.2 = .ok phase)
    attributes entries.phases
  levels : List.Forall₂ (fun entry level =>
    Level.readSetting ((Location.ofResource id "derive_levels").key entry.1) entry.2 = .ok level)
    levels entries.levels
  events : List.Forall₂ (fun entry event =>
    (Field.time (.between 0 duration) ((Location.ofResource id "custom_events").key entry.1)
      (.string entry.1)).result = .ok event.1 ∧
    readEvent ((Location.ofResource id "custom_events").key entry.1) entry.2 = .ok event.2)
    events entries.events

/-- An action holds entries: events in the order of their times, others as they were written. -/
structure Entries.Held (entries : Entries) (a : ActionGeneral) : Prop where
  phases : a.attributes.values = entries.phases
  levels : a.deriveLevels.values = entries.levels
  events : (a.customEvents.map Timeline.Points.pairs).getD [] =
    (Timeline.Points.ofPairs entries.events).pairs

/-- What is verified before the entries. -/
def checkBasics (a : ActionGeneral) (reg : Registry) : Check Unit := do
  let loc := Location.ofResource a.id
  a.base.verify a.id reg
  reg.checkSetting a.base.readers (loc "cool_down_time") a.coolDown.time
  reg.checkSetting a.base.readers (loc "cool_down_round") a.coolDown.rounds
  reg.checkSetting a.base.readers (loc "cool_down_init_round") a.coolDown.initRounds

/-- What is verified between levels and events. -/
def checkDerives (a : ActionGeneral) (reg : Registry) : Check Unit := do
  let loc := Location.ofResource a.id
  checkRules reg a.base.readers (loc "derives") a.derives
  checkContinues reg a.base.readers (loc "derive_continues") a.deriveContinues

/-- Verification fails because of the entry of a field that was written under a number: what is
verified before it passes, and its own bindings do not. -/
inductive Blames (a : ActionGeneral) (reg : Registry) (entries : Entries) : EntryField → Nat → Prop
  | attributes {i : Nat} {phase : PhaseAttributes} (basics : a.checkBasics reg = .ok ())
      (entry : entries.phases[i]? = some phase) (refused : ¬ phase.Verified reg a.base.readers)
      (earlier : ∀ j other, j < i → entries.phases[j]? = some other →
        other.Verified reg a.base.readers) : Blames a reg entries .attributes i
  | deriveLevels {i : Nat} {level : Setting Int} (basics : a.checkBasics reg = .ok ())
      (phases : ∀ phase ∈ entries.phases, phase.Verified reg a.base.readers)
      (entry : entries.levels[i]? = some level) (refused : ¬ reg.Allows a.base.readers level)
      (earlier : ∀ j other, j < i → entries.levels[j]? = some other →
        reg.Allows a.base.readers other) : Blames a reg entries .deriveLevels i
  | customEvents {i : Nat} {event : Float × Setting String} (basics : a.checkBasics reg = .ok ())
      (phases : ∀ phase ∈ entries.phases, phase.Verified reg a.base.readers)
      (levels : ∀ level ∈ entries.levels, reg.Allows a.base.readers level)
      (derives : a.checkDerives reg = .ok ()) (entry : entries.events[i]? = some event)
      (refused : ¬ reg.Allows a.base.readers event.2)
      (earlier : ∀ j other, entries.events[j]? = some other →
        Timeline.Points.precedes (other, j) (event, i) = true →
          reg.Allows a.base.readers other.2) : Blames a reg entries .customEvents i

theorem checkEvents_pairs {reg : Registry} {readers : Readers} {loc : Location}
    {events : Option (Timeline.Points (Setting String))} :
    checkEvents reg readers loc events =
      loc.checkEach (fun loc pair => reg.checkSetting readers loc pair.2)
        ((events.map Timeline.Points.pairs).getD []) := by
  cases events <;> rfl

variable {a : ActionGeneral} {reg : Registry} {entries : Entries} {fault : Fault}

section Held

variable (hheld : entries.Held a)

include hheld

/-- Verification goes through the entries in three steps, with other checks before and between. -/
theorem verify_eq : a.verify reg = (do
    a.checkBasics reg
    (Location.ofResource a.id "attributes").checkEach
      (fun loc phase => phase.verify reg a.base.readers loc) entries.phases
    (Location.ofResource a.id "derive_levels").checkEach (reg.checkSetting a.base.readers)
      entries.levels
    a.checkDerives reg
    (Location.ofResource a.id "custom_events").checkEach
      (fun loc pair => reg.checkSetting a.base.readers loc pair.2)
      (Timeline.Points.ofPairs entries.events).pairs) := by
  simp only [verify, checkBasics, checkDerives, bind_assoc, checkEvents_pairs, hheld.phases,
    hheld.levels, hheld.events]

/-- The faults of a verification that its entries are to blame for, or other checks. -/
theorem verify_error : a.verify reg = .error fault ↔
    a.checkBasics reg = .error fault ∨ a.checkBasics reg = .ok () ∧
    (FirstToFail (fun _ phase => phase.Verified reg a.base.readers)
      (fun i phase => phase.verify reg a.base.readers
        ((Location.ofResource a.id "attributes").index i) = .error fault) entries.phases ∨
    (∀ phase ∈ entries.phases, phase.Verified reg a.base.readers) ∧
    (FirstToFail (fun _ level => reg.Allows a.base.readers level)
      (fun i level => reg.checkSetting a.base.readers
        ((Location.ofResource a.id "derive_levels").index i) level = .error fault) entries.levels ∨
    (∀ level ∈ entries.levels, reg.Allows a.base.readers level) ∧
    (a.checkDerives reg = .error fault ∨ a.checkDerives reg = .ok () ∧
    ∃ i event, entries.events[i]? = some event ∧
      reg.checkSetting a.base.readers ((Location.ofResource a.id "custom_events").index
        (Timeline.Points.position entries.events i)) event.2 = .error fault ∧
      ∀ j other, entries.events[j]? = some other →
        Timeline.Points.precedes (other, j) (event, i) = true →
          reg.Allows a.base.readers other.2))) := by
  rw [verify_eq hheld]
  simp only [Check.then_error, Location.checkEach_error, PhaseAttributes.verify_ok,
    Registry.checkSetting_ok, Timeline.Points.firstToFail_ofPairs,
    Location.checkEach_ok (PhaseAttributes.verify_ok reg a.base.readers),
    Location.checkEach_ok (P := fun level : Setting Int => reg.Allows a.base.readers level)
      fun _ _ => Registry.checkSetting_ok]

variable {field : EntryField} {i : Nat}

/-- What is blamed is refused, in the field and under the number that it is reported under. -/
theorem Blames.fails (h : a.Blames reg entries field i) :
    ∃ fault place, a.verify reg = .error fault ∧ fault.location? = some place ∧
      ((Location.ofResource a.id field.name).index (entries.reported field i)).Holds place := by
  cases h with
  | attributes basics entry refused earlier =>
    obtain ⟨fault, hfault⟩ := Check.not_ok.mp (mt (PhaseAttributes.verify_ok ..).mp refused)
    obtain ⟨place, hplace, hholds⟩ := PhaseAttributes.verify_located hfault
    refine ⟨fault, place, (verify_error hheld).mpr ?_, hplace, hholds⟩
    exact .inr ⟨basics, .inl ⟨i, _, entry, hfault, earlier⟩⟩
  | deriveLevels basics phases entry refused earlier =>
    obtain ⟨fault, hfault⟩ := Check.not_ok.mp (mt Registry.checkSetting_ok.mp refused)
    refine ⟨fault, _, (verify_error hheld).mpr ?_, Registry.checkSetting_located hfault, .refl _⟩
    exact .inr ⟨basics, .inr ⟨phases, .inl ⟨i, _, entry, hfault, earlier⟩⟩⟩
  | customEvents basics phases levels derives entry refused earlier =>
    obtain ⟨fault, hfault⟩ := Check.not_ok.mp (mt Registry.checkSetting_ok.mp refused)
    refine ⟨fault, _, (verify_error hheld).mpr ?_, Registry.checkSetting_located hfault, .refl _⟩
    exact .inr ⟨basics, .inr ⟨phases, .inr ⟨levels, .inr ⟨derives, i, _, entry, hfault, earlier⟩⟩⟩⟩

/-- Where the other checks pass, some entry is to blame for a fault. -/
theorem blames_of_error (hbasics : a.checkBasics reg = .ok ())
    (hderives : a.checkDerives reg = .ok ()) (h : a.verify reg = .error fault) :
    ∃ field i, a.Blames reg entries field i := by
  rw [verify_error hheld, hbasics, hderives] at h
  rcases h with h | ⟨-, h | ⟨hphases, h | ⟨hlevels, h | ⟨-, h⟩⟩⟩⟩
  · cases h
  · obtain ⟨i, phase, hentry, hfault, hearlier⟩ := h
    have hrefused := mt (PhaseAttributes.verify_ok ..).mpr (Check.not_ok.mpr ⟨fault, hfault⟩)
    exact ⟨.attributes, i, .attributes hbasics hentry hrefused hearlier⟩
  · obtain ⟨i, level, hentry, hfault, hearlier⟩ := h
    have hrefused := mt Registry.checkSetting_ok.mpr (Check.not_ok.mpr ⟨fault, hfault⟩)
    exact ⟨.deriveLevels, i, .deriveLevels hbasics hphases hentry hrefused hearlier⟩
  · cases h
  · obtain ⟨i, event, hentry, hfault, hearlier⟩ := h
    have hrefused := mt Registry.checkSetting_ok.mpr (Check.not_ok.mpr ⟨fault, hfault⟩)
    exact ⟨.customEvents, i,
      .customEvents hbasics hphases hlevels hderives hentry hrefused hearlier⟩

end Held

section Build

variable {id : String} {draft : ActionGeneralDraft}
  {attributes levels events : List (String × Value)}

/-- Events are sorted when they are read. -/
theorem readEvents_object {duration : Float} {loc : Location} {raw : Value}
    (hraw : raw = .object events ∨ raw = .null ∧ events = []) :
    Check.Yields (fun timeline => ∃ points : List (Float × Setting String),
      List.Forall₂ (fun entry point =>
        (Field.time (.between 0 duration) (loc.key entry.1) (.string entry.1)).result =
          .ok point.1 ∧ readEvent (loc.key entry.1) entry.2 = .ok point.2) events points ∧
      (timeline.map Timeline.Points.pairs).getD [] = (Timeline.Points.ofPairs points).pairs)
      (Field.optional (fun raw => (Timeline.Points.read duration
        (fun loc raw => Checked.ofCheck (readEvent loc raw)) loc raw).result) raw) := by
  intro timeline h
  rcases hraw with rfl | ⟨rfl, rfl⟩
  · obtain ⟨found, hfound, hsome⟩ := Check.bind_ok.mp h
    obtain rfl := Check.pure_ok.mp hsome
    obtain ⟨points, hpoints, rfl⟩ := Timeline.Points.read_points hfound
    refine ⟨points, (List.forall₂_map_left_iff.mp hpoints).imp ?_, rfl⟩
    exact fun entry point hstates => ⟨hstates.time, hstates.value⟩
  · obtain rfl := Check.pure_ok.mp h
    exact ⟨[], .nil, List.mergeSort_nil.symm⟩

/-- An action that is built holds the entries that its author wrote. -/
theorem build_entries (hattributes : draft.attributes = .object attributes)
    (hlevels : draft.deriveLevels = .object levels)
    (hevents : draft.customEvents = .object events ∨ draft.customEvents = .null ∧ events = []) :
    Check.Yields (fun a => a.id = id ∧ ∃ entries : Entries, entries.Held a ∧
      entries.Written id a.animMain.duration attributes levels events) (build id draft).result := by
  unfold build
  simp only [Checked.result_bind, Field.result_optional]
  refine .step fun base => .step fun clip => .step fun enterKey => .step fun enterLevel => ?_
  refine .step fun coolDown => .step fun inputMovements => .bind fun phases hphases => ?_
  refine .bind fun settings hsettings => .step fun derives => .step fun continues => ?_
  refine .bind fun timeline htimeline => .pure ⟨rfl, ?_⟩
  rw [hattributes] at hphases
  rw [hlevels] at hsettings
  obtain ⟨points, hpoints, hheld⟩ := readEvents_object hevents timeline htimeline
  exact ⟨⟨phases.values, settings.values, points⟩, ⟨rfl, rfl, hheld⟩,
    ⟨Timeline.Ranges.read_object hphases, Timeline.Ranges.read_object hsettings, hpoints⟩⟩

/-- An action that is built from objects of entries fails to verify because of one of its entries
only with a fault that opens with the field of the entry and the number that it is reported under,
and where all other checks pass there is such an entry. That number is the one the entry was written
under, except for an event that was not written in the order of the times. -/
theorem entries_located {a : ActionGeneral} (h : (build id draft).result = .ok a)
    (hattributes : draft.attributes = .object attributes)
    (hlevels : draft.deriveLevels = .object levels)
    (hevents : draft.customEvents = .object events ∨ draft.customEvents = .null ∧ events = []) :
    ∃ entries : Entries, entries.Written id a.animMain.duration attributes levels events ∧
      (∀ reg field i, a.Blames reg entries field i →
        ∃ fault, a.verify reg = .error fault ∧ fault.OpensWith ("<" ++ id ++ ">." ++ field.name ++
          "[" ++ toString (entries.reported field i) ++ "]")) ∧
      (∀ reg fault, a.checkBasics reg = .ok () → a.checkDerives reg = .ok () →
        a.verify reg = .error fault → ∃ field i, a.Blames reg entries field i) ∧
      ∀ reg field i, a.Blames reg entries field i →
        (field = .customEvents → entries.events.Pairwise fun x y =>
          Numeric.orderKey x.1 ≤ Numeric.orderKey y.1) → entries.reported field i = i := by
  obtain ⟨rfl, entries, hheld, hwritten⟩ := build_entries hattributes hlevels hevents a h
  refine ⟨entries, hwritten, fun reg field i hblames => ?_, fun reg fault hbasics hderives hfault =>
    blames_of_error hheld hbasics hderives hfault, fun reg field i hblames hascending => ?_⟩
  · obtain ⟨fault, place, hfault, hplace, hholds⟩ := hblames.fails hheld
    obtain ⟨rest, hrest⟩ := hholds.render
    rw [Location.index_render, Location.ofResource_render] at hrest
    exact ⟨fault, hfault, place, rest, hplace, hrest⟩
  · cases hblames with
    | attributes => rfl
    | deriveLevels => rfl
    | customEvents basics phases levels derives entry =>
      exact Timeline.Points.position_of_ascending (hascending rfl) entry

end Build

def shotPhases : List (String × Value) := [("0-1s", .object [])]

def shotLevels : List (String × Value) := [("0-1s", .int 100)]

/-- The event that is written first comes last, and depends on a variable that nobody defines. -/
def shotEvents : List (String × Value) := [
  ("1s", .array [.string "#.Lost", .array [.string "near", .string "far"]]),
  ("0.5s", .string "Shake")]

def belated : ActionGeneralDraft where
  enabled := .null
  character := "Character.Ada"
  styles := ["Style.Ada.Bow"]
  animMain := .archer "shot" true
  enterKey := .null
  enterLevel := .null
  coolDownTime := .null
  coolDownRound := .null
  coolDownInitRound := .null
  inputMovements := .null
  attributes := .object shotPhases
  deriveLevels := .object shotLevels
  derives := none
  deriveContinues := .null
  customEvents := .object shotEvents

theorem belated_blames {a : ActionGeneral} {entries : Entries}
    (hbuilt : (build "Action.Ada.Shot" belated).result = .ok a)
    (hwritten : entries.Written "Action.Ada.Shot" a.animMain.duration shotPhases shotLevels
      shotEvents) :
    a.Blames Registry.veteran entries .customEvents 0 ∧ entries.reported .customEvents 0 = 1 := by
  obtain ⟨phases, levels, events⟩ := entries
  obtain ⟨hphases, hlevels, hevents⟩ := hwritten
  simp only [shotPhases, shotLevels, shotEvents, List.forall₂_cons_left_iff,
    List.forall₂_nil_left_iff] at hphases hlevels hevents
  obtain ⟨phase, _, hphase, rfl, rfl⟩ := hphases
  obtain ⟨level, _, hlevel, rfl, rfl⟩ := hlevels
  obtain ⟨last, _, ⟨hlast, hlost⟩, ⟨first, _, ⟨hfirst, hshake⟩, rfl, rfl⟩, rfl⟩ := hevents
  have hchecks := Check.any_ok (p := fun a => (a.checkBasics Registry.veteran).isOk &&
    (a.checkDerives Registry.veteran).isOk) (by decide +kernel) hbuilt
  obtain ⟨hbasics, hderives⟩ := Bool.and_eq_true_iff.mp hchecks
  have htimes := Check.any_ok (p := fun a =>
    (Field.time (.between 0 a.animMain.duration) ((Location.ofResource "Action.Ada.Shot"
      "custom_events").key "1s") (.string "1s")).result.toOption.any fun late =>
    (Field.time (.between 0 a.animMain.duration) ((Location.ofResource "Action.Ada.Shot"
      "custom_events").key "0.5s") (.string "0.5s")).result.toOption.any fun early =>
    decide (Numeric.orderKey early < Numeric.orderKey late)) (by decide +kernel) hbuilt
  have hlt : Numeric.orderKey first.1 < Numeric.orderKey last.1 :=
    of_decide_eq_true (Check.any_ok (Check.any_ok htimes hlast) hfirst)
  have hrefused : ¬ Registry.veteran.Allows a.base.readers last.2 := by
    intro hallows
    have hbinding := Check.any_ok (p := fun event => event.bindings.any fun binding =>
      (Registry.veteran.definition? binding.id.text).isNone) (by decide +kernel) hlost
    obtain ⟨binding, hmem, hnone⟩ := List.any_eq_true.mp hbinding
    obtain ⟨v, hv, -⟩ := hallows.covers binding hmem
    simp [hv] at hnone
  have hphase : phase.Verified Registry.veteran a.base.readers := by
    obtain rfl : PhaseAttributes.zero = phase := Except.ok.inj hphase
    exact ⟨trivial, trivial, trivial⟩
  have hlevel : Registry.veteran.Allows a.base.readers level :=
    Registry.allows_fixed (Check.any_ok (p := Setting.isFixed) (by decide +kernel) hlevel)
  have hshake : Registry.veteran.Allows a.base.readers first.2 :=
    Registry.allows_fixed (Check.any_ok (p := Setting.isFixed) (by decide +kernel) hshake)
  constructor
  · refine .customEvents (Check.ok_of_isOk hbasics) (by simpa using hphase) (by simpa using hlevel)
      (Check.ok_of_isOk hderives) rfl hrefused fun j other hother hprecedes => ?_
    rcases j with _ | _ | j
    · obtain rfl := Option.some.inj hother
      rw [irrefl_of_asymm Timeline.Points.precedes_asymm] at hprecedes
      cases hprecedes
    · obtain rfl := Option.some.inj hother
      exact hshake
    · cases hother
  · simp [Entries.reported, Timeline.Points.position, Timeline.Points.precedes, hlt]

theorem belated_located : ∃ a entries fault,
    (build "Action.Ada.Shot" belated).result = .ok a ∧
    entries.Written "Action.Ada.Shot" a.animMain.duration shotPhases shotLevels shotEvents ∧
    a.Blames Registry.veteran entries .customEvents 0 ∧
    a.verify Registry.veteran = .error fault ∧
    fault.OpensWith "<Action.Ada.Shot>.custom_events[1]" := by
  obtain ⟨a, hbuilt⟩ := Check.exists_of_isOk (x := (build "Action.Ada.Shot" belated).result)
    (by decide +kernel)
  obtain ⟨entries, hwritten, hlocated, -⟩ := entries_located hbuilt rfl rfl (.inl rfl)
  obtain ⟨hblames, hreported⟩ := belated_blames hbuilt hwritten
  obtain ⟨fault, hfault, hopens⟩ := hlocated _ _ _ hblames
  rw [hreported] at hopens
  exact ⟨a, entries, fault, hbuilt, hwritten, hblames, hfault, hopens⟩

/-- A fault in an event does not point at the number that the event was written under. -/
theorem event_misplaced : ¬ ∀ id draft a attributes levels events reg field i,
    ∀ entries : Entries, (build id draft).result = .ok a → draft.attributes = .object attributes →
    draft.deriveLevels = .object levels → draft.customEvents = .object events →
    entries.Written id a.animMain.duration attributes levels events →
    a.Blames reg entries field i → ∃ fault, a.verify reg = .error fault ∧
      fault.OpensWith ("<" ++ id ++ ">." ++ field.name ++ "[" ++ toString i ++ "]") := by
  intro h
  obtain ⟨a, hbuilt⟩ := Check.exists_of_isOk (x := (build "Action.Ada.Shot" belated).result)
    (by decide +kernel)
  obtain ⟨hid, entries, hheld, hwritten⟩ :=
    @build_entries "Action.Ada.Shot" belated _ _ _ rfl rfl (.inl rfl) a hbuilt
  obtain ⟨hblames, hreported⟩ := belated_blames hbuilt hwritten
  obtain ⟨fault, hfault, place, rest, hplace, hrest⟩ :=
    h _ _ _ _ _ _ _ _ _ _ hbuilt rfl rfl rfl hwritten hblames
  obtain ⟨other, _, hother, hplace', hholds⟩ := hblames.fails hheld
  obtain rfl : fault = other := Except.error.inj (hfault.symm.trans hother)
  obtain rfl := Option.some.inj (hplace.symm.trans hplace')
  obtain ⟨rest', hrest'⟩ := hholds.render
  rw [hrest, hreported, Location.index_render, Location.ofResource_render, hid] at hrest'
  have hchars := congrArg String.toList hrest'
  simp only [String.toList_append, List.append_assoc, List.append_cancel_left_eq] at hchars
  have hzero : (toString 0).toList = ['0'] := by decide
  have hone : (toString 1).toList = ['1'] := by decide
  rw [hzero, hone] at hchars
  exact absurd (List.cons.inj hchars).1 (by decide)

end ActionGeneral

end GameRoster
