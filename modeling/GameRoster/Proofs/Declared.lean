import GameRoster.Proofs.Timelines

namespace GameRoster.Timeline

/-- An item of a timeline: what it states as its time and what its value is read from, each with
the location where it is read. -/
structure Declared where
  timeLoc : Location
  time : Value
  loc : Location
  content : Value

/-- The items of a timeline in the order they are declared. In a list the whole item is read for its
value; under a key, only what stands there. Times are numbered in either form. -/
def declared (loc : Location) : Value → List Declared
  | .array items => items.zipIdx.map fun (item, i) =>
      ⟨loc.index i, itemTime item, loc.index i, item⟩
  | .object fields => fields.zipIdx.map fun ((name, item), i) =>
      ⟨loc.index i, .string name, loc.key name, item⟩
  | _ => []

namespace Ranges

variable {V : Type}

/-- Items as they are read: for a range and for a value each, in order. -/
structure Reads (limits : FragmentLimits Float) (item : Location → Value → Checked V)
    (items : List Declared) (ranges : List (Float × Float)) (values : List V) : Prop where
  times : List.Forall₂ (fun declared range =>
    (Field.timeRange (Fragment.rangeLimits limits) declared.timeLoc declared.time).result =
      .ok range) items ranges
  values : List.Forall₂ (fun declared v => (item declared.loc declared.content).result = .ok v)
    items values

variable {limits : FragmentLimits Float} {item : Location → Value → Checked V}

theorem Reads.length_eq {items : List Declared} {ranges : List (Float × Float)} {values : List V}
    (h : Reads limits item items ranges values) : ranges.length = values.length :=
  h.times.length_eq.symm.trans h.values.length_eq

/-- Fragments are numbered as the items are, so each of them finds the value of its item. -/
theorem read_answers (hl : limits.Numbers) {loc : Location} {raw : Value} {timeline : Ranges V}
    (h : (read limits item loc raw).result = .ok timeline) :
    ∃ ranges stop, Reads limits item (declared loc raw) ranges timeline.values ∧
      Fragment.Answers limits ranges timeline.fragments stop := by
  cases raw with
  | array items =>
    simp only [read, Checked.result_bind, Location.result_each, Check.bind_ok,
      Checked.result_pure, Except.ok.injEq] at h
    obtain ⟨fragments, hfragments, values, hvalues, rfl⟩ := h
    obtain ⟨ranges, stop, hranges, hanswers⟩ := Fragment.readAll_answers hl hfragments
    rw [Location.each_iff, List.zipIdx_map, List.forall₂_map_left_iff] at hranges
    rw [Location.each_iff] at hvalues
    refine ⟨ranges, stop, ⟨?_, ?_⟩, hanswers⟩
    · exact List.forall₂_map_left_iff.mpr hranges
    · exact List.forall₂_map_left_iff.mpr hvalues
  | object fields =>
    simp only [read, Checked.result_bind, Location.result_eachKey, Check.bind_ok,
      Checked.result_pure, Except.ok.injEq] at h
    obtain ⟨fragments, hfragments, values, hvalues, rfl⟩ := h
    obtain ⟨ranges, stop, hranges, hanswers⟩ := Fragment.readAll_answers hl hfragments
    rw [Location.each_iff, List.zipIdx_map, List.forall₂_map_left_iff] at hranges
    rw [Location.eachKey_iff, ← List.zipIdx_map_fst 0 fields, List.forall₂_map_left_iff] at hvalues
    refine ⟨ranges, stop, ⟨?_, ?_⟩, hanswers⟩
    · exact List.forall₂_map_left_iff.mpr hranges
    · exact List.forall₂_map_left_iff.mpr hvalues
  | null => cases h
  | bool b => cases h
  | number n => cases h
  | string s => cases h

theorem read_holds (hl : limits.Numbers) (item : Location → Value → Checked V) (loc : Location)
    (raw : Value) :
    Check.Yields (fun timeline => ∃ stop, 0 < stop ∧ Fragment.endsWell limits stop = true ∧
      timeline.HoldsUntil stop) (read limits item loc raw).result := by
  intro timeline h
  obtain ⟨ranges, stop, hreads, hanswers⟩ := read_answers hl h
  have hindex := hanswers.index
  rw [hreads.length_eq] at hindex
  exact ⟨stop, hanswers.pos, hanswers.permitted, holdsUntil hanswers.found hindex⟩

/-- A timeline shows what its items say, over the ranges that they state. -/
structure Follows (limits : FragmentLimits Float) (item : Location → Value → Checked V)
    (items : List Declared) (timeline : Ranges V) (ranges : List (Float × Float))
    (stop : Float) : Prop where
  reads : Reads limits item items ranges timeline.values
  positions : ∀ fragment ∈ timeline.fragments, fragment.index < timeline.values.length
  endsAt : EndsAt ranges stop
  /-- From zero up to the end, the value is that of the last item that reaches the instant. -/
  inside : ∀ time, 0 ≤ time → time < stop → ∃ i v, LastReach ranges time i ∧
    timeline.values[i]? = some v ∧ timeline.valueAt? time = some v
  outside : ∀ time, ¬ (0 ≤ time ∧ time < stop) → timeline.valueAt? time = none

/-- A timeline that is read has one value per declared item, in order, and shows at each instant
what the last item that reaches it says. -/
theorem read_follows (hl : limits.Numbers) {loc : Location} {raw : Value} {timeline : Ranges V}
    (h : (read limits item loc raw).result = .ok timeline) :
    ∃ ranges stop, Follows limits item (declared loc raw) timeline ranges stop := by
  obtain ⟨ranges, stop, hreads, hanswers⟩ := read_answers hl h
  have hpositions := hanswers.index
  rw [hreads.length_eq] at hpositions
  refine ⟨ranges, stop, ?_⟩
  constructor
  case reads => exact hreads
  case positions => exact hpositions
  case endsAt => exact hanswers.endsAt
  case inside =>
    intro time hzero hstop
    have hsome := (hanswers.found time).mpr ⟨hzero, hstop⟩
    obtain ⟨fragment, hf⟩ := Option.isSome_iff_exists.mp hsome
    have hlt := hpositions fragment (List.mem_of_find?_eq_some hf)
    have hvalue := List.getElem?_eq_getElem hlt
    refine ⟨fragment.index, _, hanswers.last time fragment hf, hvalue, ?_⟩
    rw [valueAt?, hf]
    exact hvalue
  case outside =>
    intro time hout
    rw [← hanswers.found time, Option.not_isSome_iff_eq_none] at hout
    rw [valueAt?, hout]
    rfl

/-- An integer under each key. -/
def readInt (loc : Location) (raw : Value) : Checked Int := .ofCheck (Field.int {} loc raw)

/-- Integers under ranges of which one is hidden, one is cut in two and one takes no time. -/
def veiled : Value := .object
  [("8s-10s", .int 1), ("0s-15s", .int 2), ("9s-9s", .int 3), ("14s-20s", .int 4), ("1-2s", .int 5)]

theorem veiled_follows : ∃ timeline, FragmentLimits.Numbers { duration := (20 : Float) } ∧
    (read { duration := 20 } readInt (.label "x") veiled).result = .ok timeline ∧
    ∃ ranges stop, Follows { duration := 20 } readInt (declared (.label "x") veiled) timeline
      ranges stop := by
  have hnumbers : FragmentLimits.Numbers { duration := (20 : Float) } := ⟨by decide, by simp⟩
  obtain ⟨timeline, hread⟩ := Check.exists_of_isOk
    (x := (read { duration := 20 } readInt (.label "x") veiled).result) (by decide +kernel)
  exact ⟨timeline, hnumbers, hread, read_follows hnumbers hread⟩

end Ranges

end GameRoster.Timeline
