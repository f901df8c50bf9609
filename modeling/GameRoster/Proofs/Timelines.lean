import GameRoster.Proofs.Reach
import GameRoster.Proofs.TimeChecks
import GameRoster.Timeline.Points

namespace GameRoster.Timeline

namespace Fragment

section Order

variable {α : Type} [LinearOrder α] {ranges : List (α × α)} {fragments : List (Fragment α)}

/-- What a partition leaves behind is a painting of its ranges. -/
theorem partition_painted [OfNat α 0] {limits : FragmentLimits α} {loc : Location}
    (h : partition limits loc ranges = .ok fragments) :
    ∃ stop, EndsAt ranges stop ∧ 0 < stop ∧ endsWell limits stop = true ∧
      Layer.Painted ranges 0 stop (fragments.map toLayer) := by
  obtain ⟨stop, hmax, hr, hend, hp⟩ := partition_ok h
  have hpos := stop_pos hr hp
  exact ⟨stop, ⟨hmax, fun range hm => (hr range hm).2.2⟩, hpos, hend,
    hp ▸ (Layer.Painted.blank hpos).paintRanges hr⟩

/-- Fragments from `b` to `e` without a gap hold the instants between these two. -/
theorem at_isSome {b e : α} (h : Layer.Tiles b (fragments.map toLayer) e) (time : α) :
    (at? fragments time).isSome ↔ b ≤ time ∧ time < e := by
  rw [at?, List.find?_isSome]
  constructor
  · rintro ⟨fragment, hm, hc⟩
    obtain ⟨hb, _, he⟩ := tiles_mem h hm
    obtain ⟨h₁, h₂⟩ := contains_iff.mp hc
    exact ⟨le_trans hb h₁, lt_of_lt_of_le h₂ he⟩
  · rintro ⟨hb, he⟩
    obtain ⟨fragment, hf⟩ := filter_inside h hb he
    obtain ⟨hm, hc⟩ := List.mem_filter.mp (hf ▸ List.mem_singleton_self fragment :
      fragment ∈ fragments.filter (·.contains time))
    exact ⟨fragment, hm, hc⟩

/-- What is found at an instant is the fragment of the last range that reaches it. -/
theorem at_lastReach {b e : α} (h : Layer.Painted ranges b e (fragments.map toLayer)) {time : α}
    {fragment : Fragment α} (hf : at? fragments time = some fragment) :
    LastReach ranges time fragment.index := by
  have hm := List.mem_of_find?_eq_some hf
  have hc : fragment.contains time = true := by simpa using List.find?_some hf
  obtain ⟨h₁, h₂⟩ := contains_iff.mp hc
  exact h.owned _ (List.mem_map_of_mem hm) time h₁ h₂

/-- Every fragment is that of one of the ranges. -/
theorem index_lt {b e : α} (h : Layer.Painted ranges b e (fragments.map toLayer))
    {fragment : Fragment α} (hm : fragment ∈ fragments) : fragment.index < ranges.length := by
  obtain ⟨_, hw, _⟩ := tiles_mem h.tiles hm
  have howned := h.owned _ (List.mem_map_of_mem hm) fragment.start le_rfl hw
  obtain ⟨⟨range, hr, _⟩, _⟩ := howned
  exact (List.getElem?_eq_some_iff.mp hr).1

end Order

section Answers

/-- What the runtime finds in fragments that ranges were partitioned into. -/
structure Answers {α : Type} [LT α] [LE α] [DecidableLT α] [DecidableLE α] [OfNat α 0]
    (limits : FragmentLimits α) (ranges : List (α × α)) (fragments : List (Fragment α))
    (stop : α) : Prop where
  pos : 0 < stop
  endsAt : EndsAt ranges stop
  permitted : endsWell limits stop = true
  /-- There is a fragment from zero up to `stop`, and at no other time. -/
  found : ∀ time, (at? fragments time).isSome ↔ 0 ≤ time ∧ time < stop
  last : ∀ time fragment, at? fragments time = some fragment →
    LastReach ranges time fragment.index
  index : ∀ fragment ∈ fragments, fragment.index < ranges.length

variable {α β : Type} {loc : Location}

theorem partition_answers [LinearOrder α] [OfNat α 0] {limits : FragmentLimits α}
    {ranges : List (α × α)} {fragments : List (Fragment α)}
    (h : partition limits loc ranges = .ok fragments) :
    ∃ stop, Answers limits ranges fragments stop := by
  obtain ⟨stop, hends, hpos, hpermitted, hpainted⟩ := partition_painted h
  exact ⟨stop, hpos, hends, hpermitted, at_isSome hpainted.tiles,
    fun _ _ hf => at_lastReach hpainted hf, fun _ hm => index_lt hpainted hm⟩

variable [LT α] [LE α] [DecidableLT α] [DecidableLE α] [OfNat α 0] [LT β] [LE β] [DecidableLT β]
  [DecidableLE β] [OfNat β 0] {f : α → β} (hf : Embeds f) (hzero : f 0 = 0)
  {limits : FragmentLimits α} {ranges : List (α × α)} {fragments : List (Fragment α)}

include hf hzero

/-- What is found among images is found among the times they are images of. -/
theorem Answers.of_image {stop : β}
    (h : Answers (limits.map f) (ranges.map (Prod.map f f)) (fragments.map (map f)) stop) :
    ∃ time, f time = stop ∧ Answers limits ranges fragments time := by
  obtain ⟨_, hm, hstop⟩ := h.endsAt.attained
  obtain ⟨range, hrange, rfl⟩ := List.mem_map.mp hm
  obtain rfl : f range.2 = stop := hstop
  refine ⟨range.2, rfl, ?_⟩
  constructor
  case pos =>
    rw [← hf.lt, hzero]
    exact h.pos
  case endsAt => exact h.endsAt.of_map hf ⟨range, hrange, rfl⟩
  case permitted =>
    rw [← endsWell_map hf]
    exact h.permitted
  case found =>
    intro time
    have hfound := h.found (f time)
    rwa [at_map hf, Option.isSome_map, ← hzero, hf.le, hf.lt] at hfound
  case last =>
    intro time fragment hat
    rw [← lastReach_map hf]
    apply h.last (f time) (fragment.map f)
    rw [at_map hf, hat]
    rfl
  case index =>
    intro fragment hfragment
    have hlt := h.index _ (List.mem_map_of_mem hfragment)
    rwa [List.length_map] at hlt

end Answers

end Fragment

/-- A time that is a number. -/
structure Instant where
  time : Float
  number : time.isNaN = false

namespace Instant

instance : LT Instant := ⟨fun a b => a.time < b.time⟩

instance : LE Instant := ⟨fun a b => a.time ≤ b.time⟩

instance : DecidableLT Instant := fun a b => inferInstanceAs (Decidable (a.time < b.time))

instance : DecidableLE Instant := fun a b => inferInstanceAs (Decidable (a.time ≤ b.time))

instance : OfNat Instant 0 := ⟨⟨0, rfl⟩⟩

def rank (a : Instant) : Int := Numeric.rank a.time

theorem embeds_time : Embeds time := ⟨fun _ _ => Iff.rfl, fun _ _ => Iff.rfl⟩

theorem embeds_rank : Embeds rank :=
  ⟨fun a b => (Numeric.lt_iff_rank a.number b.number).symm,
    fun a b => (Numeric.le_iff_rank a.number b.number).symm⟩

theorem bounded_time : Bounded time := by
  constructor
  case number => exact fun a => (Numeric.le_iff_rank a.number a.number).mpr le_rfl
  case below =>
    rintro _ ⟨⟩ a
    exact (Numeric.not_lt_iff_le rfl a.number).mpr (Numeric.le_infinity a.number)
  case above =>
    rintro _ ⟨⟩ a
    exact (Numeric.not_lt_iff_le a.number rfl).mpr (Numeric.neg_infinity_le a.number)

theorem bounded_rank : Bounded rank := .of_order rank

theorem rank_zero : rank 0 = 0 := by decide +kernel

theorem exists_ranges {ranges : List (Float × Float)}
    (h : ∀ range ∈ ranges, range.1.isNaN = false ∧ range.2.isNaN = false) :
    ∃ instants : List (Instant × Instant), instants.map (Prod.map time time) = ranges := by
  induction ranges with
  | nil => exact ⟨[], rfl⟩
  | cons range rest ih =>
    obtain ⟨⟨hfirst, hsecond⟩, hrest⟩ := List.forall_mem_cons.mp h
    obtain ⟨instants, rfl⟩ := ih hrest
    exact ⟨(⟨range.1, hfirst⟩, ⟨range.2, hsecond⟩) :: instants, rfl⟩

end Instant

/-- Where fragments must end is said in numbers. -/
structure FragmentLimits.Numbers (limits : FragmentLimits Float) : Prop where
  duration : limits.duration.isNaN = false
  overDuration : ∀ latest ∈ limits.overDuration, latest.isNaN = false

theorem FragmentLimits.Numbers.exists_limits {limits : FragmentLimits Float} (h : limits.Numbers) :
    ∃ instants : FragmentLimits Instant, instants.map Instant.time = limits := by
  obtain ⟨duration, overDuration, quiet⟩ := limits
  cases overDuration with
  | none => exact ⟨⟨⟨duration, h.duration⟩, none, quiet⟩, rfl⟩
  | some latest =>
    exact ⟨⟨⟨duration, h.duration⟩, some ⟨latest, h.overDuration latest rfl⟩, quiet⟩, rfl⟩

namespace Fragment

/-- Nothing is found at NaN. -/
theorem at_number {fragments : List (Fragment Float)} {time : Float}
    (h : (at? fragments time).isSome) : time.isNaN = false := by
  obtain ⟨fragment, _, hc⟩ := List.find?_isSome.mp h
  simp only [contains, Bool.and_eq_true, decide_eq_true_eq] at hc
  exact (Numeric.isNaN_of_le hc.1).2

/-- A partition of numbers is one of instants. -/
theorem partition_instants {limits : FragmentLimits Float} (hl : limits.Numbers) {loc : Location}
    {ranges : List (Float × Float)}
    (hr : ∀ range ∈ ranges, range.1.isNaN = false ∧ range.2.isNaN = false)
    {fragments : List (Fragment Float)} (h : partition limits loc ranges = .ok fragments) :
    ∃ (bounds : FragmentLimits Instant) (spans : List (Instant × Instant))
      (instants : List (Fragment Instant)), bounds.map Instant.time = limits ∧
      spans.map (Prod.map Instant.time Instant.time) = ranges ∧
      instants.map (map Instant.time) = fragments ∧ partition bounds loc spans = .ok instants := by
  obtain ⟨bounds, rfl⟩ := hl.exists_limits
  obtain ⟨spans, rfl⟩ := Instant.exists_ranges hr
  rw [partition_map Instant.embeds_time Instant.bounded_time rfl] at h
  cases hp : partition bounds loc spans with
  | error fault => rw [hp] at h; cases h
  | ok instants =>
    rw [hp] at h
    exact ⟨bounds, spans, instants, rfl, rfl, Except.ok.inj h, hp⟩

/-- What is found among instants is found among doubles, and nothing is found at NaN. -/
theorem Answers.doubles {limits : FragmentLimits Instant} {ranges : List (Instant × Instant)}
    {fragments : List (Fragment Instant)} {stop : Instant}
    (h : Answers limits ranges fragments stop) :
    Answers (limits.map Instant.time) (ranges.map (Prod.map Instant.time Instant.time))
      (fragments.map (map Instant.time)) stop.time := by
  have hnumber : ∀ time : Float, time.isNaN = true → time.isNaN ≠ false := by simp
  constructor
  case pos => exact h.pos
  case endsAt => exact h.endsAt.map Instant.embeds_time
  case permitted => exact (endsWell_map Instant.embeds_time limits stop).trans h.permitted
  case found =>
    intro time
    cases hn : time.isNaN with
    | false =>
      have hfound := h.found ⟨time, hn⟩
      rwa [← Option.isSome_map (f := map Instant.time), ← at_map Instant.embeds_time] at hfound
    | true =>
      exact iff_of_false (fun hs => hnumber time hn (at_number hs))
        fun ⟨hle, _⟩ => hnumber time hn (Numeric.isNaN_of_le hle).2
  case last =>
    intro time fragment hat
    have hn := at_number (Option.isSome_of_eq_some hat)
    have hmap := at_map Instant.embeds_time fragments ⟨time, hn⟩
    rw [hat] at hmap
    obtain ⟨found, hfound, rfl⟩ := Option.map_eq_some_iff.mp hmap.symm
    exact (lastReach_map Instant.embeds_time ranges ⟨time, hn⟩ _).mpr (h.last _ _ hfound)
  case index =>
    refine List.forall_mem_map.mpr fun fragment hm => ?_
    rw [List.length_map]
    exact h.index fragment hm

theorem partition_numbers_answer {limits : FragmentLimits Float} (hl : limits.Numbers)
    {loc : Location} {ranges : List (Float × Float)}
    (hr : ∀ range ∈ ranges, range.1.isNaN = false ∧ range.2.isNaN = false)
    {fragments : List (Fragment Float)} (h : partition limits loc ranges = .ok fragments) :
    ∃ stop, Answers limits ranges fragments stop := by
  obtain ⟨limits, ranges, instants, rfl, rfl, rfl, hp⟩ := partition_instants hl hr h
  have hranks := partition_image Instant.embeds_rank Instant.bounded_rank Instant.rank_zero hp
  obtain ⟨_, hanswers⟩ := partition_answers hranks
  obtain ⟨stop, _, hstop⟩ := hanswers.of_image Instant.embeds_rank Instant.rank_zero
  exact ⟨stop.time, hstop.doubles⟩

/-- The times of ranges are read within the limits of the timeline, and then partitioned. -/
theorem readAll_ok {limits : FragmentLimits Float} {loc : Location} {raws : List Value}
    {fragments : List (Fragment Float)} (h : (readAll limits loc raws).result = .ok fragments) :
    ∃ ranges, loc.each (fun loc raw => (Field.timeRange (rangeLimits limits) loc raw).result) raws =
        .ok ranges ∧
      (∀ range ∈ ranges, range.1.isNaN = false ∧ range.2.isNaN = false) ∧
      partition limits loc ranges = .ok fragments := by
  unfold readAll at h
  split at h
  · cases h
  · rw [Checked.result_bind, Location.result_each, Check.bind_ok] at h
    obtain ⟨ranges, hranges, hfragments⟩ := h
    have hpermit := Location.each_all (Field.timeRange_permits (rangeLimits limits)) loc raws ranges
      hranges
    have hnumbers : ∀ range ∈ ranges, range.1.isNaN = false ∧ range.2.isNaN = false :=
      fun range hm => ⟨(hpermit range hm).1.number, (hpermit range hm).2.number⟩
    exact ⟨ranges, hranges, hnumbers, hfragments⟩

theorem readAll_answers {limits : FragmentLimits Float} (hl : limits.Numbers) {loc : Location}
    {raws : List Value} {fragments : List (Fragment Float)}
    (h : (readAll limits loc raws).result = .ok fragments) :
    ∃ ranges stop,
      loc.each (fun loc raw => (Field.timeRange (rangeLimits limits) loc raw).result) raws =
        .ok ranges ∧ Answers limits ranges fragments stop := by
  obtain ⟨ranges, hranges, hnumbers, hfragments⟩ := readAll_ok h
  obtain ⟨stop, hanswers⟩ := partition_numbers_answer hl hnumbers hfragments
  exact ⟨ranges, stop, hranges, hanswers⟩

end Fragment

namespace Ranges

variable {V : Type}

/-- There is a value from zero up to `stop`, and at no other time. -/
def HoldsUntil (timeline : Ranges V) (stop : Float) : Prop :=
  ∀ time, (timeline.valueAt? time).isSome ↔ 0 ≤ time ∧ time < stop

/-- The end of a timeline may be replaced by one that is neither before it nor after it. -/
theorem HoldsUntil.same {timeline : Ranges V} {stop other : Float} (h : timeline.HoldsUntil stop)
    (hle : stop ≤ other) (hge : other ≤ stop) : timeline.HoldsUntil other := by
  intro time
  rw [h time]
  exact and_congr_right fun _ =>
    ⟨fun hlt => Numeric.lt_of_lt_of_le hlt hle, fun hlt => Numeric.lt_of_lt_of_le hlt hge⟩

/-- A value stands behind each fragment. -/
theorem holdsUntil {timeline : Ranges V} {stop : Float}
    (hfound : ∀ time, (Fragment.at? timeline.fragments time).isSome ↔ 0 ≤ time ∧ time < stop)
    (hindex : ∀ fragment ∈ timeline.fragments, fragment.index < timeline.values.length) :
    timeline.HoldsUntil stop := by
  intro time
  rw [← hfound time, valueAt?]
  cases hf : Fragment.at? timeline.fragments time with
  | none => simp
  | some fragment =>
    have hlt := hindex fragment (List.mem_of_find?_eq_some hf)
    simp [hlt]

/-- The values of a timeline are as its items are read. -/
theorem read_values {P : V → Prop} {item : Location → Value → Checked V}
    (h : ∀ loc raw, Check.Yields P (item loc raw).result) (limits : FragmentLimits Float)
    (loc : Location) (raw : Value) :
    Check.Yields (fun timeline => ∀ v ∈ timeline.values, P v)
      (read limits item loc raw).result := by
  unfold read
  split
  · simp only [Checked.result_bind, Location.result_each]
    refine .step fun fragments => .bind fun values hvalues => .pure ?_
    exact Location.each_all h loc _ values hvalues
  · simp only [Checked.result_bind, Location.result_eachKey]
    refine .step fun fragments => .bind fun values hvalues => .pure ?_
    exact Location.eachKey_all (fun loc _ raw => h loc raw) loc _ values hvalues
  · exact .fault

end Ranges

namespace Points

variable {V : Type}

/-- The points of a timeline lie between zero and `duration`, in the order of their times. -/
structure Within (timeline : Points V) (duration : Float) : Prop where
  inside : ∀ point ∈ timeline.pairs, 0 ≤ point.1 ∧ point.1 ≤ duration
  ordered : timeline.pairs.Pairwise fun a b => a.1 ≤ b.1

theorem before_trans (a b c : Float × V) (hab : before a b = true) (hbc : before b c = true) :
    before a c = true := by
  simp only [before, decide_eq_true_eq] at *
  exact Int.le_trans hab hbc

theorem before_total (a b : Float × V) : (before a b || before b a) = true := by
  simp only [before, Bool.or_eq_true, decide_eq_true_eq]
  exact Int.le_total _ _

theorem ofPairs_perm (pairs : List (Float × V)) : (ofPairs pairs).pairs.Perm pairs :=
  List.mergeSort_perm _ _

theorem ofPairs_ascending (pairs : List (Float × V)) :
    (ofPairs pairs).pairs.Pairwise fun a b => Numeric.orderKey a.1 ≤ Numeric.orderKey b.1 :=
  (List.pairwise_mergeSort before_trans before_total pairs).imp of_decide_eq_true

theorem ofPairs_within {pairs : List (Float × V)} {duration : Float}
    (h : ∀ point ∈ pairs, 0 ≤ point.1 ∧ point.1 ≤ duration) :
    (ofPairs pairs).Within duration := by
  have hinside : ∀ point ∈ (ofPairs pairs).pairs, 0 ≤ point.1 ∧ point.1 ≤ duration :=
    fun point hm => h point ((ofPairs_perm pairs).mem_iff.mp hm)
  refine ⟨hinside, (ofPairs_ascending pairs).imp_of_mem ?_⟩
  intro a b ha hb hab
  have hna := (Numeric.isNaN_of_le (hinside a ha).1).2
  have hnb := (Numeric.isNaN_of_le (hinside b hb).1).2
  exact Numeric.le_of_orderKey hna hnb hab

theorem read_within {duration : Float} (hd : duration.isNaN = false)
    (item : Location → Value → Checked V) (loc : Location) (raw : Value) :
    Check.Yields (fun timeline => timeline.Within duration)
      (read duration item loc raw).result := by
  have hin : ∀ x, (TimeLimits.between 0 duration).Permits x → 0 ≤ x ∧ x ≤ duration := by
    intro x hx
    have hlow := hx.least 0 rfl
    have hhigh := hx.greatest duration rfl
    rw [Numeric.not_lt_iff_le hx.number rfl] at hlow
    rw [Numeric.not_lt_iff_le hd hx.number] at hhigh
    exact ⟨hlow, hhigh⟩
  unfold read
  dsimp only
  split
  · simp only [Checked.result_bind, Location.result_each]
    refine .bind fun pairs hpairs => .pure (ofPairs_within ?_)
    refine Location.each_all (fun loc raw => ?_) loc _ pairs hpairs
    simp only [readItem, Checked.result_bind]
    exact .bind fun time htime => .step fun _ =>
      .pure (hin time (Field.time_permits _ _ _ time htime))
  · simp only [Checked.result_bind, Location.result_eachKey]
    refine .bind fun pairs hpairs => .pure (ofPairs_within ?_)
    refine Location.eachKey_all (fun loc name raw => ?_) loc _ pairs hpairs
    simp only [readEntry, Checked.result_bind]
    exact .bind fun time htime => .step fun _ =>
      .pure (hin time (Field.time_permits _ _ _ time htime))
  · exact .fault

end Points

end GameRoster.Timeline
