import GameRoster.Proofs.Timelines

namespace GameRoster.Timeline

/-- Where the limits let a timeline end. -/
def FragmentLimits.Permits (limits : FragmentLimits Float) (stop : Float) : Prop :=
  match limits.overDuration with
  | none => Same stop limits.duration
  | some latest => limits.duration ≤ stop ∧ stop ≤ latest

/-- A range begins at zero or later, does not end before it begins, and does not end beyond the
limit. Nothing is beyond a limit that is NaN. -/
structure Fits (limit : Float) (range : Float × Float) : Prop where
  begins : 0 ≤ range.1
  ordered : range.1 ≤ range.2
  ends : ¬ limit < range.2

theorem Fits.of_limit {limit : Float} (hl : limit.isNaN = false) {range : Float × Float}
    (hr : range.2.isNaN = false) :
    Fits limit range ↔ 0 ≤ range.1 ∧ range.1 ≤ range.2 ∧ range.2 ≤ limit := by
  rw [← Numeric.not_lt_iff_le hl hr]
  constructor
  · intro h
    exact ⟨h.begins, h.ordered, h.ends⟩
  · rintro ⟨hb, ho, he⟩
    exact ⟨hb, ho, he⟩

section Conditions

variable (limits : FragmentLimits Float) (ranges : List (Float × Float))

/-- The least begin is zero. -/
def BeginsAtZero : Prop := ∃ start, StartsAt ranges start ∧ Same start 0

/-- The greatest end is where the limits let a timeline end. -/
def EndsWell : Prop := ∃ stop, EndsAt ranges stop ∧ limits.Permits stop

/-- The timeline takes some time, and each instant of it is reached. -/
def Gapless : Prop := ∃ stop, EndsAt ranges stop ∧ 0 < stop ∧ Covered ranges 0 stop

/-- The timeline takes no time, or some instant of it is reached by no range. -/
def Gapped : Prop := ∃ stop, EndsAt ranges stop ∧
  (Same stop 0 ∨ ∃ time, 0 ≤ time ∧ time < stop ∧ ∀ range ∈ ranges, ¬ Reaches range time)

/-- Ranges that make a timeline. -/
structure Acceptable : Prop where
  some : ranges ≠ []
  fits : ∀ range ∈ ranges, Fits limits.limit range
  begins : BeginsAtZero ranges
  ends : EndsWell limits ranges
  gapless : Gapless ranges

/-- The fault of ranges that make no timeline: that of the first condition they do not meet. -/
inductive Refused (loc : Location) : Fault → Prop
  | empty (h : ranges = []) : Refused loc (.timeline loc .empty)
  | range {i : Nat} {range : Float × Float} (hrange : ranges[i]? = some range)
      (h : ¬ Fits limits.limit range)
      (hfirst : ∀ j earlier, j < i → ranges[j]? = some earlier → Fits limits.limit earlier) :
      Refused loc (.timeline (loc.index i) .range)
  | begin (hsome : ranges ≠ []) (hfits : ∀ range ∈ ranges, Fits limits.limit range)
      (h : ¬ BeginsAtZero ranges) : Refused loc (.timeline loc .begin)
  | finish (hsome : ranges ≠ []) (hfits : ∀ range ∈ ranges, Fits limits.limit range)
      (hbegins : BeginsAtZero ranges) (h : ¬ EndsWell limits ranges) :
      Refused loc (.timeline loc .finish)
  | overlap (hsome : ranges ≠ []) (hfits : ∀ range ∈ ranges, Fits limits.limit range)
      (hbegins : BeginsAtZero ranges) (hends : EndsWell limits ranges) (h : Gapped ranges) :
      Refused loc (.timeline loc .overlap)

/-- Ranges that are partitioned are acceptable; those that are not are refused for the fault. -/
def Verdict (loc : Location) : Check (List (Fragment Float)) → Prop
  | .ok _ => Acceptable limits ranges
  | .error fault => Refused limits ranges loc fault

end Conditions

namespace Same

variable {a b : Float}

theorem trans {c : Float} (hab : Same a b) (hbc : Same b c) : Same a c :=
  ⟨Numeric.le_trans hab.1 hbc.1, Numeric.le_trans hbc.2 hab.2⟩

theorem permits (h : Same a b) {limits : FragmentLimits Float} (ha : limits.Permits a) :
    limits.Permits b := by
  obtain ⟨duration, overDuration, quiet⟩ := limits
  cases overDuration with
  | none => exact trans ⟨h.2, h.1⟩ ha
  | some latest => exact ⟨Numeric.le_trans ha.1 h.1, Numeric.le_trans h.2 ha.2⟩

end Same

/-- What a partition checks of each range. -/
theorem isBadRange_iff {limit : Float} {range : Float × Float}
    (hr : range.1.isNaN = false ∧ range.2.isNaN = false) :
    Fragment.isBadRange limit range = false ↔ Fits limit range := by
  have hbegins := Numeric.not_lt_iff_le hr.1 (show (0 : Float).isNaN = false from rfl)
  have hordered := Numeric.not_lt_iff_le hr.2 hr.1
  simp only [Fragment.isBadRange, Bool.or_eq_false_iff, decide_eq_false_iff_not, hbegins, hordered]
  constructor
  · rintro ⟨⟨hb, ho⟩, he⟩
    exact ⟨hb, ho, he⟩
  · intro h
    exact ⟨⟨h.begins, h.ordered⟩, h.ends⟩

theorem isSame_iff_same {a b : Float} : Fragment.isSame a b = true ↔ Same a b := by
  simp [Fragment.isSame, Same]

theorem endsWell_iff_permits {limits : FragmentLimits Float} {stop : Float} :
    Fragment.endsWell limits stop = true ↔ limits.Permits stop := by
  obtain ⟨duration, overDuration, quiet⟩ := limits
  cases overDuration with
  | none => exact isSame_iff_same
  | some latest => simp [Fragment.endsWell, FragmentLimits.Permits]

/-- Which of the equal least begins is looked at makes no difference. -/
theorem StartsAt.beginsAtZero {ranges : List (Float × Float)} {start : Float}
    (hs : StartsAt ranges start) : BeginsAtZero ranges ↔ Same start 0 := by
  constructor
  · rintro ⟨other, ho, h⟩
    exact (hs.unique ho).trans h
  · exact fun h => ⟨start, hs, h⟩

theorem EndsAt.endsWell {limits : FragmentLimits Float} {ranges : List (Float × Float)}
    {stop : Float} (he : EndsAt ranges stop) : EndsWell limits ranges ↔ limits.Permits stop := by
  constructor
  · rintro ⟨other, ho, h⟩
    exact (ho.unique he).permits h
  · exact fun h => ⟨stop, he, h⟩

section Numbers

variable {first : Float × Float} {rest : List (Float × Float)}
  (hnumbers : ∀ range ∈ first :: rest, range.1.isNaN = false ∧ range.2.isNaN = false)

include hnumbers

theorem Fragment.least_number : StartsAt (first :: rest) (least first.1 (rest.map Prod.fst)) := by
  obtain ⟨instants, hinstants⟩ := Instant.exists_ranges hnumbers
  obtain ⟨head, tail, rfl, rfl, rfl⟩ := List.map_eq_cons_iff.mp hinstants
  have hmap := least_map Instant.embeds_time Instant.bounded_time head.1 (tail.map Prod.fst)
  have hstarts := (least_startsAt Instant.embeds_rank head tail).map Instant.embeds_time
  rw [← hmap, List.map_map] at hstarts
  rw [List.map_map]
  exact hstarts

theorem Fragment.greatest_number :
    EndsAt (first :: rest) (greatest first.2 (rest.map Prod.snd)) := by
  obtain ⟨instants, hinstants⟩ := Instant.exists_ranges hnumbers
  obtain ⟨head, tail, rfl, rfl, rfl⟩ := List.map_eq_cons_iff.mp hinstants
  have hmap := greatest_map Instant.embeds_time Instant.bounded_time head.2 (tail.map Prod.snd)
  have hends := (greatest_endsAt Instant.embeds_rank head tail).map Instant.embeds_time
  rw [← hmap, List.map_map] at hends
  rw [List.map_map]
  exact hends

end Numbers

section Gaps

variable {ranges : List (Float × Float)}

theorem Covered.same {a a' b b' : Float} (h : Covered ranges a b) (ha : Same a a')
    (hb : Same b b') : Covered ranges a' b' :=
  fun time h₁ h₂ => h time (Numeric.le_trans ha.1 h₁) (Numeric.lt_of_lt_of_le h₂ hb.2)

/-- Every number is an instant, so instants are covered where numbers are. -/
theorem covered_times {instants : List (Instant × Instant)} {start stop : Instant} :
    Covered instants start stop ↔
      Covered (instants.map (Prod.map Instant.time Instant.time)) start.time stop.time := by
  constructor
  · intro h time h₁ h₂
    have hn := (Numeric.isNaN_of_le h₁).2
    obtain ⟨range, hm, hreach⟩ := h ⟨time, hn⟩ h₁ h₂
    exact ⟨_, List.mem_map_of_mem hm, hreach⟩
  · intro h time h₁ h₂
    obtain ⟨_, hm, hreach⟩ := h time.time h₁ h₂
    obtain ⟨range, hrange, rfl⟩ := List.mem_map.mp hm
    exact ⟨range, hrange, hreach⟩

variable (hnumbers : ∀ range ∈ ranges, range.1.isNaN = false ∧ range.2.isNaN = false)
  {start stop : Float} (hs : StartsAt ranges start) (he : EndsAt ranges stop)

include hnumbers hs he

/-- What is left of a partition after its checks: whether someone owns each layer. -/
theorem ofLayer_isSome (hr : ∀ range ∈ ranges, range.1 ≤ range.2) :
    ((Layer.paintRanges 0 ranges [⟨start, stop, none⟩]).mapM Fragment.ofLayer?).isSome = true ↔
      start < stop ∧ Covered ranges start stop := by
  obtain ⟨instants, rfl⟩ := Instant.exists_ranges hnumbers
  obtain ⟨_, hm, rfl⟩ := hs.attained
  obtain ⟨_, hm', rfl⟩ := he.attained
  obtain ⟨first, hfirst, rfl⟩ := List.mem_map.mp hm
  obtain ⟨last, hlast, rfl⟩ := List.mem_map.mp hm'
  have hmap := Layer.paintRanges_map Instant.embeds_time 0 instants [⟨first.1, last.2, none⟩]
  simp only [List.map_cons, List.map_nil, Layer.map] at hmap
  simp only [Prod.map_fst, Prod.map_snd] at hs he ⊢
  rw [hmap, Fragment.mapM_ofLayer_map, Option.isSome_map,
    ofLayer_paintRanges Instant.embeds_rank, covered_times, Instant.embeds_time.lt]
  · intro range hrange
    have hm := List.mem_map_of_mem (f := Prod.map Instant.time Instant.time) hrange
    have hleast := hs.least _ hm
    have hordered := hr _ hm
    have hgreatest := he.greatest _ hm
    exact ⟨hleast, hordered, hgreatest⟩

theorem gapless_iff (hr : ∀ range ∈ ranges, range.1 ≤ range.2) (hzero : Same start 0) :
    ((Layer.paintRanges 0 ranges [⟨start, stop, none⟩]).mapM Fragment.ofLayer?).isSome = true ↔
      Gapless ranges := by
  rw [ofLayer_isSome hnumbers hs he hr]
  constructor
  · rintro ⟨hlt, hcovered⟩
    exact ⟨stop, he, Numeric.lt_of_le_of_lt hzero.2 hlt,
      hcovered.same hzero ⟨(he.unique he).1, (he.unique he).1⟩⟩
  · rintro ⟨other, ho, hpos, hcovered⟩
    have hsame := ho.unique he
    exact ⟨Numeric.lt_of_le_of_lt hzero.1 (Numeric.lt_of_lt_of_le hpos hsame.1),
      hcovered.same ⟨hzero.2, hzero.1⟩ hsame⟩

omit hs in
theorem gapped_of_not_gapless (hr : ∀ range ∈ ranges, 0 ≤ range.2) (h : ¬ Gapless ranges) :
    Gapped ranges := by
  obtain ⟨last, hlast, rfl⟩ := he.attained
  refine ⟨last.2, he, ?_⟩
  by_cases hpos : 0 < last.2
  · right
    by_contra hnone
    refine h ⟨last.2, he, hpos, fun time h₁ h₂ => ?_⟩
    by_contra hfree
    exact hnone ⟨time, h₁, h₂, fun range hm hreach => hfree ⟨range, hm, hreach⟩⟩
  · left
    rw [Numeric.not_lt_iff_le rfl (hnumbers last hlast).2] at hpos
    exact ⟨hpos, hr last hlast⟩

end Gaps

section Verdict

variable {limits : FragmentLimits Float} {ranges : List (Float × Float)} {loc : Location}

/-- Ranges are refused for one fault only. -/
theorem Refused.unique {f g : Fault} (hf : Refused limits ranges loc f)
    (hg : Refused limits ranges loc g) : f = g := by
  cases hf with
  | empty hnone =>
    cases hg with
    | empty => rfl
    | range hrange => simp [hnone] at hrange
    | begin hsome | finish hsome | overlap hsome => exact absurd hnone hsome
  | @range i range hrange hmisfit hfirst =>
    cases hg with
    | empty hnone => simp [hnone] at hrange
    | @range j other hother hbad hleast =>
      rcases Nat.lt_trichotomy i j with hlt | rfl | hgt
      · exact absurd (hleast i range hlt hrange) hmisfit
      · rfl
      · exact absurd (hfirst j other hgt hother) hbad
    | begin _ hfits | finish _ hfits | overlap _ hfits =>
      exact absurd (hfits range (List.mem_of_getElem? hrange)) hmisfit
  | begin hsome hfits hbegins =>
    cases hg with
    | empty hnone => exact absurd hnone hsome
    | range hrange hmisfit => exact absurd (hfits _ (List.mem_of_getElem? hrange)) hmisfit
    | begin => rfl
    | finish _ _ h | overlap _ _ h => exact absurd h hbegins
  | finish hsome hfits hbegins hends =>
    cases hg with
    | empty hnone => exact absurd hnone hsome
    | range hrange hmisfit => exact absurd (hfits _ (List.mem_of_getElem? hrange)) hmisfit
    | begin _ _ h => exact absurd hbegins h
    | finish => rfl
    | overlap _ _ _ h => exact absurd h hends
  | overlap hsome hfits hbegins hends =>
    cases hg with
    | empty hnone => exact absurd hnone hsome
    | range hrange hmisfit => exact absurd (hfits _ (List.mem_of_getElem? hrange)) hmisfit
    | begin _ _ h => exact absurd hbegins h
    | finish _ _ _ h => exact absurd hends h
    | overlap => rfl

end Verdict

namespace Fragment

variable {limits : FragmentLimits Float} {ranges : List (Float × Float)} {loc : Location}
  (hnumbers : ∀ range ∈ ranges, range.1.isNaN = false ∧ range.2.isNaN = false)

include hnumbers

theorem findIdx_misfit {i : Nat} (h : ranges.findIdx? (isBadRange limits.limit) = some i) :
    Refused limits ranges loc (.timeline (loc.index i) .range) := by
  obtain ⟨hi, hbad, hfirst⟩ := List.findIdx?_eq_some_iff_getElem.mp h
  apply Refused.range (List.getElem?_eq_getElem hi)
  · rw [← isBadRange_iff (hnumbers _ (List.getElem_mem hi)), hbad]
    decide
  · intro j earlier hj hearlier
    obtain ⟨hlt, rfl⟩ := List.getElem?_eq_some_iff.mp hearlier
    rw [← isBadRange_iff (hnumbers _ (List.getElem_mem hlt))]
    exact Bool.not_eq_true _ ▸ hfirst j hj

/-- What a partition comes to says how its ranges meet the conditions. -/
theorem partition_verdict : Verdict limits ranges loc (partition limits loc ranges) := by
  cases ranges with
  | nil => exact .empty rfl
  | cons first rest =>
    have hs := least_number hnumbers
    have he := greatest_number hnumbers
    have hsome : first :: rest ≠ [] := List.cons_ne_nil first rest
    unfold partition
    dsimp only
    generalize least first.1 (rest.map Prod.fst) = start at hs ⊢
    generalize greatest first.2 (rest.map Prod.snd) = stop at he ⊢
    cases hbad : (first :: rest).findIdx? (isBadRange limits.limit) with
    | some i => exact findIdx_misfit hnumbers hbad
    | none =>
      have hfits : ∀ range ∈ first :: rest, Fits limits.limit range := fun range hm =>
        (isBadRange_iff (hnumbers range hm)).mp (List.findIdx?_eq_none_iff.mp hbad range hm)
      have hordered : ∀ range ∈ first :: rest, range.1 ≤ range.2 :=
        fun range hm => (hfits range hm).ordered
      have hlater : ∀ range ∈ first :: rest, 0 ≤ range.2 :=
        fun range hm => Numeric.le_trans (hfits range hm).begins (hordered range hm)
      dsimp only
      split
      · rename_i h
        rw [Bool.not_eq_true', ← Bool.not_eq_true, isSame_iff_same, ← hs.beginsAtZero] at h
        exact .begin hsome hfits h
      · rename_i hzero
        rw [Bool.not_eq_true', Bool.not_eq_false, isSame_iff_same] at hzero
        have hbegins := hs.beginsAtZero.mpr hzero
        split
        · rename_i h
          rw [Bool.not_eq_true', ← Bool.not_eq_true, endsWell_iff_permits, ← he.endsWell] at h
          exact .finish hsome hfits hbegins h
        · rename_i hends
          rw [Bool.not_eq_true', Bool.not_eq_false, endsWell_iff_permits, ← he.endsWell] at hends
          have hgapless := gapless_iff hnumbers hs he hordered hzero
          split
          · rename_i hfound
            exact ⟨hsome, hfits, hbegins, hends, hgapless.mp (by rw [hfound]; rfl)⟩
          · rename_i hnone
            rw [hnone, Option.isSome_none, Bool.false_eq_true, false_iff] at hgapless
            have hgapped := gapped_of_not_gapless hnumbers he hlater hgapless
            exact .overlap hsome hfits hbegins hends hgapped

omit hnumbers

/-- The limits of a timeline that lasts twenty seconds. -/
def twenty : FragmentLimits Float := { duration := 20 }

end Fragment

end GameRoster.Timeline
