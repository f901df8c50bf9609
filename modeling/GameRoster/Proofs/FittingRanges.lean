import GameRoster.Proofs.Acceptance
import GameRoster.Proofs.FieldFaults

namespace GameRoster

/-- The faults of a list of ranges that is read: of a field, or of ranges of which each one fits. -/
inductive Fault.OfFitting : Fault → Prop
  | field (loc : Location) (rule : FieldRule) : OfFitting (.field loc rule)
  | timeline (loc : Location) (rule : TimelineRule) (h : rule ≠ .range) :
      OfFitting (.timeline loc rule)

instance : Fault.OfFields Fault.OfFitting := ⟨.field⟩

theorem Text.append_ne {start rest text : String} (h : ¬ start.toList <+: text.toList) :
    start ++ rest ≠ text := by
  rintro rfl
  rw [String.toList_append] at h
  exact h (List.prefix_append _ _)

/-- No rule about a value by itself is worded as the one about ranges. -/
theorem FieldRule.message_ne_range (rule : FieldRule) :
    rule.message ≠ TimelineRule.range.message := by
  cases rule with
  | least | greatest | lengthIs | lengthAtLeast | lengthAtMost | oneOf | pattern | extension
  | plusLimit | patternLevels | clipFlag => exact Text.append_ne (by decide)
  | idForm family violation => cases family <;> cases violation <;> decide
  | keyGroup group => cases group <;> decide
  | _ => decide

theorem TimelineRule.message_ne_range {rule : TimelineRule} (h : rule ≠ .range) :
    rule.message ≠ TimelineRule.range.message := by
  cases rule with
  | range => exact absurd rfl h
  | _ => decide

theorem Fault.OfFitting.reason_ne {fault : Fault} (h : fault.OfFitting) :
    fault.reason ≠ TimelineRule.range.message := by
  cases h with
  | field loc rule => exact rule.message_ne_range
  | timeline loc rule h => exact TimelineRule.message_ne_range h

/-- A range does not end before it begins. -/
theorem Field.timeRange_ordered (limits : TimeLimits) (loc : Location) (raw : Value) :
    Check.Yields (fun r => ¬ r.2 < r.1) (timeRange limits loc raw).result := by
  unfold timeRange
  simp only [Checked.result_bind]
  refine .step fun r => ?_
  split
  · exact .fault
  · rename_i h
    exact .pure h

namespace Timeline

/-- A range between two numbers that fits. -/
structure Fitting (limit : Float) (range : Float × Float) : Prop where
  numbers : range.1.isNaN = false ∧ range.2.isNaN = false
  fits : Fits limit range

/-- What fits passes the check that a partition makes first. -/
theorem Fitting.findIdx_none {limit : Float} {ranges : List (Float × Float)}
    (h : ∀ range ∈ ranges, Fitting limit range) :
    ranges.findIdx? (Fragment.isBadRange limit) = none :=
  List.findIdx?_eq_none_iff.mpr fun range hm =>
    (isBadRange_iff (h range hm).numbers).mpr (h range hm).fits

namespace Fragment

open Check.Fails

variable (limits : FragmentLimits Float)

theorem timeRange_fitting (loc : Location) (raw : Value) :
    Check.Yields (Fitting limits.limit) (Field.timeRange (rangeLimits limits) loc raw).result := by
  intro range h
  obtain ⟨hfirst, hsecond⟩ := Field.timeRange_permits (rangeLimits limits) loc raw range h
  have hbegins : 0 ≤ range.1 := (Numeric.not_lt_iff_le hfirst.number rfl).mp (hfirst.least 0 rfl)
  have hordered : range.1 ≤ range.2 := (Numeric.not_lt_iff_le hsecond.number hfirst.number).mp
    (Field.timeRange_ordered (rangeLimits limits) loc raw range h)
  exact ⟨⟨hfirst.number, hsecond.number⟩, hbegins, hordered, hsecond.greatest limits.limit rfl⟩

theorem each_fitting (loc : Location) (raws : List Value) :
    Check.Yields (fun ranges => ∀ range ∈ ranges, Fitting limits.limit range)
      (loc.each (Field.timeRange (rangeLimits limits)) raws).result := by
  rw [Location.result_each]
  exact Location.each_all (timeRange_fitting limits) loc raws

/-- Each way to refuse ranges that fit looks past the first check. -/
theorem partition_fitting (loc : Location) {ranges : List (Float × Float)}
    (h : ∀ range ∈ ranges, Fitting limits.limit range) :
    Check.Fails (Fault.At Fault.OfFitting loc) (partition limits loc ranges) := by
  intro fault hfault
  have hverdict : Verdict limits ranges loc (partition limits loc ranges) :=
    partition_verdict fun range hm => (h range hm).numbers
  rw [hfault] at hverdict
  cases hverdict with
  | empty => exact .here (.timeline loc .empty (by decide)) rfl
  | range hrange hmisfit => exact absurd (h _ (List.mem_of_getElem? hrange)).fits hmisfit
  | begin => exact .here (.timeline loc .begin (by decide)) rfl
  | finish => exact .here (.timeline loc .finish (by decide)) rfl
  | overlap => exact .here (.timeline loc .overlap (by decide)) rfl

theorem readAll_fitting : Checked.Local Fault.OfFitting (readAll limits) := by
  intro loc raws
  dsimp only [readAll]
  split
  · exact error (.here (.timeline loc .empty (by decide)) rfl)
  · rw [Checked.result_bind]
    refine bind (resultEach (Field.timeRange_reader _) loc raws) fun ranges hranges => ?_
    exact partition_fitting limits loc (each_fitting limits loc raws ranges hranges)

theorem read_fitting : Checked.Local Fault.OfFitting (read limits) := by
  intro loc raw
  refine checkStep (Field.list_reader {} loc raw) fun raws => ?_
  exact readAll_fitting limits loc raws

/-- Ranges that are read are ranges of numbers, and each of them fits: where the limit is a number,
no other range is read than from zero to the limit. So the check of a partition passes them all, and
no list of ranges is refused in its words. -/
theorem ranges_read_fit (limits : FragmentLimits Float) (loc : Location) :
    (∀ place raw range, (Field.timeRange (rangeLimits limits) place raw).result = .ok range →
      range.1.isNaN = false ∧ range.2.isNaN = false ∧ Fits limits.limit range ∧
      (limits.limit.isNaN = false →
        0 ≤ range.1 ∧ range.1 ≤ range.2 ∧ range.2 ≤ limits.limit)) ∧
    (∀ raws ranges, (loc.each (Field.timeRange (rangeLimits limits)) raws).result = .ok ranges →
      ranges.findIdx? (isBadRange limits.limit) = none) ∧
    (∀ raws fault, (readAll limits loc raws).result = .error fault →
      fault.reason ≠ "invalid time range") ∧
    ∀ raw fault, (read limits loc raw).result = .error fault →
      fault.reason ≠ "invalid time range" := by
  refine ⟨?_, ?_, ?_, ?_⟩
  · intro place raw range h
    obtain ⟨⟨hbegin, hend⟩, hfits⟩ := timeRange_fitting limits place raw range h
    exact ⟨hbegin, hend, hfits, fun hl => (Fits.of_limit hl hend).mp hfits⟩
  · intro raws ranges h
    exact Fitting.findIdx_none (each_fitting limits loc raws ranges h)
  · intro raws fault h
    exact (readAll_fitting limits loc raws fault h).among.reason_ne
  · intro raw fault h
    exact (read_fitting limits loc raw fault h).among.reason_ne

/-- Ranges in both notations, a list with one that runs beyond the end, and one that begins late. -/
theorem twenty_read_fit :
    (∃ range, (Field.timeRange (rangeLimits twenty) (.label "p") (.string "0-0.25min")).result =
      .ok range ∧ 0 ≤ range.1 ∧ range.1 ≤ range.2 ∧ range.2 ≤ 20) ∧
    (∃ ranges, ((Location.label "p").each (Field.timeRange (rangeLimits twenty))
        [.string "0-0.25min", .array [.string "900F", .int 20]]).result = .ok ranges ∧
      ranges.findIdx? (isBadRange twenty.limit) = none) ∧
    (∃ fault, (readAll twenty (.label "p") [.array [.int 0, .string "21s"]]).result =
      .error fault ∧ fault.reason ≠ "invalid time range") ∧
    ∃ fault, (read twenty (.label "p") (.array [.string "5-20"])).result = .error fault ∧
      fault.reason ≠ "invalid time range" := by
  obtain ⟨hfits, hfound, hall, hlist⟩ := ranges_read_fit twenty (.label "p")
  refine ⟨?_, ?_, ?_, ?_⟩
  · obtain ⟨range, h⟩ := Check.exists_of_isOk
      (x := (Field.timeRange (rangeLimits twenty) (.label "p") (.string "0-0.25min")).result)
      (by decide +kernel)
    obtain ⟨-, -, -, hbounds⟩ := hfits _ _ range h
    exact ⟨range, h, hbounds (by decide +kernel)⟩
  · obtain ⟨ranges, h⟩ := Check.exists_of_isOk
      (x := ((Location.label "p").each (Field.timeRange (rangeLimits twenty))
        [.string "0-0.25min", .array [.string "900F", .int 20]]).result) (by decide +kernel)
    exact ⟨ranges, h, hfound _ ranges h⟩
  · obtain ⟨fault, h⟩ := Check.error_of_isOk
      (x := (readAll twenty (.label "p") [.array [.int 0, .string "21s"]]).result)
      (by decide +kernel)
    exact ⟨fault, h, hall _ fault h⟩
  · obtain ⟨fault, h⟩ := Check.error_of_isOk
      (x := (read twenty (.label "p") (.array [.string "5-20"])).result) (by decide +kernel)
    exact ⟨fault, h, hlist _ fault h⟩

end Fragment

end Timeline

end GameRoster
