import GameRoster.Proofs.Arithmetic
import GameRoster.Proofs.Bounds
import GameRoster.Proofs.Ordering

namespace GameRoster

/-- A number that no bound excludes. -/
structure FloatLimits.Permits (limits : FloatLimits) (x : Float) : Prop where
  number : x.isNaN = false
  least : ∀ lo ∈ limits.least, ¬ x < lo
  greatest : ∀ hi ∈ limits.greatest, ¬ hi < x

theorem FloatLimits.check_permits {limits : FloatLimits} {loc : Location} {x : Float}
    (hx : x.isNaN = false) (h : limits.check loc x = .ok ()) : limits.Permits x :=
  ⟨hx, fun _ hl => check_least hl h, fun _ hg => check_greatest hg h⟩

/-- A check of times yields the time that was checked, unless a bound excludes it. -/
theorem Time.check_keeps (limits : TimeLimits) (raw : Value) (loc : Location) (x : Float) :
    Check.Yields (fun y => y = x ∧ limits.toFloatLimits.check loc x = .ok ())
      (Time.check limits raw loc x).result := by
  unfold Time.check
  simp only [Checked.result_bind]
  refine .bind fun u hu => ?_
  split
  · exact .pure ⟨rfl, hu⟩
  · exact .pure ⟨rfl, hu⟩

theorem Time.check_permits (limits : TimeLimits) (raw : Value) (loc : Location) {x : Float}
    (hx : x.isNaN = false) :
    Check.Yields (fun y => y = x ∧ limits.Permits x) (Time.check limits raw loc x).result :=
  (check_keeps limits raw loc x).mono fun _ h => ⟨h.1, FloatLimits.check_permits hx h.2⟩

namespace Field

theorem time_permits (limits : TimeLimits) (loc : Location) (raw : Value) :
    Check.Yields limits.Permits (time limits loc raw).result := by
  unfold time
  simp only [Checked.result_bind]
  refine .bind fun x hx => ?_
  have hn := Time.source_isNaN limits loc raw x hx
  refine (Time.check_permits limits raw loc hn).mono ?_
  rintro _ ⟨rfl, h⟩
  exact h

section Sequences

variable {P : Float → Prop} {limits : TimeLimits} {raw : Value}

theorem times_all
    (h : ∀ items, raw = .array items → ∀ item ∈ items, ∀ loc,
      Check.Yields P (time limits loc item).result)
    (lengths : Lengths) (order : Order) (loc : Location) :
    Check.Yields (fun items => ∀ x ∈ items, P x) (times limits lengths order loc raw).result := by
  unfold times
  simp only [Checked.result_bind, Location.result_each]
  refine .bind fun items hitems => .bind fun parsed hparsed => .step fun _ => .pure ?_
  exact Location.each_mem (h items (list_written lengths loc raw items hitems)) loc parsed hparsed

/-- The ends of a range are checked alike, whether they are written in one text or in a list. -/
theorem timePair_all
    (htext : ∀ s first second, raw = .string s → Time.rangeOfText? s.toList = some (first, second) →
      ∀ x ∈ [first, second], ∀ loc, Check.Yields P (Time.check limits raw loc x).result)
    (hitems : ∀ items, raw = .array items → ∀ item ∈ items, ∀ loc,
      Check.Yields P (time limits loc item).result) (loc : Location) :
    Check.Yields (fun r => P r.1 ∧ P r.2) (timePair limits loc raw).result := by
  unfold timePair
  split
  · rename_i s
    split
    · rename_i first second hrange
      have hcheck := htext s first second rfl hrange
      simp only [Checked.result_bind]
      refine .bind fun a ha => .bind fun b hb => .pure ?_
      exact ⟨hcheck first (by simp) _ a ha, hcheck second (by simp) _ b hb⟩
    · exact .fault
  · simp only [Checked.result_bind]
    refine .bind fun items hread => ?_
    have hall := times_all hitems _ _ loc items hread
    split
    · exact .pure ⟨hall _ (by simp), hall _ (by simp)⟩
    · exact .fault

/-- A range is the pair that was written. -/
theorem timeRange_all {loc : Location}
    (h : Check.Yields (fun r => P r.1 ∧ P r.2) (timePair limits loc raw).result) :
    Check.Yields (fun r => P r.1 ∧ P r.2) (timeRange limits loc raw).result := by
  unfold timeRange
  simp only [Checked.result_bind]
  refine .bind fun r hr => ?_
  split
  · exact .fault
  · exact .pure (h r hr)

end Sequences

/-- Both ends of a range are numbers within the bounds. -/
theorem timeRange_permits (limits : TimeLimits) (loc : Location) (raw : Value) :
    Check.Yields (fun r => limits.Permits r.1 ∧ limits.Permits r.2)
      (timeRange limits loc raw).result := by
  refine timeRange_all (timePair_all ?_ (fun _ _ item _ loc => time_permits limits loc item) loc)
  intro s first second _ hrange x hx loc
  obtain ⟨hfirst, hsecond⟩ := Time.rangeOfText_isNaN hrange
  have hnumber : x.isNaN = false := by
    rcases List.mem_pair.mp hx with rfl | rfl
    · exact hfirst
    · exact hsecond
  refine (Time.check_permits limits raw loc hnumber).mono ?_
  rintro _ ⟨rfl, hpermits⟩
  exact hpermits

end Field

end GameRoster
