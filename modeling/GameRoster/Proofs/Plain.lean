import GameRoster.Proofs.Magnitudes
import GameRoster.Proofs.Timelines

namespace GameRoster

/-- The integers of a number have sixty-four bits, with a sign or without one. -/
def Number.fits : Number → Bool
  | .int n => decide (Numeric.wordMin ≤ n) && decide (n ≤ Numeric.unsignedMax)
  | .float _ _ => true

/-- Whatever a text reads as, be it a float, a time or a range of times, is finite. -/
def Text.plain (text : String) : Bool :=
  (Field.floatOfText? text.toList).all Float.isFinite &&
  (Time.ofText? text.toList).all Float.isFinite &&
  (Time.rangeOfText? text.toList).all fun range => range.1.isFinite && range.2.isFinite

namespace Value

mutual

/-- All texts and numbers in a value are plain. Keys are texts too. -/
def plain : Value → Bool
  | .null => true
  | .bool _ => true
  | .number n => n.fits
  | .string s => Text.plain s
  | .array items => plainItems items
  | .object fields => plainFields fields

def plainItems : List Value → Bool
  | [] => true
  | item :: rest => plain item && plainItems rest

def plainFields : List (String × Value) → Bool
  | [] => true
  | (name, value) :: rest => Text.plain name && plain value && plainFields rest

end

theorem plain_array {items : List Value} :
    (Value.array items).plain = true ↔ ∀ item ∈ items, item.plain = true := by
  rw [plain]
  induction items with
  | nil => simp [plainItems]
  | cons item rest ih => simp [plainItems, ih]

theorem plain_object {fields : List (String × Value)} :
    (Value.object fields).plain = true ↔
      ∀ field ∈ fields, Text.plain field.1 = true ∧ field.2.plain = true := by
  rw [plain]
  induction fields with
  | nil => simp [plainFields]
  | cons field rest ih => simp [plainFields, ih, and_assoc]

theorem plain_field {raw value : Value} {name : String} (h : raw.plain = true)
    (hf : raw.field? name = some value) : value.plain = true := by
  unfold field? at hf
  split at hf
  · obtain ⟨before, after, rfl, _⟩ := List.lookup_eq_some_iff.mp hf
    exact (plain_object.mp h _ (List.mem_append_right before List.mem_cons_self)).2
  · cases hf

/-- All of some values are plain. -/
def AllPlain (raws : List Value) : Prop := ∀ raw ∈ raws, raw.plain = true

end Value

/-- All doubles in a list are finite. -/
def Numeric.AllFinite (xs : List Float) : Prop := ∀ x ∈ xs, x.isFinite = true

/-- Both doubles of a pair are finite. -/
def Numeric.BothFinite (pair : Float × Float) : Prop :=
  pair.1.isFinite = true ∧ pair.2.isFinite = true

theorem Number.toFloat_isFinite {n : Number} (h : n.fits = true) : n.toFloat.isFinite = true := by
  cases n with
  | int n =>
    obtain ⟨hlow, hhigh⟩ := Bool.and_eq_true_iff.mp h
    have hlow := of_decide_eq_true hlow
    have hhigh := of_decide_eq_true hhigh
    simp only [Numeric.wordMin, Numeric.unsignedMax, Nat.pow_eq] at hlow hhigh
    exact Numeric.ofInt_isFinite (by omega)
  | float x finite => exact finite

namespace Text

variable {text : String} (h : Text.plain text = true)

include h

theorem plain_float {x : Float} (hx : Field.floatOfText? text.toList = some x) :
    x.isFinite = true := by
  simp only [plain, Bool.and_eq_true, hx, Option.all_some] at h
  exact h.1.1

theorem plain_time {x : Float} (hx : Time.ofText? text.toList = some x) : x.isFinite = true := by
  simp only [plain, Bool.and_eq_true, hx, Option.all_some] at h
  exact h.1.2

theorem plain_range {range : Float × Float} (hr : Time.rangeOfText? text.toList = some range) :
    Numeric.BothFinite range := by
  simp only [plain, Bool.and_eq_true, hr, Option.all_some] at h
  exact h.2

end Text

/-- What a time field reads from plain input is finite. -/
theorem Time.source_isFinite (limits : TimeLimits) (loc : Location) {raw : Value}
    (h : raw.plain = true) :
    Check.Yields (fun x => x.isFinite = true) (source limits loc raw) := by
  unfold source
  split
  · rename_i n
    have hn : n.toFloat.isFinite = true := Number.toFloat_isFinite (by simpa [Value.plain] using h)
    refine .ok ?_
    split
    · exact Numeric.div_isFinite hn (by decide +kernel)
    · exact hn
  · split
    · rename_i s x hx
      exact .ok (Text.plain_time (by simpa [Value.plain] using h) hx)
    · exact .fault
  · exact .fault

namespace Field

section Sequences

variable {α : Type} {raw : Value}

theorem list_plain (lengths : Lengths) (loc : Location) (h : raw.plain = true) :
    Check.Yields (fun items => ∀ item ∈ items, item.plain = true) (list lengths loc raw) := by
  intro items hitems
  obtain rfl := list_written lengths loc raw items hitems
  exact Value.plain_array.mp h

theorem object_plain (loc : Location) (h : raw.plain = true) :
    Check.Yields
      (fun fields => ∀ field ∈ fields, Text.plain field.1 = true ∧ field.2.plain = true)
      (object loc raw) := by
  unfold object
  split
  · exact .ok (Value.plain_object.mp h)
  · exact .fault

theorem listOf_plain {P : α → Prop} {item : Location → Value → Check α}
    (hitem : ∀ loc raw, raw.plain = true → Check.Yields P (item loc raw)) (lengths : Lengths)
    (loc : Location) (h : raw.plain = true) :
    Check.Yields (fun items => ∀ a ∈ items, P a) (listOf lengths item loc raw) := by
  refine .bind fun items hitems => ?_
  have hplain := list_plain lengths loc h items hitems
  exact Location.each_mem (fun raw hraw loc => hitem loc raw (hplain raw hraw)) loc

theorem numbers_plain [LT α] [DecidableLT α] {P : α → Prop} {item : Location → Value → Check α}
    (hitem : ∀ loc raw, raw.plain = true → Check.Yields P (item loc raw)) (lengths : Lengths)
    (order : Order) {first : Option α} (hfirst : ∀ a ∈ first, P a) (loc : Location)
    (h : raw.plain = true) :
    Check.Yields (fun items => ∀ a ∈ items, P a)
      (numbers item lengths order first loc raw) := by
  unfold numbers
  refine .bind fun items hitems => .step fun _ => .pure ?_
  refine List.forall_mem_append.mpr ⟨?_, listOf_plain hitem lengths loc h items hitems⟩
  exact fun a ha => hfirst a (Option.mem_toList.mp ha)

end Sequences

theorem floatSource_isFinite (loc : Location) {raw : Value} (h : raw.plain = true) :
    Check.Yields (fun x => x.isFinite = true) (floatSource loc raw) := by
  unfold floatSource
  split
  · exact .ok (Number.toFloat_isFinite (by simpa [Value.plain] using h))
  · split
    · rename_i s x hx
      exact .ok (Text.plain_float (by simpa [Value.plain] using h) hx)
    · exact .fault
  · exact .fault

theorem float_isFinite (limits : FloatLimits) (loc : Location) (raw : Value)
    (h : raw.plain = true) : Check.Yields (fun x => x.isFinite = true) (float limits loc raw) := by
  unfold float
  exact .bind fun x hx => .step fun _ => .pure (floatSource_isFinite loc h x hx)

theorem floats_allFinite (limits : FloatLimits) (lengths : Lengths) (loc : Location)
    (raw : Value) (h : raw.plain = true) :
    Check.Yields Numeric.AllFinite (floats limits lengths loc raw) :=
  numbers_plain (float_isFinite limits) lengths .any (by simp) loc h

theorem vector_bothFinite (normalized : Bool) (limits : FloatLimits) (loc : Location)
    {raw : Value} (h : raw.plain = true) :
    Check.Yields Numeric.BothFinite (vector normalized limits loc raw) := by
  unfold vector
  refine .bind fun items hitems => ?_
  have hall := floats_allFinite limits _ loc raw h items hitems
  split
  · split
    · exact .fault
    · exact .pure ⟨hall _ (by simp), hall _ (by simp)⟩
  · exact .fault

/-- Angles are checked in degrees, so they are finite in radians whatever they were written as. -/
theorem angle_isFinite (limits : FloatLimits) (loc : Location) (raw : Value) :
    Check.Yields (fun x => x.isFinite = true) (angle limits loc raw) := by
  unfold angle
  refine .step fun degrees => ?_
  split
  · rename_i hturn
    exact .step fun _ => .pure (Plane.toRadians_isFinite hturn)
  · exact .fault

theorem angleRange_bothFinite (limits : FloatLimits) (loc : Location) (raw : Value) :
    Check.Yields Numeric.BothFinite (angleRange limits loc raw) := by
  unfold angleRange
  refine .bind fun items hitems => ?_
  have hall := listOf_all (angle_isFinite limits) _ loc raw items hitems
  split
  · exact .pure ⟨hall _ (by simp), hall _ (by simp)⟩
  · exact .fault

theorem time_isFinite (limits : TimeLimits) (loc : Location) (raw : Value)
    (h : raw.plain = true) :
    Check.Yields (fun x => x.isFinite = true) (time limits loc raw).result := by
  unfold time
  simp only [Checked.result_bind]
  refine .bind fun x hx => fun y hy => ?_
  obtain ⟨rfl, _⟩ := Time.check_keeps limits raw loc x y hy
  exact Time.source_isFinite limits loc h y hx

theorem timeRange_bothFinite (limits : TimeLimits) (loc : Location) (raw : Value)
    (h : raw.plain = true) :
    Check.Yields Numeric.BothFinite (timeRange limits loc raw).result := by
  refine timeRange_all (P := fun x => x.isFinite = true) ?_
  refine timePair_all (P := fun x => x.isFinite = true) ?_ ?_ loc
  · rintro s first second rfl hrange x hx loc
    obtain ⟨hfirst, hsecond⟩ := Text.plain_range (by simpa [Value.plain] using h) hrange
    refine (Time.check_keeps limits _ loc x).mono ?_
    rintro _ ⟨rfl, _⟩
    rcases List.mem_pair.mp hx with rfl | rfl
    · exact hfirst
    · exact hsecond
  · rintro items rfl item hm loc
    exact time_isFinite limits loc item (Value.plain_array.mp h item hm)

end Field

end GameRoster
