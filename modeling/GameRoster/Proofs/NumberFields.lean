import GameRoster.Proofs.BindingForm

namespace GameRoster

theorem FloatLimits.check_ok {limits : FloatLimits} {loc : Location} {x : Float} :
    limits.check loc x = .ok () ↔
      (∀ lo ∈ limits.least, ¬ x < lo) ∧ ∀ hi ∈ limits.greatest, ¬ hi < x := by
  obtain ⟨least, greatest⟩ := limits
  unfold check
  cases least with
  | none =>
    cases greatest with
    | none => simp
    | some hi => by_cases hhi : hi < x <;> simp [Check.field, hhi]
  | some lo =>
    cases greatest with
    | none => by_cases hlo : x < lo <;> simp [Check.field, hlo]
    | some hi => by_cases hlo : x < lo <;> by_cases hhi : hi < x <;> simp [Check.field, hlo, hhi]

/-- No two neighbours stand in the wrong order. -/
def Order.Keeps {α : Type} [LT α] (order : Order) (items : List α) : Prop :=
  match order with
  | .any => True
  | .ascending => items.IsChain fun a b => ¬ b < a
  | .descending => items.IsChain fun a b => ¬ a < b

namespace Field

theorem firstBreak?_none {α : Type} {breaks : α → α → Bool} {i : Nat} {items : List α} :
    firstBreak? breaks i items = none ↔ items.IsChain fun a b => breaks a b = false := by
  fun_induction firstBreak? breaks i items with
  | case1 i a b rest h => simp [h]
  | case2 i a b rest h ih => simp [h, ih]
  | case3 items i h =>
    match items with
    | [] => simp
    | [a] => simp
    | a :: b :: rest => exact (h a b rest rfl).elim

theorem float_ok {limits : FloatLimits} {loc : Location} {raw : Value} {x : Float} :
    float limits loc raw = .ok x ↔ floatSource loc raw = .ok x ∧
      (∀ lo ∈ limits.least, ¬ x < lo) ∧ ∀ hi ∈ limits.greatest, ¬ hi < x := by
  rw [float, Check.bind_ok]
  simp only [Check.then_ok, Check.pure_ok, FloatLimits.check_ok]
  constructor
  · rintro ⟨_, hsource, hwithin, rfl⟩
    exact ⟨hsource, hwithin⟩
  · rintro ⟨hsource, hwithin⟩
    exact ⟨x, hsource, hwithin, rfl⟩

section Sequences

variable {α : Type} [LT α] [DecidableLT α] {item : Location → Value → Check α} {loc : Location}
  {raw : Value}

theorem checkOrder_ok {order : Order} {items : List α} :
    checkOrder order loc items = .ok () ↔ order.Keeps items := by
  cases order with
  | any => simp [checkOrder, Order.Keeps]
  | ascending =>
    have hbreak : firstBreak? (fun a b : α => decide (b < a)) 0 items = none ↔ _ :=
      firstBreak?_none
    simp only [decide_eq_false_iff_not] at hbreak
    rw [Order.Keeps, ← hbreak, checkOrder]
    split <;> simp_all [Check.field]
  | descending =>
    have hbreak : firstBreak? (fun a b : α => decide (a < b)) 0 items = none ↔ _ :=
      firstBreak?_none
    simp only [decide_eq_false_iff_not] at hbreak
    rw [Order.Keeps, ← hbreak, checkOrder]
    split <;> simp_all [Check.field]

/-- Items are read in order and then compared with their neighbours. -/
theorem numbers_ok {lengths : Lengths} {order : Order} {first : Option α} {found : List α} :
    numbers item lengths order first loc raw = .ok found ↔
      ∃ raws parsed, raw = .array raws ∧ lengths.Permits raws.length ∧
        loc.each item raws = .ok parsed ∧ order.Keeps parsed ∧ first.toList ++ parsed = found := by
  rw [numbers, Check.bind_ok]
  simp only [listOf, Check.bind_ok (α := List Value), list_ok, Check.then_ok, checkOrder_ok,
    Check.pure_ok]
  constructor
  · rintro ⟨parsed, ⟨raws, ⟨hraw, hlength⟩, heach⟩, hkeeps, hfound⟩
    exact ⟨raws, parsed, hraw, hlength, heach, hkeeps, hfound⟩
  · rintro ⟨raws, parsed, hraw, hlength, heach, hkeeps, hfound⟩
    exact ⟨parsed, ⟨raws, ⟨hraw, hlength⟩, heach⟩, hkeeps, hfound⟩

/-- A range is a list of two numbers. -/
theorem range_ok {a b : α} : range item loc raw = .ok (a, b) ↔
    ∃ first second, raw = .array [first, second] ∧ item (loc.index 0) first = .ok a ∧
      item (loc.index 1) second = .ok b ∧ ¬ b < a := by
  have hpair : ∀ first second parsed, loc.each item [first, second] = .ok parsed ↔
      ∃ a b, item (loc.index 0) first = .ok a ∧ item (loc.index 1) second = .ok b ∧
        parsed = [a, b] := by
    simp [Location.each_iff, List.forall₂_cons_left_iff]
  constructor
  · intro h
    obtain ⟨found, hfound, h⟩ := Check.bind_ok.mp h
    obtain ⟨raws, parsed, rfl, hlength, hread, -, rfl⟩ := numbers_ok.mp hfound
    obtain ⟨first, second, rfl⟩ := List.length_eq_two.mp (hlength.exact 2 rfl)
    obtain ⟨a', b', hfirst, hsecond, rfl⟩ := (hpair first second parsed).mp hread
    simp only [Option.toList_none, List.nil_append] at h
    split at h
    · cases h
    · rename_i hle
      obtain ⟨rfl, rfl⟩ := Prod.mk.inj (Check.pure_ok.mp h)
      exact ⟨first, second, rfl, hfirst, hsecond, hle⟩
  · rintro ⟨first, second, rfl, hfirst, hsecond, hle⟩
    have hlength : (Lengths.exactly 2).check loc [first, second].length = .ok () := rfl
    have heach : loc.each item [first, second] = .ok [a, b] :=
      (hpair _ _ _).mpr ⟨a, b, hfirst, hsecond, rfl⟩
    have hfound : numbers item (.exactly 2) .any none loc (.array [first, second]) = .ok [a, b] :=
      numbers_ok.mpr ⟨_, _, rfl, Lengths.check_ok.mp hlength, heach, trivial, rfl⟩
    refine Check.bind_ok.mpr ⟨_, hfound, ?_⟩
    simp only [hle, if_false]
    rfl

end Sequences

end Field

end GameRoster
