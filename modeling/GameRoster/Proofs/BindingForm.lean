import GameRoster.Action.Base
import GameRoster.Proofs.Bounds
import GameRoster.Proofs.Ids

namespace GameRoster

/-- The lengths that a list may have. -/
structure Lengths.Permits (lengths : Lengths) (length : Nat) : Prop where
  exact : ∀ n ∈ lengths.exact, length = n
  least : ∀ n ∈ lengths.least, n ≤ length
  greatest : ∀ n ∈ lengths.greatest, length ≤ n

theorem Lengths.check_ok {lengths : Lengths} {loc : Location} {length : Nat} :
    lengths.check loc length = .ok () ↔ lengths.Permits length := by
  have hpermits : lengths.Permits length ↔ (∀ n ∈ lengths.exact, length = n) ∧
      (∀ n ∈ lengths.least, n ≤ length) ∧ ∀ n ∈ lengths.greatest, length ≤ n :=
    ⟨fun h => ⟨h.exact, h.least, h.greatest⟩, fun ⟨he, hl, hg⟩ => ⟨he, hl, hg⟩⟩
  unfold check
  extract_lets checkGreatest checkLeast
  have hgreatest : checkGreatest () = .ok () ↔ ∀ n ∈ lengths.greatest, length ≤ n := by
    unfold checkGreatest
    cases lengths.greatest with
    | none => simp [Check.pure_ok]
    | some n =>
      simp only [Option.mem_some_iff, forall_eq', ← Nat.not_lt]
      split <;> simp_all [Check.field, Check.pure_ok]
  have hleast : checkLeast () = .ok () ↔ (∀ n ∈ lengths.least, n ≤ length) ∧
      ∀ n ∈ lengths.greatest, length ≤ n := by
    unfold checkLeast
    cases lengths.least with
    | none => simp [hgreatest]
    | some n => exact Check.refuse_ok.trans (by simp [hgreatest])
  rw [hpermits, ← hleast]
  cases lengths.exact with
  | none => simp
  | some n => exact Check.refuse_ok.trans (by simp)

/-- A binding has at least two values, and a bound below two stands for two. -/
structure BindingLimits.Permits (limits : BindingLimits) (count : Nat) : Prop where
  least_two : 2 ≤ count
  exact : ∀ n ∈ limits.lengths.exact, count = max 2 n
  least : ∀ n ∈ limits.lengths.least, max 2 n ≤ count
  greatest : ∀ n ∈ limits.lengths.greatest, count ≤ max 2 n

theorem BindingLimits.valueLengths_permits {limits : BindingLimits} {count : Nat} :
    limits.valueLengths.Permits count ↔ limits.Permits count := by
  constructor
  · intro h
    have hleast := h.least _ rfl
    constructor
    case least_two => omega
    case exact => exact fun n hn => h.exact _ (Option.mem_map_of_mem _ hn)
    case least =>
      intro n hn
      rwa [Option.mem_def.mp hn] at hleast
    case greatest => exact fun n hn => h.greatest _ (Option.mem_map_of_mem _ hn)
  · intro h
    constructor
    case exact => simpa [valueLengths] using h.exact
    case least =>
      rintro _ ⟨⟩
      cases hl : limits.lengths.least with
      | none => exact h.least_two
      | some n => exact h.least n hl
    case greatest => simpa [valueLengths] using h.greatest

/-- Two passes over a list find what one pass finds that takes both steps at each item. -/
theorem Location.each_bind {α β γ : Type} {loc : Location} {first : Location → α → Check β}
    {next : Location → β → Check γ} {items : List α} {results : List γ} :
    (∃ found, loc.each first items = .ok found ∧ loc.each next found = .ok results) ↔
      loc.each (fun loc item => first loc item >>= next loc) items = .ok results := by
  unfold each
  generalize 0 = i
  induction items generalizing i results with
  | nil => simp [eachFrom, Check.pure_ok]
  | cons item rest ih =>
    simp only [eachFrom, Check.bind_ok, Check.pure_ok, ← ih]
    constructor
    · rintro ⟨_, ⟨b, hb, bs, hbs, rfl⟩, hnext⟩
      simp only [eachFrom, Check.bind_ok, Check.pure_ok] at hnext
      obtain ⟨c, hc, cs, hcs, rfl⟩ := hnext
      exact ⟨c, ⟨b, hb, hc⟩, cs, ⟨bs, hbs, hcs⟩, rfl⟩
    · rintro ⟨c, ⟨b, hb, hc⟩, cs, ⟨bs, hbs, hcs⟩, rfl⟩
      refine ⟨b :: bs, ⟨b, hb, bs, hbs, rfl⟩, ?_⟩
      simp only [eachFrom, Check.bind_ok, Check.pure_ok]
      exact ⟨c, hc, cs, hcs, rfl⟩

namespace Ref

variable {family : Id.Family}

theorem ofText_ok {loc : Location} {text : String} {ref : Ref family} :
    ofText family loc text = .ok ref ↔ ref.text = text := by
  constructor
  · exact ofText_text loc text ref
  · rintro rfl
    obtain ⟨parts, hparts⟩ := ref.wellFormed
    unfold ofText parse?
    split
    · rename_i parsed hparsed
      split at hparsed
      · obtain rfl := Except.ok.inj hparsed
        rfl
      · cases hparsed
    · rename_i violation hparsed
      split at hparsed
      · cases hparsed
      · rename_i other herror
        rw [hparts] at herror
        cases herror

/-- Where ids may be repeated, it does not matter which are taken. -/
theorem listFrom_repeats {loc : Location} {i : Nat} {taken texts : List String} :
    listFrom family true loc i taken texts = loc.eachFrom (ofText family) i texts := by
  induction texts generalizing i taken with
  | nil => rfl
  | cons text rest ih =>
    rw [listFrom, Location.eachFrom, if_neg (by simp)]
    simp only [ih]

theorem ofValue_eq (loc : Location) (raw : Value) :
    ofValue family loc raw = textOf loc raw >>= ofText family loc := by
  cases raw <;> rfl

/-- An id of a variable opens with a hash mark and a point. -/
theorem opens (id : Ref .variable) : (Text.strip? ['#', '.'] id.text.toList).isSome = true := by
  obtain ⟨p, -, htext⟩ := id.spells
  rw [htext]
  rfl

end Ref

namespace Field

/-- A reader of lists that reads each item of a list of permitted length with `one`. -/
def ReadsEach {α : Type} (one : Location → Value → Check α)
    (many : Lengths → Location → Value → Check (List α)) : Prop :=
  ∀ lengths loc raw values, many lengths loc raw = .ok values ↔
    ∃ items, raw = .array items ∧ lengths.Permits items.length ∧ loc.each one items = .ok values

theorem list_ok {lengths : Lengths} {loc : Location} {raw : Value} {items : List Value} :
    list lengths loc raw = .ok items ↔ raw = .array items ∧ lengths.Permits items.length := by
  cases raw with
  | array written =>
    simp only [list, Check.then_ok, Lengths.check_ok, Check.pure_ok, Value.array.injEq]
    constructor
    · rintro ⟨h, rfl⟩
      exact ⟨rfl, h⟩
    · rintro ⟨rfl, h⟩
      exact ⟨h, rfl⟩
  | null | bool | number | string | object => simp [list, Check.field]

theorem listOf_readsEach {α : Type} (one : Location → Value → Check α) :
    ReadsEach one fun lengths => listOf lengths one := by
  intro lengths loc raw values
  simp only [listOf, Check.bind_ok, list_ok, and_assoc]

theorem numbers_readsEach {α : Type} [LT α] [DecidableLT α] (one : Location → Value → Check α) :
    ReadsEach one fun lengths => numbers one lengths .any none := by
  intro lengths loc raw values
  rw [← listOf_readsEach one lengths loc raw values]
  simp [numbers, checkOrder, Check.bind_ok]

/-- All texts are read, and then counted, before the first id is. -/
theorem refs_readsEach (family : Id.Family) :
    ReadsEach (Ref.ofValue family) fun lengths => Ref.listOfValue family lengths true [] := by
  intro lengths loc raw refs
  rw [funext₂ Ref.ofValue_eq]
  simp only [← Location.each_bind, Ref.listOfValue, Ref.list, Check.bind_ok, list_ok]
  constructor
  · rintro ⟨items, ⟨hraw, -⟩, texts, htexts, ⟨⟩, hcount, hrefs⟩
    rw [Ref.listFrom_repeats] at hrefs
    rw [Lengths.check_ok, Location.each_length loc items texts htexts] at hcount
    exact ⟨items, hraw, hcount, texts, htexts, hrefs⟩
  · rintro ⟨items, hraw, hcount, texts, htexts, hrefs⟩
    rw [← Location.each_length loc items texts htexts] at hcount
    refine ⟨items, ⟨hraw, ⟨by simp, by simp, by simp⟩⟩, texts, htexts, (), ?_, ?_⟩
    · exact Lengths.check_ok.mpr hcount
    · rw [Ref.listFrom_repeats]
      exact hrefs

end Field

namespace Setting

variable {α : Type}

/-- A value is written as a binding: a list of an id and the list of the values, and the others
behind them. -/
def BoundBy (limits : BindingLimits) (one : Location → Value → Check α) (loc : Location)
    (raw : Value) (id : Ref .variable) (values : List α) (others : List Value) : Prop :=
  ∃ items, raw = .array (.string id.text :: .array items :: others) ∧
    limits.Permits items.length ∧
    List.Forall₂ (fun item v => one ((loc.field "values").index item.2) item.1 = .ok v)
      items.zipIdx values

/-- What a setting read from `raw` has to do with the binding that is written there. -/
structure ReadsBinding (limits : BindingLimits) (one : Location → Value → Check α) (loc : Location)
    (raw : Value) (setting : Check (Setting α)) : Prop where
  bound : ∀ id values, setting = .ok (.bound id values) ↔
    ∃ others, BoundBy limits one loc raw id values others
  /-- A binding keeps all that is written, exactly if nothing is written behind its values. -/
  kept : (∀ id values, setting = .ok (.bound id values) → BoundBy limits one loc raw id values []) ↔
    ∀ id values others, BoundBy limits one loc raw id values others → others = []

theorem binding?_eq_some {raw content : Value} {id : String} :
    binding? raw = some (id, content) ↔ ∃ others, raw = .array (.string id :: others) ∧
      (Text.strip? ['#', '.'] id.toList).isSome = true ∧ others.head?.getD .null = content := by
  constructor
  · intro h
    unfold binding? at h
    split at h
    · rename_i text others
      split at h
      · rename_i hopens
        obtain ⟨rfl, rfl⟩ := Prod.mk.inj (Option.some.inj h)
        exact ⟨others, rfl, hopens, rfl⟩
      · cases h
    · cases h
  · rintro ⟨others, rfl, hopens, rfl⟩
    exact if_pos hopens

theorem read_bound {one : Location → Value → Check α}
    {many : Lengths → Location → Value → Check (List α)} (hmany : Field.ReadsEach one many)
    {limits : BindingLimits} {loc : Location} {raw : Value} {id : Ref .variable} {values : List α} :
    read limits one many loc raw = .ok (.bound id values) ↔
      ∃ others, BoundBy limits one loc raw id values others := by
  constructor
  · intro h
    unfold read at h
    split at h
    · rename_i text content hbinding
      simp only [Check.bind_ok, Check.pure_ok] at h
      obtain ⟨ref, href, found, hfound, heq⟩ := h
      obtain ⟨rfl, rfl⟩ := Setting.bound.inj heq
      obtain ⟨items, rfl, hcount, hvalues⟩ := (hmany _ _ _ _).mp hfound
      obtain ⟨others, rfl, -, hcontent⟩ := binding?_eq_some.mp hbinding
      obtain rfl := Ref.ofText_ok.mp href
      cases others with
      | nil => cases hcontent
      | cons second others =>
        obtain rfl : second = .array items := hcontent
        exact ⟨others, items, rfl, BindingLimits.valueLengths_permits.mp hcount,
          Location.each_iff.mp hvalues⟩
    · split at h
      · cases h
      · cases hone : one loc raw with
        | error fault => simp [hone] at h
        | ok a => simp [hone] at h
  · rintro ⟨others, items, rfl, hcount, hvalues⟩
    have hbinding : binding? (.array (.string id.text :: .array items :: others)) =
        some (id.text, .array items) :=
      binding?_eq_some.mpr ⟨_, rfl, id.opens, rfl⟩
    have hread : many limits.valueLengths (loc.field "values") (.array items) = .ok values :=
      (hmany _ _ _ _).mpr ⟨items, rfl, BindingLimits.valueLengths_permits.mpr hcount,
        Location.each_iff.mpr hvalues⟩
    unfold read
    rw [hbinding]
    simp only [Ref.ofText_ok.mpr rfl, hread]
    rfl

theorem read_readsBinding {one : Location → Value → Check α}
    {many : Lengths → Location → Value → Check (List α)} (hmany : Field.ReadsEach one many)
    (limits : BindingLimits) (loc : Location) (raw : Value) :
    ReadsBinding limits one loc raw (read limits one many loc raw) := by
  constructor
  case bound => exact fun id values => read_bound hmany
  case kept =>
    constructor
    · intro hkept id values others hbound
      obtain ⟨_, hraw, -⟩ := hkept id values ((read_bound hmany).mpr ⟨others, hbound⟩)
      obtain ⟨_, rfl, -⟩ := hbound
      simp only [Value.array.injEq, List.cons.injEq] at hraw
      exact hraw.2.2
    · intro hnone id values hread
      obtain ⟨others, hbound⟩ := (read_bound hmany).mp hread
      obtain rfl := hnone id values others hbound
      exact hbound

/-- Every setting that may depend on a variable is read as a binding exactly if it is written as one,
by a valid id and a list of values within its limits, of which each is read as a plain value is. It
then keeps all that is written, unless something is written behind the values. -/
theorem bindings_read (loc : Location) (raw : Value) :
    (∀ limits, ReadsBinding limits Field.bool loc raw (bool limits loc raw)) ∧
    (∀ limits item, ReadsBinding limits (Field.int item) loc raw (int limits item loc raw)) ∧
    (∀ limits item, ReadsBinding limits (Field.float item) loc raw (float limits item loc raw)) ∧
    (∀ limits family,
      ReadsBinding limits (Ref.ofValue family) loc raw (ref limits family loc raw)) ∧
    ReadsBinding {} (DeriveContinue.readSet {}) loc raw (DeriveContinue.readSetting loc raw) := by
  refine ⟨?_, ?_, ?_, ?_, ?_⟩
  · exact fun limits => read_readsBinding (Field.listOf_readsEach Field.bool) limits loc raw
  · intro limits item
    exact read_readsBinding (Field.numbers_readsEach (Field.int item)) limits loc raw
  · intro limits item
    exact read_readsBinding (Field.numbers_readsEach (Field.float item)) limits loc raw
  · exact fun limits family => read_readsBinding (Field.refs_readsEach family) limits loc raw
  · exact read_readsBinding (Field.listOf_readsEach (DeriveContinue.readSet {})) {} loc raw

/-- A binding of two values, and a third item that belongs to neither the id nor the values. -/
def trailing : Value := .array [.string "#.Might", .array [.int 1, .int 2], .int 3]

/-- What an author writes behind the values of a binding is dropped, and nobody is told. -/
theorem third_item_dropped : ¬ ∀ limits item loc raw id values,
    int limits item loc raw = .ok (.bound id values) →
      ∃ first second, raw = .array [first, second] := by
  intro h
  have hbound : (int {} {} (.label "x") trailing).toOption.map isFixed = some false := by
    decide +kernel
  cases hread : int {} {} (.label "x") trailing with
  | error fault => simp [hread, Except.toOption] at hbound
  | ok setting =>
    cases setting with
    | fixed n => simp [hread, Except.toOption, isFixed] at hbound
    | bound id values =>
      obtain ⟨first, second, heq⟩ := h _ _ _ _ _ _ hread
      simp [trailing] at heq

end Setting

end GameRoster
