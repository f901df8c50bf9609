import GameRoster.Proofs.Building
import GameRoster.Proofs.Verified

namespace GameRoster

/-- Some item fails, and every item before it passes. -/
def FirstToFail {α : Type} (passes fails : Nat → α → Prop) (items : List α) : Prop :=
  ∃ i item, items[i]? = some item ∧ fails i item ∧
    ∀ j earlier, j < i → items[j]? = some earlier → passes j earlier

namespace FirstToFail

variable {α : Type} {passes fails : Nat → α → Prop}

theorem nil : ¬ FirstToFail passes fails [] := by
  rintro ⟨i, item, h, -⟩
  simp at h

theorem cons {item : α} {rest : List α} :
    FirstToFail passes fails (item :: rest) ↔ fails 0 item ∨
      passes 0 item ∧ FirstToFail (fun i => passes (i + 1)) (fun i => fails (i + 1)) rest := by
  constructor
  · rintro ⟨i, found, hi, hfails, hearlier⟩
    cases i with
    | zero =>
      obtain rfl := Option.some.inj hi
      exact .inl hfails
    | succ i =>
      refine .inr ⟨hearlier 0 item (Nat.succ_pos i) rfl, i, found, hi, hfails, ?_⟩
      intro j earlier hj hm
      exact hearlier (j + 1) earlier (Nat.succ_lt_succ hj) hm
  · rintro (hfails | ⟨hpasses, i, found, hi, hfails, hearlier⟩)
    · exact ⟨0, item, rfl, hfails, fun j earlier hj => absurd hj (Nat.not_lt_zero j)⟩
    · refine ⟨i + 1, found, hi, hfails, ?_⟩
      intro j earlier hj hm
      cases j with
      | zero =>
        obtain rfl := Option.some.inj hm
        exact hpasses
      | succ j => exact hearlier j earlier (Nat.lt_of_succ_lt_succ hj) hm

end FirstToFail

namespace Location

variable {α : Type} {check : Location → α → Check Unit} {loc : Location} {items : List α}

/-- Items pass together if each of them passes at its own index. -/
theorem checkEach_at : loc.checkEach check items = .ok () ↔
    ∀ i item, items[i]? = some item → check (loc.index i) item = .ok () := by
  have hfrom : ∀ k, loc.checkFrom check k items = .ok () ↔
      ∀ i item, items[i]? = some item → check (loc.index (k + i)) item = .ok () := by
    induction items with
    | nil => simp [checkFrom, Check.pure_ok]
    | cons first rest ih =>
      intro k
      rw [checkFrom, Check.then_ok, ih (k + 1)]
      constructor
      · rintro ⟨hfirst, hrest⟩ i item hi
        cases i with
        | zero =>
          obtain rfl := Option.some.inj hi
          exact hfirst
        | succ i =>
          rw [← Nat.succ_add_eq_add_succ]
          exact hrest i item hi
      · intro h
        refine ⟨h 0 first rfl, fun i item hi => ?_⟩
        rw [Nat.succ_add_eq_add_succ]
        exact h (i + 1) item hi
  simpa [checkEach] using hfrom 0

/-- Of items that fail the first one decides. -/
theorem checkEach_error {fault : Fault} : loc.checkEach check items = .error fault ↔
    FirstToFail (fun i item => check (loc.index i) item = .ok ())
      (fun i item => check (loc.index i) item = .error fault) items := by
  have hfrom : ∀ k, loc.checkFrom check k items = .error fault ↔
      FirstToFail (fun i item => check (loc.index (k + i)) item = .ok ())
        (fun i item => check (loc.index (k + i)) item = .error fault) items := by
    induction items with
    | nil => exact fun k => iff_of_false (by simp [checkFrom, pure, Except.pure]) FirstToFail.nil
    | cons first rest ih =>
      intro k
      rw [checkFrom, Check.then_error, ih (k + 1), FirstToFail.cons]
      simp only [Nat.add_zero, Nat.succ_add_eq_add_succ]
  simpa [checkEach] using hfrom 0

end Location

namespace Variable

/-- A character owns the variable, or all of its styles do, as when it has none. -/
def EntitlesCharacter (v : Variable) (id : String) (c : Character) : Prop :=
  id ∈ v.characters.map Ref.text ∨ ∀ style ∈ c.styles, style ∈ v.styles

/-- A style owns the variable, or its character does. -/
def EntitlesStyle (v : Variable) (id : String) (s : Style) : Prop :=
  id ∈ v.styles.map Ref.text ∨ s.character ∈ v.characters

theorem readableByCharacter_iff {v : Variable} {id : String} {c : Character} :
    v.readableByCharacter c id = true ↔ v.EntitlesCharacter id c := by
  simp only [readableByCharacter, ownedByCharacter, ownedByStyle, Bool.or_eq_true,
    List.all_eq_true, Ref.any_text, Ref.mem_map_text, EntitlesCharacter]

theorem readableByStyle_iff {v : Variable} {id : String} {s : Style} :
    v.readableByStyle s id = true ↔ v.EntitlesStyle id s := by
  simp only [readableByStyle, ownedByCharacter, ownedByStyle, Bool.or_eq_true, Ref.any_text,
    Ref.mem_map_text, EntitlesStyle]

end Variable

namespace Registry

/-- What is registered under an id is of the kind that reads, and entitled to. -/
def Admits {α : Type} (reg : Registry) (make : α → Resource) (entitled : α → Prop)
    (id : String) : Prop :=
  ∃ a, reg.find? id = some (make a) ∧ entitled a

/-- Why a reader is turned away from a variable. -/
inductive Rejects {α : Type} (reg : Registry) (make : α → Resource) (kind : Kind)
    (entitled : α → Prop) (v : Variable) (loc : Location) (id : String) : Fault → Prop
  | missing (h : reg.find? id = none) :
      Rejects reg make kind entitled v loc id (.notFound loc id)
  | mistaken {r : Resource} (h : reg.find? id = some r) (hkind : ∀ a, r ≠ make a) :
      Rejects reg make kind entitled v loc id (.typeMismatch loc id (.kind kind))
  | stranger {a : α} (h : reg.find? id = some (make a)) (hentitled : ¬ entitled a) :
      Rejects reg make kind entitled v loc id (.variable loc (.notOwned id v.id.text))

section Readers

variable (reg : Registry) (v : Variable)

def AdmitsCharacter (id : String) : Prop :=
  reg.Admits .character (v.EntitlesCharacter id) id

def AdmitsStyle (id : String) : Prop := reg.Admits .style (v.EntitlesStyle id) id

def RejectsCharacter (loc : Location) (id : String) : Fault → Prop :=
  reg.Rejects .character .character (v.EntitlesCharacter id) v loc id

def RejectsStyle (loc : Location) (id : String) : Fault → Prop :=
  reg.Rejects .style .style (v.EntitlesStyle id) v loc id

/-- Anyone may read a variable without limits; of another one every reader has to be admitted. -/
def OpenTo (readers : Readers) : Prop :=
  v.unrestricted = true ∨ (∀ id ∈ readers.character, reg.AdmitsCharacter v id) ∧
    ∀ id ∈ readers.styles, reg.AdmitsStyle v id

end Readers

section Decisions

variable {α : Type} (reg : Registry) (each : Location → α → Check Unit) (readers : Readers)
  (loc : Location) (id : Ref .variable) (values : List α)

/-- A binding of a variable that is defined, open to its readers and given a value per level, each
of which passes. -/
structure Grants (v : Variable) : Prop where
  defined : reg.definition? id.text = some v
  openTo : reg.OpenTo v readers
  count : values.length = v.maxLevel + 1
  values : ∀ i a, values[i]? = some a → each (loc.index i) a = .ok ()

/-- The fault of a binding that is not granted: that of the first condition it does not meet. -/
inductive Denies : Fault → Prop
  | undefined (h : reg.definition? id.text = none) :
      Denies (.variable loc (.undefined id.text))
  | character {v : Variable} {who : String} {fault : Fault}
      (hdefined : reg.definition? id.text = some v) (hlimited : v.unrestricted = false)
      (hwho : readers.character = some who) (h : reg.RejectsCharacter v loc who fault) :
      Denies fault
  | style {v : Variable} {fault : Fault} (hdefined : reg.definition? id.text = some v)
      (hlimited : v.unrestricted = false)
      (hcharacter : ∀ who ∈ readers.character, reg.AdmitsCharacter v who)
      (h : FirstToFail (fun _ => reg.AdmitsStyle v) (fun _ who => reg.RejectsStyle v loc who fault)
        readers.styles) : Denies fault
  | count {v : Variable} (hdefined : reg.definition? id.text = some v)
      (hopen : reg.OpenTo v readers) (h : values.length ≠ v.maxLevel + 1) :
      Denies (.variable loc (.valueCount id.text (v.maxLevel + 1)))
  | value {v : Variable} {fault : Fault} (hdefined : reg.definition? id.text = some v)
      (hopen : reg.OpenTo v readers) (hcount : values.length = v.maxLevel + 1)
      (h : FirstToFail (fun i a => each (loc.index i) a = .ok ())
        (fun i a => each (loc.index i) a = .error fault) values) : Denies fault

end Decisions

section Readers

variable {reg : Registry} {v : Variable} {readers : Readers} {loc : Location} {fault : Fault}

theorem readable_iff : reg.Readable v readers ↔ reg.OpenTo v readers := by
  simp only [Readable, OpenTo, AdmitsCharacter, AdmitsStyle, Admits, lookup_character, lookup_style,
    Variable.readableByCharacter_iff, Variable.readableByStyle_iff]

theorem findAs_error {α : Type} {expected : Expected} {view : Resource → Option α} {id : String} :
    reg.findAs expected view loc id = .error fault ↔
      (reg.find? id = none ∧ fault = .notFound loc id) ∨
        ∃ r, reg.find? id = some r ∧ view r = none ∧ fault = .typeMismatch loc id expected := by
  unfold findAs find
  cases reg.find? id with
  | none => simp [bind, Except.bind, eq_comm]
  | some r => cases hv : view r <;> simp [bind, Except.bind, pure, Except.pure, hv, eq_comm]

/-- A reader is looked up, seen as what it reads as, and then judged. -/
theorem rejects_iff {α : Type} {view : Resource → Option α} {make : α → Resource}
    (hview : ∀ {r a}, view r = some a ↔ r = make a) {kind : Kind} {entitled : α → Prop}
    {judge : α → Check Unit} {id : String}
    (hjudge : ∀ a fault, judge a = .error fault ↔
      ¬ entitled a ∧ fault = .variable loc (.notOwned id v.id.text)) :
    reg.findAs (.kind kind) view loc id >>= judge = .error fault ↔
      reg.Rejects make kind entitled v loc id fault := by
  have hblind : ∀ r, view r = none ↔ ∀ a, r ≠ make a := by
    intro r
    rw [Option.eq_none_iff_forall_ne_some]
    exact forall_congr' fun a => not_congr hview
  rw [Check.bind_error, findAs_error]
  simp only [findAs_ok, lookup_view hview]
  constructor
  · rintro ((⟨hr, rfl⟩ | ⟨r, hr, hnone, rfl⟩) | ⟨a, hr, hfault⟩)
    · exact .missing hr
    · exact .mistaken hr ((hblind r).mp hnone)
    · obtain ⟨hentitled, rfl⟩ := (hjudge a fault).mp hfault
      exact .stranger hr hentitled
  · intro h
    cases h with
    | missing hr => exact .inl (.inl ⟨hr, rfl⟩)
    | mistaken hr hkind => exact .inl (.inr ⟨_, hr, (hblind _).mpr hkind, rfl⟩)
    | stranger hr hentitled => exact .inr ⟨_, hr, (hjudge _ _).mpr ⟨hentitled, rfl⟩⟩

theorem checkCharacterReader_error {id : String} :
    reg.checkCharacterReader v loc id = .error fault ↔ reg.RejectsCharacter v loc id fault :=
  rejects_iff Resource.character?_some fun _ _ =>
    Check.condition_error.trans (and_congr_left' (not_congr Variable.readableByCharacter_iff))

theorem checkStyleReader_error {id : String} :
    reg.checkStyleReader v loc id = .error fault ↔ reg.RejectsStyle v loc id fault :=
  rejects_iff Resource.style?_some fun _ _ =>
    Check.condition_error.trans (and_congr_left' (not_congr Variable.readableByStyle_iff))

theorem checkCharacterReader_admits {id : String} :
    reg.checkCharacterReader v loc id = .ok () ↔ reg.AdmitsCharacter v id := by
  simp only [checkCharacterReader_ok, lookup_character, Variable.readableByCharacter_iff,
    AdmitsCharacter, Admits]

theorem checkStyleReader_admits {id : String} :
    reg.checkStyleReader v loc id = .ok () ↔ reg.AdmitsStyle v id := by
  simp only [checkStyleReader_ok, lookup_style, Variable.readableByStyle_iff, AdmitsStyle, Admits]

theorem checkStyleReaders_error {ids : List String} :
    reg.checkStyleReaders v loc ids = .error fault ↔
      FirstToFail (fun _ => reg.AdmitsStyle v) (fun _ id => reg.RejectsStyle v loc id fault)
        ids := by
  induction ids with
  | nil => exact iff_of_false (by simp [checkStyleReaders]) FirstToFail.nil
  | cons id rest ih =>
    rw [checkStyleReaders, Check.then_error, FirstToFail.cons, checkStyleReader_error,
      checkStyleReader_admits, ih]

/-- Readers are looked at only if the variable is limited, and the styles only if the character is
admitted. -/
theorem checkReaders_error :
    reg.checkReaders v readers loc = .error fault ↔ v.unrestricted = false ∧
      ((∃ id, readers.character = some id ∧ reg.RejectsCharacter v loc id fault) ∨
        (∀ id ∈ readers.character, reg.AdmitsCharacter v id) ∧
          FirstToFail (fun _ => reg.AdmitsStyle v) (fun _ id => reg.RejectsStyle v loc id fault)
            readers.styles) := by
  obtain ⟨character, styles⟩ := readers
  unfold checkReaders
  cases v.unrestricted with
  | true => simp
  | false =>
    cases character with
    | none => simp [checkStyleReaders_error]
    | some id =>
      simp [Check.then_error, checkCharacterReader_error, checkCharacterReader_admits,
        checkStyleReaders_error]

end Readers

section Decisions

variable {α : Type} {reg : Registry} {each : Location → α → Check Unit} {readers : Readers}
  {loc : Location} {id : Ref .variable} {values : List α}

theorem grants_iff : reg.checkSettingWith each readers loc (.bound id values) = .ok () ↔
    ∃ v, reg.Grants each readers loc id values v := by
  constructor
  · intro h
    obtain ⟨v, hd, -⟩ := findVariable_then.mp h
    rw [checkSettingWith_defined hd, Check.then_ok, Check.then_ok, checkReaders_ok, readable_iff,
      Check.condition_ok, Location.checkEach_at] at h
    obtain ⟨hopen, hcount, hvalues⟩ := h
    exact ⟨v, hd, hopen, hcount.symm, hvalues⟩
  · rintro ⟨v, h⟩
    rw [checkSettingWith_defined h.defined, Check.then_ok, Check.then_ok, checkReaders_ok,
      readable_iff, Check.condition_ok, Location.checkEach_at]
    exact ⟨h.openTo, h.count.symm, h.values⟩

/-- Each check fails only where those before it passed. -/
theorem checkSettingWith_error {v : Variable} {fault : Fault}
    (hd : reg.definition? id.text = some v) :
    reg.checkSettingWith each readers loc (.bound id values) = .error fault ↔
      reg.checkReaders v readers loc = .error fault ∨
      (reg.OpenTo v readers ∧ values.length ≠ v.maxLevel + 1 ∧
        fault = .variable loc (.valueCount id.text (v.maxLevel + 1))) ∨
      (reg.OpenTo v readers ∧ values.length = v.maxLevel + 1 ∧
        loc.checkEach each values = .error fault) := by
  rw [checkSettingWith_defined hd, Check.then_error, Check.then_error, checkReaders_ok,
    readable_iff, Check.condition_ok, Check.condition_error, and_or_left,
    eq_comm (a := v.maxLevel + 1)]

theorem denies_iff {fault : Fault} :
    reg.checkSettingWith each readers loc (.bound id values) = .error fault ↔
      reg.Denies each readers loc id values fault := by
  constructor
  · intro h
    cases hd : reg.definition? id.text with
    | none =>
      rw [checkSettingWith_undefined hd] at h
      obtain rfl := Except.error.inj h
      exact .undefined hd
    | some v =>
      rw [checkSettingWith_error hd, checkReaders_error, Location.checkEach_error] at h
      rcases h with ⟨hlimited, h | h⟩ | ⟨hopen, hcount, rfl⟩ | ⟨hopen, hcount, h⟩
      · obtain ⟨who, hwho, hrejects⟩ := h
        exact .character hd hlimited hwho hrejects
      · exact .style hd hlimited h.1 h.2
      · exact .count hd hopen hcount
      · exact .value hd hopen hcount h
  · intro h
    cases h with
    | undefined hd => exact checkSettingWith_undefined hd
    | character hd hlimited hwho h =>
      exact (checkSettingWith_error hd).mpr
        (.inl (checkReaders_error.mpr ⟨hlimited, .inl ⟨_, hwho, h⟩⟩))
    | style hd hlimited hcharacter h =>
      exact (checkSettingWith_error hd).mpr
        (.inl (checkReaders_error.mpr ⟨hlimited, .inr ⟨hcharacter, h⟩⟩))
    | count hd hopen hcount =>
      exact (checkSettingWith_error hd).mpr (.inr (.inl ⟨hopen, hcount, rfl⟩))
    | value hd hopen hcount h =>
      exact (checkSettingWith_error hd).mpr
        (.inr (.inr ⟨hopen, hcount, Location.checkEach_error.mpr h⟩))

/-- A plain value passes. A binding passes exactly if it is granted, and is refused for the first of
the conditions that it does not meet otherwise. -/
theorem setting_decided (reg : Registry) (each : Location → α → Check Unit) (readers : Readers)
    (loc : Location) :
    (∀ a, reg.checkSettingWith each readers loc (.fixed a) = .ok ()) ∧
    ∀ id values,
      (reg.checkSettingWith each readers loc (.bound id values) = .ok () ↔
        ∃ v, reg.Grants each readers loc id values v) ∧
      ∀ fault, reg.checkSettingWith each readers loc (.bound id values) = .error fault ↔
        reg.Denies each readers loc id values fault := by
  refine ⟨fun a => rfl, fun id values => ⟨grants_iff, fun fault => denies_iff⟩⟩

end Decisions

end Registry

end GameRoster
