import GameRoster.Proofs.Checks

namespace GameRoster

namespace Registry

/-- Every reader of a restricted variable is registered and may read it. -/
def Readable (reg : Registry) (v : Variable) (readers : Readers) : Prop :=
  v.unrestricted = true ∨
    (∀ id ∈ readers.character, ∃ c, reg.lookup? Resource.character? id = some c ∧
      v.readableByCharacter c id = true) ∧
    ∀ id ∈ readers.styles, ∃ s, reg.lookup? Resource.style? id = some s ∧
      v.readableByStyle s id = true

/-- A binding lists one value per level of a readable variable. A plain value needs no
variable. -/
def Allows {α : Type} (reg : Registry) (readers : Readers) : Setting α → Prop
  | .fixed _ => True
  | .bound id values => ∃ v, reg.definition? id.text = some v ∧ reg.Readable v readers ∧
      values.length = v.maxLevel + 1

theorem allows_fixed {α : Type} {reg : Registry} {readers : Readers} {setting : Setting α}
    (h : setting.isFixed = true) : reg.Allows readers setting := by
  cases setting with
  | fixed a => trivial
  | bound id values => cases h

/-- Every index in a table is a level of its variable. -/
def AllowsTable (reg : Registry) (readers : Readers) (table : IndexTable) : Prop :=
  ∀ row ∈ table, ∃ v, reg.definition? row.1.text = some v ∧ reg.Readable v readers ∧
    ∀ index ∈ row.2, index ≤ v.maxLevel

theorem checkCharacterReader_ok {reg : Registry} {v : Variable} {loc : Location} {id : String} :
    reg.checkCharacterReader v loc id = .ok () ↔
      ∃ c, reg.lookup? Resource.character? id = some c ∧ v.readableByCharacter c id = true := by
  simp only [checkCharacterReader, findCharacter, findAs_then]
  exact exists_congr fun c => and_congr_right fun _ => Check.condition_ok

theorem checkStyleReader_ok {reg : Registry} {v : Variable} {loc : Location} {id : String} :
    reg.checkStyleReader v loc id = .ok () ↔
      ∃ s, reg.lookup? Resource.style? id = some s ∧ v.readableByStyle s id = true := by
  simp only [checkStyleReader, findStyle, findAs_then]
  exact exists_congr fun s => and_congr_right fun _ => Check.condition_ok

theorem checkStyleReaders_ok {reg : Registry} {v : Variable} {loc : Location}
    {ids : List String} :
    reg.checkStyleReaders v loc ids = .ok () ↔
      ∀ id ∈ ids, ∃ s, reg.lookup? Resource.style? id = some s ∧ v.readableByStyle s id = true := by
  induction ids with
  | nil => simp [checkStyleReaders]
  | cons id rest ih => simp [checkStyleReaders, Check.then_ok, checkStyleReader_ok, ih]

theorem checkReaders_ok {reg : Registry} {v : Variable} {readers : Readers} {loc : Location} :
    reg.checkReaders v readers loc = .ok () ↔ reg.Readable v readers := by
  unfold checkReaders Readable
  by_cases hu : v.unrestricted = true
  · simp [hu]
  · obtain ⟨character, styles⟩ := readers
    cases character with
    | none => simp [hu, checkStyleReaders_ok]
    | some id => simp [hu, checkStyleReaders_ok, checkCharacterReader_ok, Check.then_ok]

section Bindings

variable {α : Type} {reg : Registry} {each : Location → α → Check Unit} {readers : Readers}
  {loc : Location} {id : Ref .variable} {values : List α}

theorem checkSettingWith_undefined (hd : reg.definition? id.text = none) :
    reg.checkSettingWith each readers loc (.bound id values) =
      .error (.variable loc (.undefined id.text)) := by
  simp only [checkSettingWith, findVariable, hd]
  rfl

/-- The checks that follow once the variable of a binding is found. -/
theorem checkSettingWith_defined {v : Variable} (hd : reg.definition? id.text = some v) :
    reg.checkSettingWith each readers loc (.bound id values) =
      (reg.checkReaders v readers loc >>= fun _ =>
        (if v.maxLevel + 1 = values.length then .ok ()
          else .error (.variable loc (.valueCount id.text (v.maxLevel + 1)))) >>= fun _ =>
        loc.checkEach each values) := by
  simp only [checkSettingWith, findVariable, hd]
  refine congrArg (Bind.bind (reg.checkReaders v readers loc)) (funext fun _ => ?_)
  by_cases hcount : v.maxLevel + 1 = values.length
  · rw [if_pos hcount, if_neg (not_not_intro hcount)]
    rfl
  · rw [if_neg hcount, if_pos hcount]

theorem checkSettingWith_bound_ok {P : α → Prop} (h : ∀ loc a, each loc a = .ok () ↔ P a) :
    reg.checkSettingWith each readers loc (.bound id values) = .ok () ↔
      reg.Allows readers (.bound id values) ∧ ∀ a ∈ values, P a := by
  cases hd : reg.definition? id.text with
  | none => simp [checkSettingWith_undefined hd, Allows, hd]
  | some v =>
    rw [checkSettingWith_defined hd, Check.then_ok, Check.then_ok, checkReaders_ok,
      Check.condition_ok, Location.checkEach_ok h]
    simp [Allows, hd, eq_comm, and_assoc]

end Bindings

theorem checkSetting_ok {α : Type} {reg : Registry} {readers : Readers} {loc : Location}
    {setting : Setting α} :
    reg.checkSetting readers loc setting = .ok () ↔ reg.Allows readers setting := by
  cases setting with
  | fixed a => simp [checkSetting, checkSettingWith, Allows]
  | bound id values =>
    exact (checkSettingWith_bound_ok (P := fun _ => True) fun _ _ => by simp).trans (by simp)

theorem checkIndex_ok {v : Variable} {loc : Location} {index : Int} :
    checkIndex v loc index = .ok () ↔ index ≤ v.maxLevel := by
  unfold checkIndex
  split
  · rename_i h
    simp only [reduceCtorEq, false_iff]
    omega
  · rename_i h
    simp only [true_iff]
    omega

theorem checkIndexes_ok {v : Variable} {loc : Location} {indexes : List Int} :
    loc.checkEach (checkIndex v) indexes = .ok () ↔ ∀ index ∈ indexes, index ≤ v.maxLevel :=
  Location.checkEach_ok (P := fun index : Int => index ≤ v.maxLevel) (fun _ _ => checkIndex_ok)
    loc indexes

theorem checkIndexTable_ok {reg : Registry} {readers : Readers} {loc : Location}
    {table : IndexTable} :
    reg.checkIndexTable readers loc table = .ok () ↔ reg.AllowsTable readers table := by
  induction table with
  | nil => simp [checkIndexTable, AllowsTable]
  | cons row rest ih =>
    have hrest : AllowsTable reg readers (row :: rest) ↔
        (∃ v, reg.definition? row.1.text = some v ∧ reg.Readable v readers ∧
          ∀ index ∈ row.2, index ≤ v.maxLevel) ∧ AllowsTable reg readers rest := by
      simp [AllowsTable]
    rw [hrest, ← ih]
    simp only [checkIndexTable, findVariable_then, Check.then_ok, checkReaders_ok,
      checkIndexes_ok]
    constructor
    · rintro ⟨v, hv, hr, hi, ht⟩
      exact ⟨⟨v, hv, hr, hi⟩, ht⟩
    · rintro ⟨⟨v, hv, hr, hi⟩, ht⟩
      exact ⟨v, hv, hr, hi, ht⟩

end Registry

theorem IndexTable.verifyOptional_ok {reg : Registry} {readers : Readers} {loc : Location}
    {table : Option IndexTable} :
    IndexTable.verifyOptional reg readers loc table = .ok () ↔
      ∀ t ∈ table, reg.AllowsTable readers t := by
  cases table with
  | none => simp [IndexTable.verifyOptional]
  | some t => simp [IndexTable.verifyOptional, Registry.checkIndexTable_ok]

end GameRoster
