import GameRoster.Registry.Verification

namespace GameRoster

theorem Check.bind_ok {ε α β : Type} {x : Except ε α} {f : α → Except ε β} {b : β} :
    x >>= f = .ok b ↔ ∃ a, x = .ok a ∧ f a = .ok b := by
  cases x with
  | error fault => simp [bind, Except.bind]
  | ok a => simp [bind, Except.bind]

theorem Check.then_ok {β : Type} {x : Check Unit} {y : Unit → Check β} {b : β} :
    x >>= y = .ok b ↔ x = .ok () ∧ y () = .ok b := by
  rw [Check.bind_ok]
  constructor
  · rintro ⟨⟨⟩, hx, hy⟩
    exact ⟨hx, hy⟩
  · rintro ⟨hx, hy⟩
    exact ⟨(), hx, hy⟩

theorem Check.pure_ok {α : Type} {a b : α} : (pure a : Check α) = .ok b ↔ a = b := by
  simp [pure, Except.pure]

theorem Check.bind_error {α β : Type} {x : Check α} {f : α → Check β} {fault : Fault} :
    x >>= f = .error fault ↔ x = .error fault ∨ ∃ a, x = .ok a ∧ f a = .error fault := by
  cases x with
  | error other => simp [bind, Except.bind]
  | ok a => simp [bind, Except.bind]

theorem Check.then_error {β : Type} {x : Check Unit} {y : Unit → Check β} {fault : Fault} :
    x >>= y = .error fault ↔ x = .error fault ∨ x = .ok () ∧ y () = .error fault := by
  rw [Check.bind_error]
  exact or_congr_right ⟨fun ⟨_, h⟩ => h, fun h => ⟨(), h⟩⟩

section Conditions

variable {c : Prop} [Decidable c] {fault other : Fault}

theorem Check.condition_ok :
    (if c then .ok () else .error fault : Check Unit) = .ok () ↔ c := by
  split <;> simp_all

theorem Check.condition_error :
    (if c then .ok () else .error other : Check Unit) = .error fault ↔ ¬ c ∧ fault = other := by
  split <;> simp_all [eq_comm]

theorem Check.refuse_ok {x : Check Unit} {next : Unit → Check Unit} :
    (if c then .error fault >>= next else x : Check Unit) = .ok () ↔ ¬ c ∧ x = .ok () := by
  split <;> simp_all [bind, Except.bind]

end Conditions

theorem Check.ok_of_isOk {x : Check Unit} (h : x.isOk = true) : x = .ok () := by
  cases x with
  | error fault => simp [Except.isOk, Except.toBool] at h
  | ok a => rfl

theorem Check.exists_of_isOk {ε α : Type} {x : Except ε α} (h : x.isOk = true) :
    ∃ a, x = .ok a := by
  cases x with
  | error fault => simp [Except.isOk, Except.toBool] at h
  | ok a => exact ⟨a, rfl⟩

theorem Check.error_of_isOk {ε α : Type} {x : Except ε α} (h : x.isOk = false) :
    ∃ fault, x = .error fault := by
  cases x with
  | error fault => exact ⟨fault, rfl⟩
  | ok a => simp [Except.isOk, Except.toBool] at h

theorem Check.not_ok {x : Check Unit} : ¬ x = .ok () ↔ ∃ fault, x = .error fault := by
  cases x <;> simp

theorem Check.any_ok {ε α : Type} {x : Except ε α} {p : α → Bool}
    (h : x.toOption.any p = true) {a : α} (ha : x = .ok a) : p a = true := by
  subst ha
  exact h

theorem Check.integrity_ok {holds : Bool} {loc : Location} {rule : IntegrityRule} :
    Check.integrity holds loc rule = .ok () ↔ holds = true := by
  cases holds <;> simp [Check.integrity]

/-- Whatever a check yields, if it yields anything, is as wanted. -/
def Check.Yields {α : Type} (wanted : α → Prop) (x : Check α) : Prop :=
  ∀ a, x = .ok a → wanted a

namespace Check.Yields

variable {α β : Type} {wanted : β → Prop}

theorem pure {b : β} (h : wanted b) : Check.Yields wanted (Pure.pure b) := by
  intro a ha
  obtain rfl := Check.pure_ok.mp ha
  exact h

theorem ok {b : β} (h : wanted b) : Check.Yields wanted (.ok b) := pure h

theorem fault {f : Fault} : Check.Yields wanted (.error f) := by
  intro b hb
  cases hb

theorem mono {weaker : β → Prop} {x : Check β} (h : Check.Yields wanted x)
    (himp : ∀ b, wanted b → weaker b) : Check.Yields weaker x :=
  fun b hb => himp b (h b hb)

theorem bind {x : Check α} {f : α → Check β} (h : ∀ a, x = .ok a → Check.Yields wanted (f a)) :
    Check.Yields wanted (x >>= f) := by
  intro b hb
  obtain ⟨a, hx, hf⟩ := Check.bind_ok.mp hb
  exact h a hx b hf

/-- A step that only supplies a field says nothing about the others. -/
theorem step {x : Check α} {f : α → Check β} (h : ∀ a, Check.Yields wanted (f a)) :
    Check.Yields wanted (x >>= f) :=
  bind fun a _ => h a

end Check.Yields

theorem Location.checkEach_ok {α : Type} {check : Location → α → Check Unit} {P : α → Prop}
    (h : ∀ loc item, check loc item = .ok () ↔ P item) (loc : Location) (items : List α) :
    loc.checkEach check items = .ok () ↔ ∀ item ∈ items, P item := by
  unfold Location.checkEach
  generalize 0 = i
  induction items generalizing i with
  | nil => simp [Location.checkFrom, Check.pure_ok]
  | cons item rest ih => simp [Location.checkFrom, Check.then_ok, h, ih]

theorem Location.checkRows_ok {family : Id.Family} {β : Type}
    {check : Location → Ref family → β → Check Unit} {P : Ref family → β → Prop}
    (h : ∀ loc id row, check loc id row = .ok () ↔ P id row) (loc : Location)
    (rows : List (Ref family × β)) :
    loc.checkRows check rows = .ok () ↔ ∀ row ∈ rows, P row.1 row.2 := by
  induction rows with
  | nil => simp [Location.checkRows]
  | cons row rest ih => simp [Location.checkRows, Check.then_ok, h, ih]

section Outcomes

variable {α β : Type}

/-- Reading items one by one has the outcome of reading them without warnings. -/
theorem Location.result_each (loc : Location) (read : Location → α → Checked β)
    (items : List α) :
    (loc.each read items).result = loc.each (fun loc item => (read loc item).result) items := by
  unfold Location.each
  generalize 0 = i
  induction items generalizing i with
  | nil => rfl
  | cons item rest ih =>
    simp only [Location.eachFrom, Checked.result_bind, ih]
    rfl

theorem Location.result_eachKey (loc : Location) (read : Location → String → α → Checked β)
    (entries : List (String × α)) :
    (loc.eachKey read entries).result =
      loc.eachKey (fun loc name item => (read loc name item).result) entries := by
  induction entries with
  | nil => rfl
  | cons entry rest ih =>
    obtain ⟨name, item⟩ := entry
    simp only [Location.eachKey, Checked.result_bind, ih]
    rfl

theorem Field.result_optional (read : Value → Checked α) (raw : Value) :
    (Field.optional read raw).result = Field.optional (fun raw => (read raw).result) raw := by
  unfold Field.optional
  cases Field.present? raw with
  | none => rfl
  | some raw => rw [Checked.result_bind]; rfl

theorem Field.result_orElse (default : α) (read : Value → Checked α) (raw : Value) :
    (Field.orElse default read raw).result =
      Field.orElse default (fun raw => (read raw).result) raw := by
  unfold Field.orElse
  cases Field.present? raw with
  | none => rfl
  | some raw => rfl

end Outcomes

namespace Resource

theorem character?_some {r : Resource} {c : Character} :
    r.character? = some c ↔ r = .character c := by
  cases r <;> simp [character?]

theorem style?_some {r : Resource} {s : Style} : r.style? = some s ↔ r = .style s := by
  cases r <;> simp [style?]

theorem equipment?_some {r : Resource} {e : Equipment} :
    r.equipment? = some e ↔ r = .equipment e := by
  cases r <;> simp [equipment?]

theorem entry?_some {r : Resource} {e : Entry} : r.entry? = some e ↔ r = .entry e := by
  cases r <;> simp [ entry?]

theorem perk?_some {r : Resource} {p : Perk} : r.perk? = some p ↔ r = .perk p := by
  cases r <;> simp [perk?]

theorem accessoryPool?_some {r : Resource} {p : AccessoryPool} :
    r.accessoryPool? = some p ↔ r = .accessoryPool p := by
  cases r <;> simp [accessoryPool?]

theorem actionMove?_some {r : Resource} {a : ActionMove} :
    r.actionMove? = some a ↔ r = .actionMove a := by
  cases r <;> simp [actionMove?]

end Resource

namespace Registry

/-- What a reference to an id finds when it is seen through a view. -/
def lookup? {α : Type} (reg : Registry) (view : Resource → Option α) (id : String) : Option α :=
  (reg.find? id).bind view

theorem find_ok {reg : Registry} {loc : Location} {id : String} {r : Resource} :
    reg.find loc id = .ok r ↔ reg.find? id = some r := by
  unfold Registry.find
  cases reg.find? id <;> simp

theorem findAs_ok {α : Type} {reg : Registry} {expected : Expected} {view : Resource → Option α}
    {loc : Location} {id : String} {a : α} :
    reg.findAs expected view loc id = .ok a ↔ reg.lookup? view id = some a := by
  simp only [Registry.findAs, Check.bind_ok, find_ok, lookup?, Option.bind_eq_some_iff]
  refine exists_congr fun r => and_congr_right fun _ => ?_
  cases view r <;> simp [Check.pure_ok]

theorem findAs_then {α β : Type} {reg : Registry} {expected : Expected}
    {view : Resource → Option α} {loc : Location} {id : String} {f : α → Check β} {b : β} :
    reg.findAs expected view loc id >>= f = .ok b ↔
      ∃ a, reg.lookup? view id = some a ∧ f a = .ok b := by
  simp only [Check.bind_ok, findAs_ok]

theorem findVariable_then {β : Type} {reg : Registry} {loc : Location} {id : String}
    {f : Variable → Check β} {b : β} :
    reg.findVariable loc id >>= f = .ok b ↔ ∃ v, reg.definition? id = some v ∧ f v = .ok b := by
  unfold Registry.findVariable
  cases reg.definition? id with
  | none => simp [bind, Except.bind]
  | some v => simp [bind, Except.bind]

theorem lookup_view {α : Type} {reg : Registry} {view : Resource → Option α}
    {make : α → Resource} (h : ∀ {r a}, view r = some a ↔ r = make a) {id : String} {a : α} :
    reg.lookup? view id = some a ↔ reg.find? id = some (make a) := by
  simp only [lookup?, Option.bind_eq_some_iff, h]
  constructor
  · rintro ⟨r, hr, rfl⟩
    exact hr
  · intro hr
    exact ⟨_, hr, rfl⟩

section Views

variable {reg : Registry} {id : String}

theorem lookup_character {c : Character} :
    reg.lookup? Resource.character? id = some c ↔ reg.find? id = some (.character c) :=
  lookup_view Resource.character?_some

theorem lookup_style {s : Style} :
    reg.lookup? Resource.style? id = some s ↔ reg.find? id = some (.style s) :=
  lookup_view Resource.style?_some

theorem lookup_equipment {e : Equipment} :
    reg.lookup? Resource.equipment? id = some e ↔ reg.find? id = some (.equipment e) :=
  lookup_view Resource.equipment?_some

theorem lookup_entry {e : Entry} :
    reg.lookup? Resource.entry? id = some e ↔ reg.find? id = some (.entry e) :=
  lookup_view Resource.entry?_some

theorem lookup_perk {p : Perk} :
    reg.lookup? Resource.perk? id = some p ↔ reg.find? id = some (.perk p) :=
  lookup_view Resource.perk?_some

theorem lookup_accessoryPool {p : AccessoryPool} :
    reg.lookup? Resource.accessoryPool? id = some p ↔ reg.find? id = some (.accessoryPool p) :=
  lookup_view Resource.accessoryPool?_some

theorem lookup_actionMove {a : ActionMove} :
    reg.lookup? Resource.actionMove? id = some a ↔ reg.find? id = some (.actionMove a) :=
  lookup_view Resource.actionMove?_some

end Views

theorem mem_of_find {reg : Registry} {id : String} {r : Resource} (h : reg.find? id = some r) :
    r ∈ reg.resources ∧ r.id = id :=
  ⟨List.mem_of_find?_eq_some h, by simpa using List.find?_some h⟩

end Registry

end GameRoster
