import GameRoster.Proofs.Checks

namespace GameRoster

/-- A location lies at another one or further in. -/
def Location.Holds (outer inner : Location) : Prop :=
  inner.root = outer.root ∧ outer.steps <+: inner.steps

namespace Location.Holds

theorem refl (loc : Location) : loc.Holds loc := ⟨rfl, List.prefix_rfl⟩

theorem trans {outer middle inner : Location} (h : outer.Holds middle) (h' : middle.Holds inner) :
    outer.Holds inner :=
  ⟨h'.1.trans h.1, h.2.trans h'.2⟩

theorem step (loc : Location) (s : Step) : loc.Holds (loc.step s) := ⟨rfl, List.prefix_append _ _⟩

/-- The text of a location opens with the texts of those around it. -/
theorem render {outer inner : Location} (h : outer.Holds inner) :
    ∃ rest, inner.render = outer.render ++ rest := by
  obtain ⟨hroot, steps, hsteps⟩ := h
  refine ⟨String.join (steps.map Step.render), ?_⟩
  unfold Location.render
  rw [hroot, ← hsteps, List.map_append, String.join_append, String.append_assoc]

end Location.Holds

namespace Fault

/-- A fault of a certain sort that stands at a location or further in. -/
structure At (sort : Fault → Prop) (loc : Location) (fault : Fault) : Prop where
  among : sort fault
  place : ∃ place, fault.location? = some place ∧ loc.Holds place

theorem At.here {sort : Fault → Prop} {loc : Location} {fault : Fault} (h : sort fault)
    (hloc : fault.location? = some loc) : fault.At sort loc := ⟨h, loc, hloc, .refl loc⟩

theorem At.outward {sort : Fault → Prop} {outer inner : Location} {fault : Fault}
    (h : fault.At sort inner) (hin : outer.Holds inner) : fault.At sort outer := by
  obtain ⟨place, hplace, hholds⟩ := h.place
  exact ⟨h.among, place, hplace, hin.trans hholds⟩

/-- A fault of a certain sort that stands in some field of a resource. -/
def In (sort : Fault → Prop) (id : String) (fault : Fault) : Prop :=
  ∃ name, fault.At sort (.ofResource id name)

theorem In.among {sort : Fault → Prop} {id : String} {fault : Fault} (h : fault.In sort id) :
    sort fault := by
  obtain ⟨_, hat⟩ := h
  exact hat.among

end Fault

/-- Whatever fault a check ends in, if it ends in one, is among those allowed. -/
def Check.Fails {α : Type} (allowed : Fault → Prop) (x : Check α) : Prop :=
  ∀ fault, x = .error fault → allowed fault

/-- A check whose faults are of a certain sort and stand where it is made. -/
def Check.Local {α β : Type} (sort : Fault → Prop) (check : Location → α → Check β) : Prop :=
  ∀ loc item, Check.Fails (Fault.At sort loc) (check loc item)

abbrev Checked.Local {α β : Type} (sort : Fault → Prop) (check : Location → α → Checked β) : Prop :=
  Check.Local sort fun loc item => (check loc item).result

namespace Check.Fails

variable {α β : Type} {allowed : Fault → Prop}

theorem ok {a : α} : Check.Fails allowed (.ok a) := by
  intro fault h
  cases h

theorem error {fault : Fault} (h : allowed fault) :
    Check.Fails allowed (.error fault : Check α) := by
  intro other ho
  obtain rfl := Except.error.inj ho
  exact h

theorem mono {wider : Fault → Prop} {x : Check α} (h : Check.Fails allowed x)
    (himp : ∀ fault, allowed fault → wider fault) : Check.Fails wider x :=
  fun fault hf => himp fault (h fault hf)

theorem bind {x : Check α} {f : α → Check β} (hx : Check.Fails allowed x)
    (hf : ∀ a, x = .ok a → Check.Fails allowed (f a)) : Check.Fails allowed (x >>= f) := by
  intro fault h
  cases x with
  | error other =>
    change Except.error other = Except.error fault at h
    exact hx fault (congrArg Except.error (Except.error.inj h))
  | ok a => exact hf a rfl fault h

/-- A step whose outcome the rest does not depend on. -/
theorem step {x : Check α} {f : α → Check β} (hx : Check.Fails allowed x)
    (hf : ∀ a, Check.Fails allowed (f a)) : Check.Fails allowed (x >>= f) :=
  bind hx fun a _ => hf a

/-- Warnings on the way do not count. -/
theorem resultStep {x : Checked α} {f : α → Checked β} (hx : Check.Fails allowed x.result)
    (hf : ∀ a, Check.Fails allowed (f a).result) : Check.Fails allowed (x >>= f).result := by
  rw [Checked.result_bind]
  exact step hx hf

/-- A check that gives no warnings, among some that may. -/
theorem checkStep {x : Check α} {f : α → Checked β} (hx : Check.Fails allowed x)
    (hf : ∀ a, Check.Fails allowed (f a).result) :
    Check.Fails allowed ((liftM x : Checked α) >>= f).result := resultStep hx hf

section Places

variable {sort : Fault → Prop} {loc : Location}

theorem ofStep {s : Step} {x : Check α} (h : Check.Fails (Fault.At sort (loc.step s)) x) :
    Check.Fails (Fault.At sort loc) x :=
  h.mono fun _ hf => hf.outward (.step loc s)

theorem ofField {name : String} {x : Check α}
    (h : Check.Fails (Fault.At sort (loc.field name)) x) : Check.Fails (Fault.At sort loc) x :=
  h.ofStep

theorem ofIndex {i : Nat} {x : Check α} (h : Check.Fails (Fault.At sort (loc.index i)) x) :
    Check.Fails (Fault.At sort loc) x := h.ofStep

theorem ofKey {name : String} {x : Check α} (h : Check.Fails (Fault.At sort (loc.key name)) x) :
    Check.Fails (Fault.At sort loc) x := h.ofStep

theorem inResource {id name : String} {x : Check α}
    (h : Check.Fails (Fault.At sort (.ofResource id name)) x) : Check.Fails (Fault.In sort id) x :=
  h.mono fun _ hf => ⟨name, hf⟩

/-- A step on one field of a resource. -/
theorem stepField {id name : String} {x : Check α} {f : α → Check β}
    (hx : Check.Fails (Fault.At sort (.ofResource id name)) x)
    (hf : ∀ a, Check.Fails (Fault.In sort id) (f a)) : Check.Fails (Fault.In sort id) (x >>= f) :=
  step hx.inResource hf

theorem checkEach {check : Location → α → Check Unit} {items : List α}
    (h : ∀ loc, ∀ item ∈ items, Check.Fails (Fault.At sort loc) (check loc item)) (loc : Location) :
    Check.Fails (Fault.At sort loc) (loc.checkEach check items) := by
  unfold Location.checkEach
  generalize 0 = i
  induction items generalizing i with
  | nil => exact ok
  | cons item rest ih =>
    unfold Location.checkFrom
    refine step (h _ item List.mem_cons_self).ofIndex fun _ => ih ?_ _
    exact fun loc other ho => h loc other (List.mem_cons_of_mem item ho)

theorem checkRows {family : Id.Family} {check : Location → Ref family → β → Check Unit}
    {rows : List (Ref family × β)}
    (h : ∀ loc, ∀ row ∈ rows, Check.Fails (Fault.At sort loc) (check loc row.1 row.2))
    (loc : Location) : Check.Fails (Fault.At sort loc) (loc.checkRows check rows) := by
  induction rows with
  | nil => exact ok
  | cons row rest ih =>
    unfold Location.checkRows
    refine step (h _ row List.mem_cons_self).ofKey fun _ => ih ?_
    exact fun loc other ho => h loc other (List.mem_cons_of_mem row ho)

theorem each {read : Location → α → Check β} (h : Check.Local sort read) (loc : Location)
    (items : List α) : Check.Fails (Fault.At sort loc) (loc.each read items) := by
  unfold Location.each
  generalize 0 = i
  induction items generalizing i with
  | nil => exact ok
  | cons item rest ih =>
    unfold Location.eachFrom
    exact step (h _ item).ofIndex fun _ => step (ih _) fun _ => ok

theorem eachKey {read : Location → String → α → Check β}
    (h : ∀ name, Check.Local sort fun loc item => read loc name item) (loc : Location)
    (entries : List (String × α)) : Check.Fails (Fault.At sort loc) (loc.eachKey read entries) := by
  induction entries with
  | nil => exact ok
  | cons entry rest ih =>
    unfold Location.eachKey
    exact step (h entry.1 _ entry.2).ofKey fun _ => step ih fun _ => ok

theorem resultEach {read : Location → α → Checked β}
    (h : Check.Local sort fun loc item => (read loc item).result) (loc : Location)
    (items : List α) : Check.Fails (Fault.At sort loc) (loc.each read items).result := by
  rw [Location.result_each]
  exact each h loc items

theorem resultEachKey {read : Location → String → α → Checked β}
    (h : ∀ name, Check.Local sort fun loc item => (read loc name item).result) (loc : Location)
    (entries : List (String × α)) :
    Check.Fails (Fault.At sort loc) (loc.eachKey read entries).result := by
  rw [Location.result_eachKey]
  exact eachKey h loc entries

end Places

end Check.Fails

end GameRoster
