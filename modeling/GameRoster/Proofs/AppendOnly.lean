import GameRoster.Proofs.Declarations
import GameRoster.Proofs.Symbols

namespace GameRoster

namespace Registry

/-- A batch of variables to define. -/
def defineAll (reg : Registry) (batch : List (String × VariableDraft)) : Run :=
  reg.declareAll (batch.map fun (id, draft) => .variable id draft)

/-- A registry after calls one after another, each a run of declarations that may fail. -/
def after (reg : Registry) (calls : List (List Declaration)) : Registry :=
  calls.foldl (fun reg call => (reg.declareAll call).registry) reg

/-- A registration that fails leaves everything as it was. One that succeeds appends the resource
that is built under the id, and puts in the symbols of that id and no others. -/
inductive Registers (reg : Registry) (id : String) (draft : Draft) (run : Run) : Prop
  | failed {fault : Fault} (refused : (reg.add id draft).result = .error fault)
      (outcome : run.outcome = .error fault) (left : run.registry = reg)
  | appended {symbols : List String} {r : Resource}
      (outcome : run.outcome = .ok ())
      (spelled : Id.symbols? draft.kind.family id = .ok symbols)
      (built : (draft.build id).result = .ok r) (named : r.id = id)
      (resources : run.registry.resources = reg.resources ++ [r])
      (definitions : run.registry.definitions = reg.definitions)
      (symbols_iff : ∀ s, s ∈ run.registry.symbols ↔ s ∈ reg.symbols ∨ s ∈ symbols)
      (ascending : reg.symbols.Pairwise (· < ·) → run.registry.symbols.Pairwise (· < ·))

/-- A batch defines its first variables in order, and stops where the next one fails. -/
structure Defines (reg : Registry) (batch : List (String × VariableDraft)) (vs : List Variable)
    (run : Run) : Prop where
  built : List.Forall₂ (fun written v => Variable.ofDraft written.1 written.2 = .ok v)
    (batch.take vs.length) vs
  left : run.registry = { reg with definitions := reg.definitions ++ vs }
  outcome : vs.length = batch.length ∧ run.outcome = .ok () ∨
    ∃ id draft fault, batch[vs.length]? = some (id, draft) ∧
      run.registry.define id draft = .error fault ∧ run.outcome = .error fault

/-- What is in a registry is in a later one, as it is and in its place. -/
structure KeptIn (reg later : Registry) : Prop where
  resources : reg.resources <+: later.resources
  definitions : reg.definitions <+: later.definitions
  symbols : reg.symbols ⊆ later.symbols

namespace KeptIn

variable {reg later last : Registry}

theorem refl (reg : Registry) : reg.KeptIn reg :=
  ⟨List.prefix_rfl, List.prefix_rfl, List.Subset.refl _⟩

theorem trans (h : reg.KeptIn later) (h' : later.KeptIn last) : reg.KeptIn last :=
  ⟨h.resources.trans h'.resources, h.definitions.trans h'.definitions,
    List.Subset.trans h.symbols h'.symbols⟩

theorem extend (reg : Registry) (a : Addition) : reg.KeptIn (reg.extend a) := by
  match a with
  | .variable v => exact ⟨List.prefix_rfl, List.prefix_append _ _, List.Subset.refl _⟩
  | .resource r symbols =>
    refine ⟨List.prefix_append _ _, List.prefix_rfl, ?_⟩
    intro s hs
    exact mem_insertSymbols.mpr (.inl hs)

theorem extendAll (reg : Registry) (additions : List Addition) :
    reg.KeptIn (reg.extendAll additions) := by
  induction additions generalizing reg with
  | nil => exact refl reg
  | cons a rest ih => exact (extend reg a).trans (ih (reg.extend a))

theorem declareAll (reg : Registry) (ds : List Declaration) :
    reg.KeptIn (reg.declareAll ds).registry := by
  obtain ⟨additions, h⟩ := reg.declareAll_stops ds
  rw [h.left]
  exact extendAll reg additions

theorem after (reg : Registry) (calls : List (List Declaration)) : reg.KeptIn (reg.after calls) := by
  induction calls generalizing reg with
  | nil => exact refl reg
  | cons call rest ih => exact (declareAll reg call).trans (ih _)

theorem find (h : reg.KeptIn later) {id : String} {r : Resource} (hf : reg.find? id = some r) :
    later.find? id = some r := h.resources.find?_eq_some hf

theorem definition (h : reg.KeptIn later) {id : String} {v : Variable}
    (hd : reg.definition? id = some v) : later.definition? id = some v :=
  h.definitions.find?_eq_some hd

end KeptIn

theorem registers (reg : Registry) (id : String) (draft : Draft) :
    reg.Registers id draft (reg.declareAll [.resource id draft]) := by
  cases hd : (reg.declare (.resource id draft)).result with
  | error fault =>
    obtain ⟨hleft, hout⟩ := declareAll_of_error hd []
    exact .failed hd hout hleft
  | ok grown =>
    obtain ⟨hleft, hout⟩ := declareAll_of_ok hd []
    obtain ⟨_, symbols, r, hs, hb, rfl⟩ := add_ok.mp hd
    refine .appended hout hs (Draft.builds_iff.mpr hb) hb.id_eq ?_ ?_ ?_ ?_
    all_goals rw [hleft]
    · rfl
    · rfl
    · exact fun s => mem_insertSymbols
    · exact insertSymbols_ascending

theorem extendAll_variables (reg : Registry) (vs : List Variable) :
    reg.extendAll (vs.map .variable) = { reg with definitions := reg.definitions ++ vs } := by
  induction vs generalizing reg with
  | nil => simp [extendAll]
  | cons v rest ih =>
    change (reg.extend (.variable v)).extendAll (rest.map .variable) = _
    rw [ih]
    simp [extend]

/-- Definitions make variables and nothing else. -/
theorem made_variables {batch : List (String × VariableDraft)} {additions : List Addition}
    (h : List.Forall₂
      (fun written a => (Declaration.variable written.1 written.2).made? = some a) batch additions) :
    ∃ vs : List Variable, additions = vs.map .variable ∧
      List.Forall₂ (fun written v => Variable.ofDraft written.1 written.2 = .ok v) batch vs := by
  induction h with
  | nil => exact ⟨[], rfl, .nil⟩
  | cons ha _ ih =>
    obtain ⟨v, hv, rfl⟩ := Declaration.made_variable.mp ha
    obtain ⟨vs, rfl, hvs⟩ := ih
    exact ⟨v :: vs, rfl, .cons hv hvs⟩

theorem defines (reg : Registry) (batch : List (String × VariableDraft)) :
    ∃ vs, reg.Defines batch vs (reg.defineAll batch) := by
  obtain ⟨additions, made, left, outcome⟩ :=
    reg.declareAll_stops (batch.map fun (id, draft) => .variable id draft)
  rw [← List.map_take, List.forall₂_map_left_iff] at made
  obtain ⟨vs, rfl, hvs⟩ := made_variables made
  rw [List.length_map] at hvs outcome
  rw [extendAll_variables] at left outcome
  refine ⟨vs, hvs, left, ?_⟩
  rw [List.length_map] at outcome
  rcases outcome with hall | ⟨d, fault, hstop, hfault, hout⟩
  · exact .inl hall
  · rw [List.getElem?_map, Option.map_eq_some_iff] at hstop
    obtain ⟨⟨id, draft⟩, hwritten, rfl⟩ := hstop
    refine .inr ⟨id, draft, fault, hwritten, ?_, hout⟩
    rw [defineAll, left]
    exact hfault

/-- A variable that is defined cannot be defined again. -/
theorem define_taken {reg : Registry} {id : String} {v : Variable}
    (h : reg.definition? id = some v) (draft : VariableDraft) :
    reg.define id draft = .error (.variable (.ofVariable id) .redefined) := by
  simp only [define, h]

theorem declareAll_taken {reg : Registry} {id : String} {v : Variable}
    (h : reg.definition? id = some v) {ds : List Declaration} {draft : VariableDraft}
    (hd : .variable id draft ∈ ds) : ∃ fault, (reg.declareAll ds).outcome = .error fault := by
  cases hout : (reg.declareAll ds).outcome with
  | error fault => exact ⟨fault, rfl⟩
  | ok done =>
    obtain ⟨hfree, _⟩ := (declareAll_ok.mp hout).2 _ hd
    rw [definition_eq_none.mpr hfree] at h
    cases h

/-- How calls change a registry. -/
structure AppendOnly (reg : Registry) : Prop where
  registers : ∀ id draft, reg.Registers id draft (reg.declareAll [.resource id draft])
  defines : ∀ batch, ∃ vs, reg.Defines batch vs (reg.defineAll batch)
  kept : ∀ calls, reg.KeptIn (reg.after calls)
  found : ∀ calls id r, reg.find? id = some r → (reg.after calls).find? id = some r
  defined : ∀ calls id v, reg.definition? id = some v → (reg.after calls).definition? id = some v
  redefined : ∀ calls id v draft, reg.definition? id = some v →
    (reg.after calls).define id draft = .error (.variable (.ofVariable id) .redefined) ∧
    ∀ ds, .variable id draft ∈ ds → ∃ fault, ((reg.after calls).declareAll ds).outcome = .error fault

/-- A registry only ever grows at its end, by whole resources and variables. -/
theorem append_only (reg : Registry) : reg.AppendOnly where
  registers := reg.registers
  defines := reg.defines
  kept := KeptIn.after reg
  found calls _ _ h := (KeptIn.after reg calls).find h
  defined calls _ _ h := (KeptIn.after reg calls).definition h
  redefined calls _ _ draft h := by
    have hlater := (KeptIn.after reg calls).definition h
    exact ⟨define_taken hlater draft, fun _ hd => declareAll_taken hlater hd⟩

/-- The second definition fails, so that the third is not made either. -/
example : (empty.defineAll [("#.Might", ⟨.int 1, .anyone⟩), ("#.Might", ⟨.int 2, .anyone⟩),
    ("#.Focus", ⟨.int 1, .anyone⟩)]).registry.definitions.map (·.id.text) = ["#.Might"] := by
  decide +kernel

end Registry

end GameRoster
