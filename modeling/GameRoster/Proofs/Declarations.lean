import GameRoster.Proofs.Growth
import Mathlib.Data.List.Forall2
import Mathlib.Data.List.Perm.Basic

namespace GameRoster

/-- What a declaration is known by. Variables and resources have ids of their own. -/
inductive Key
  | variable (id : String)
  | resource (id : String)
deriving DecidableEq

/-- What a declaration adds to a registry. -/
inductive Addition
  | variable (v : Variable)
  | resource (r : Resource) (symbols : List String)

namespace Addition

def key : Addition → Key
  | .variable v => .variable v.id.text
  | .resource r _ => .resource r.id

def definition? : Addition → Option Variable
  | .variable v => some v
  | .resource _ _ => none

def resource? : Addition → Option Resource
  | .variable _ => none
  | .resource r _ => some r

end Addition

namespace Declaration

def key : Declaration → Key
  | .variable id _ => .variable id
  | .resource id _ => .resource id

/-- What a declaration makes wherever its id is free. A malformed id or a wrong field makes
nothing. -/
def made? : Declaration → Option Addition
  | .variable id draft => (Variable.ofDraft id draft).toOption.map .variable
  | .resource id draft =>
    (Id.symbols? draft.kind.family id).toOption.bind fun symbols =>
      (draft.build id).result.toOption.map fun r => .resource r symbols

end Declaration

theorem toOption_eq_some {ε α : Type} {x : Except ε α} {a : α} :
    x.toOption = some a ↔ x = .ok a := by
  cases x <;> simp [Except.toOption]

theorem Variable.ofDraft_id (id : String) (draft : VariableDraft) :
    Check.Yields (fun v : Variable => v.id.text = id) (Variable.ofDraft id draft) := by
  unfold Variable.ofDraft
  exact .bind fun ref href => .step fun _ => .step fun _ => .pure (Ref.ofText_text _ _ ref href)

/-- A draft builds what its kind's builder makes of it. -/
theorem Draft.builds_iff {draft : Draft} {id : String} {r : Resource} :
    (draft.build id).result = .ok r ↔ draft.Builds id r := by
  refine ⟨Draft.builds, fun h => ?_⟩
  cases h
  all_goals
    rename_i h
    simp only [Draft.build, Checked.result_bind, Checked.result_pure]
    exact Check.bind_ok.mpr ⟨_, h, rfl⟩

namespace Declaration

theorem made_variable {id : String} {draft : VariableDraft} {a : Addition} :
    made? (.variable id draft) = some a ↔
      ∃ v, Variable.ofDraft id draft = .ok v ∧ .variable v = a := by
  simp only [made?, Option.map_eq_some_iff, toOption_eq_some]

theorem made_resource {id : String} {draft : Draft} {a : Addition} :
    made? (.resource id draft) = some a ↔
      ∃ symbols r, Id.symbols? draft.kind.family id = .ok symbols ∧ draft.Builds id r ∧
        .resource r symbols = a := by
  simp only [made?, Option.bind_eq_some_iff, Option.map_eq_some_iff, toOption_eq_some,
    Draft.builds_iff, exists_and_left]

/-- A declaration makes what it is known by. -/
theorem made_key {d : Declaration} {a : Addition} (h : d.made? = some a) : a.key = d.key := by
  match d with
  | .variable id draft =>
    obtain ⟨v, hv, rfl⟩ := made_variable.mp h
    exact congrArg Key.variable (Variable.ofDraft_id id draft v hv)
  | .resource id draft =>
    obtain ⟨symbols, r, _, hr, rfl⟩ := made_resource.mp h
    exact congrArg Key.resource hr.id_eq

end Declaration

namespace Registry

/-- Every id that is taken. -/
def keys (reg : Registry) : List Key :=
  reg.definitions.map (fun v => .variable v.id.text) ++ reg.resources.map fun r => .resource r.id

def extend (reg : Registry) : Addition → Registry
  | .variable v => { reg with definitions := reg.definitions ++ [v] }
  | .resource r symbols => reg.push r symbols

def extendAll (reg : Registry) (additions : List Addition) : Registry := additions.foldl extend reg

variable {reg grown : Registry}

theorem definition_eq_none {id : String} :
    reg.definition? id = none ↔ Key.variable id ∉ reg.keys := by
  simp [definition?, keys, List.find?_eq_none]

theorem find_eq_none {id : String} : reg.find? id = none ↔ Key.resource id ∉ reg.keys := by
  simp [find?, keys, List.find?_eq_none]

theorem mem_keys_extend {k : Key} {a : Addition} :
    k ∈ (reg.extend a).keys ↔ k ∈ reg.keys ∨ k = a.key := by
  match a with
  | .variable v =>
    simp only [extend, keys, Addition.key, List.map_append, List.mem_append, List.map_cons,
      List.map_nil, List.mem_singleton]
    exact or_right_comm
  | .resource r symbols =>
    simp only [extend, push, keys, Addition.key, List.map_append, List.mem_append, List.map_cons,
      List.map_nil, List.mem_singleton, or_assoc]

theorem mem_keys_extendAll {k : Key} {additions : List Addition} :
    k ∈ (reg.extendAll additions).keys ↔ k ∈ reg.keys ∨ k ∈ additions.map Addition.key := by
  induction additions generalizing reg with
  | nil => simp [extendAll]
  | cons a rest ih =>
    change k ∈ ((reg.extend a).extendAll rest).keys ↔ _
    rw [ih, mem_keys_extend, List.map_cons, List.mem_cons, or_assoc]

theorem extendAll_resources (reg : Registry) (additions : List Addition) :
    (reg.extendAll additions).resources =
      reg.resources ++ additions.filterMap Addition.resource? := by
  induction additions generalizing reg with
  | nil => simp [extendAll]
  | cons a rest ih =>
    change ((reg.extend a).extendAll rest).resources = _
    rw [ih]
    match a with
    | .variable v => rfl
    | .resource r symbols => simp [extend, push, Addition.resource?]

theorem extendAll_definitions (reg : Registry) (additions : List Addition) :
    (reg.extendAll additions).definitions =
      reg.definitions ++ additions.filterMap Addition.definition? := by
  induction additions generalizing reg with
  | nil => simp [extendAll]
  | cons a rest ih =>
    change ((reg.extend a).extendAll rest).definitions = _
    rw [ih]
    match a with
    | .variable v => simp [extend, Addition.definition?]
    | .resource r symbols => rfl

theorem define_ok {id : String} {draft : VariableDraft} :
    reg.define id draft = .ok grown ↔ Key.variable id ∉ reg.keys ∧
      ∃ v, Variable.ofDraft id draft = .ok v ∧ reg.extend (.variable v) = grown := by
  rw [← definition_eq_none]
  unfold define
  cases hf : reg.definition? id with
  | some v => simp
  | none => simp only [Check.bind_ok, Check.pure_ok, extend, true_and]

theorem add_ok {id : String} {draft : Draft} :
    (reg.add id draft).result = .ok grown ↔ Key.resource id ∉ reg.keys ∧
      ∃ symbols r, Id.symbols? draft.kind.family id = .ok symbols ∧ draft.Builds id r ∧
        reg.extend (.resource r symbols) = grown := by
  rw [← find_eq_none]
  unfold add
  cases hs : Id.symbols? draft.kind.family id with
  | error violation => simp [hs, Checked.fail]
  | ok symbols =>
    cases hf : reg.find? id with
    | some r => simp [hs, Checked.fail]
    | none =>
      simp only [hs, Checked.result_bind, Checked.result_pure, Check.bind_ok, Draft.builds_iff,
        extend, true_and, Except.ok.injEq, exists_and_left, exists_eq_left']

/-- A declaration succeeds when its id is free and it makes something, and adds just that. -/
theorem declare_ok {d : Declaration} :
    (reg.declare d).result = .ok grown ↔
      d.key ∉ reg.keys ∧ ∃ a, d.made? = some a ∧ reg.extend a = grown := by
  match d with
  | .variable id draft =>
    simp only [declare, Checked.result_ofCheck, define_ok, Declaration.key,
      Declaration.made_variable]
    grind
  | .resource id draft =>
    simp only [declare, add_ok, Declaration.key, Declaration.made_resource]
    grind

/-- A run succeeds when its ids are distinct, each of them is free, and each declaration makes
something. -/
theorem declareAll_ok {ds : List Declaration} :
    (reg.declareAll ds).outcome = .ok () ↔
      (ds.map Declaration.key).Nodup ∧ ∀ d ∈ ds, d.key ∉ reg.keys ∧ ∃ a, d.made? = some a := by
  induction ds generalizing reg with
  | nil => simp [declareAll]
  | cons d rest ih =>
    rw [List.map_cons, List.nodup_cons, List.forall_mem_cons]
    cases hd : (reg.declare d).result with
    | error fault =>
      rw [(declareAll_of_error hd rest).2]
      refine ⟨fun h => by simp at h, ?_⟩
      rintro ⟨_, ⟨hfree, a, ha⟩, _⟩
      rw [declare_ok.mpr ⟨hfree, a, ha, rfl⟩] at hd
      cases hd
    | ok grown =>
      obtain ⟨hfree, a, ha, rfl⟩ := declare_ok.mp hd
      rw [(declareAll_of_ok hd rest).2, ih]
      simp only [mem_keys_extend, Declaration.made_key ha, not_or]
      constructor
      · rintro ⟨hnodup, hrest⟩
        refine ⟨⟨?_, hnodup⟩, ⟨hfree, a, ha⟩, fun d hm => ⟨(hrest d hm).1.1, (hrest d hm).2⟩⟩
        intro hm
        obtain ⟨other, ho, hk⟩ := List.mem_map.mp hm
        exact (hrest other ho).1.2 hk
      · rintro ⟨⟨hout, hnodup⟩, _, hrest⟩
        refine ⟨hnodup, fun d hm => ⟨⟨(hrest d hm).1, ?_⟩, (hrest d hm).2⟩⟩
        intro hk
        exact hout (hk ▸ List.mem_map_of_mem hm)

/-- A run that fails ends at the first declaration that fails after those before it. -/
theorem declareAll_error {ds : List Declaration} {fault : Fault}
    (h : (reg.declareAll ds).outcome = .error fault) :
    ∃ before d after, ds = before ++ d :: after ∧ (reg.declareAll before).outcome = .ok () ∧
      ((reg.declareAll before).registry.declare d).result = .error fault := by
  induction ds generalizing reg with
  | nil => cases h
  | cons first rest ih =>
    cases hd : (reg.declare first).result with
    | error other =>
      obtain rfl : other = fault :=
        Except.error.inj ((declareAll_of_error hd rest).2.symm.trans h)
      exact ⟨[], first, rest, rfl, rfl, hd⟩
    | ok grown =>
      have hrest := (declareAll_of_ok hd rest).2.symm.trans h
      obtain ⟨before, d, after, rfl, hok, hfault⟩ := ih hrest
      obtain ⟨hleft, hout⟩ := declareAll_of_ok hd before
      exact ⟨first :: before, d, after, rfl, hout.trans hok, hleft ▸ hfault⟩

/-- A run stops at the first declaration that fails. What the ones before it made stays, and
nothing else is changed. -/
structure Stops (reg : Registry) (ds : List Declaration) (additions : List Addition) : Prop where
  made : List.Forall₂ (fun d a => Declaration.made? d = some a) (ds.take additions.length) additions
  left : (reg.declareAll ds).registry = reg.extendAll additions
  outcome : additions.length = ds.length ∧ (reg.declareAll ds).outcome = .ok () ∨
    ∃ d fault, ds[additions.length]? = some d ∧
      ((reg.extendAll additions).declare d).result = .error fault ∧
      (reg.declareAll ds).outcome = .error fault

theorem declareAll_stops (reg : Registry) (ds : List Declaration) :
    ∃ additions, reg.Stops ds additions := by
  induction ds generalizing reg with
  | nil => exact ⟨[], .nil, rfl, .inl ⟨rfl, rfl⟩⟩
  | cons d rest ih =>
    cases hd : (reg.declare d).result with
    | error fault =>
      obtain ⟨hleft, hout⟩ := declareAll_of_error hd rest
      exact ⟨[], .nil, hleft, .inr ⟨d, fault, rfl, hd, hout⟩⟩
    | ok grown =>
      obtain ⟨_, a, ha, rfl⟩ := declare_ok.mp hd
      obtain ⟨hleft, hout⟩ := declareAll_of_ok hd rest
      obtain ⟨additions, made, left, outcome⟩ := ih (reg.extend a)
      refine ⟨a :: additions, .cons ha made, hleft.trans left, ?_⟩
      rw [hout]
      rcases outcome with ⟨hlen, hok⟩ | ⟨stop, fault, hstop, hfault, hout⟩
      · exact .inl ⟨by simp [hlen], hok⟩
      · exact .inr ⟨stop, fault, by simpa using hstop, hfault, hout⟩

/-- A run that succeeds leaves what all its declarations make. -/
theorem declareAll_registry {ds : List Declaration} (h : (reg.declareAll ds).outcome = .ok ()) :
    (reg.declareAll ds).registry = reg.extendAll (ds.filterMap Declaration.made?) := by
  obtain ⟨additions, made, left, outcome⟩ := reg.declareAll_stops ds
  have hlen : additions.length = ds.length := by
    rcases outcome with ⟨hlen, _⟩ | ⟨_, _, _, _, hout⟩
    · exact hlen
    · rw [h] at hout
      cases hout
  rw [hlen, List.take_length] at made
  have hmade : ds.filterMap Declaration.made? = additions := by
    clear left outcome hlen h
    induction made with
    | nil => rfl
    | cons ha _ ih => rw [List.filterMap_cons_some ha, ih]
  rw [left, hmade]

/-- A run that succeeds takes the ids of all its declarations. -/
theorem mem_keys_declareAll {ds : List Declaration} (h : (reg.declareAll ds).outcome = .ok ())
    {k : Key} :
    k ∈ (reg.declareAll ds).registry.keys ↔ k ∈ reg.keys ∨ k ∈ ds.map Declaration.key := by
  have hkeys : (ds.filterMap Declaration.made?).map Addition.key = ds.map Declaration.key := by
    have hmade := (declareAll_ok.mp h).2
    clear h
    induction ds with
    | nil => rfl
    | cons d rest ih =>
      obtain ⟨⟨_, a, ha⟩, hrest⟩ := List.forall_mem_cons.mp hmade
      rw [List.filterMap_cons_some ha, List.map_cons, List.map_cons, ih hrest,
        Declaration.made_key ha]
  rw [declareAll_registry h, mem_keys_extendAll, hkeys]

end Registry

end GameRoster
