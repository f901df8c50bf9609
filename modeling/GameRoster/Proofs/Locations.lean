import GameRoster.Proofs.AppendOnly
import GameRoster.Proofs.DraftFaults
import GameRoster.Proofs.Faults

namespace GameRoster

namespace Location

theorem ofResource_render (id name : String) :
    (ofResource id name).render = "<" ++ id ++ ">." ++ name := by
  have hpoint : ">." = ">" ++ "." := by decide
  simp only [ofResource, render, Root.render, Step.render, List.map_cons, List.map_nil,
    String.join_cons, String.join_nil, String.append_empty]
  rw [hpoint]
  simp only [String.append_assoc]

theorem index_render (loc : Location) (i : Nat) :
    (loc.index i).render = loc.render ++ "[" ++ toString i ++ "]" := by
  simp only [index, step, render, List.map_append, List.map_cons, List.map_nil, String.join_append,
    String.join_cons, String.join_nil, String.append_empty, Step.render, String.append_assoc]

end Location

namespace Fault

/-- The location of a fault opens with a text. -/
def OpensWith (opening : String) (fault : Fault) : Prop :=
  ∃ loc rest, fault.location? = some loc ∧ loc.render = opening ++ rest

variable {sort : Fault → Prop} {fault : Fault}

theorem At.opensWith {loc : Location} (h : fault.At sort loc) : fault.OpensWith loc.render := by
  obtain ⟨place, hplace, hholds⟩ := h.place
  obtain ⟨rest, hrest⟩ := hholds.render
  exact ⟨place, rest, hplace, hrest⟩

/-- A field of a resource is written after the id of the resource. -/
theorem In.opensWith {id : String} (h : fault.In sort id) :
    fault.OpensWith ("<" ++ id ++ ">.") := by
  obtain ⟨name, hat⟩ := h
  obtain ⟨place, rest, hplace, hrest⟩ := hat.opensWith
  refine ⟨place, name ++ rest, hplace, ?_⟩
  rw [hrest, Location.ofResource_render, String.append_assoc]

end Fault

section Definitions
open Check.Fails

/-- The faults that the definition of a variable may have: in what is written, or in what it is
to the other variables and to its owners. -/
inductive Fault.OfDefining : Fault → Prop
  | written {fault : Fault} (h : fault.OfBuilding) : OfDefining fault
  | variable (loc : Location) (rule : VariableRule) : OfDefining (.variable loc rule)

/-- A fault in the definition of a variable, at a location or further in. -/
abbrev Fault.DefinedAt (loc : Location) : Fault → Prop := Fault.At Fault.OfDefining loc

theorem Check.Fails.written {α : Type} {loc : Location} {x : Check α}
    (h : Check.Fails (Fault.ReadAt loc) x) : Check.Fails (Fault.DefinedAt loc) x :=
  h.mono fun _ hf => ⟨.written hf.among, hf.place⟩

namespace Variable

theorem Owners.add_fails (owners : Owners) (loc : Location) (owner : String) :
    Check.Fails (Fault.DefinedAt loc) (owners.add loc owner) := by
  unfold Owners.add
  split
  · exact step (Ref.ofText_reader _ loc owner).written fun _ => ok
  · split
    · exact step (Ref.ofText_reader _ loc owner).written fun _ => ok
    · exact error (.here (.variable loc _) rfl)

theorem Owners.addFrom_fails (loc : Location) (i : Nat) (owners : Owners) (ids : List String) :
    Check.Fails (Fault.DefinedAt loc) (addFrom loc i owners ids) := by
  induction ids generalizing i owners with
  | nil => exact ok
  | cons id rest ih =>
    unfold addFrom
    exact step (owners.add_fails _ id).ofIndex fun grown => ih _ grown

theorem Owners.ofDraft_fails (loc : Location) (draft : OwnersDraft) :
    Check.Fails (Fault.DefinedAt loc) (ofDraft loc draft) := by
  cases draft with
  | anyone => exact ok
  | one id => exact add_fails ⟨[], []⟩ loc id
  | many ids => exact addFrom_fails loc 0 ⟨[], []⟩ ids

theorem ofDraft_fails (id : String) (draft : VariableDraft) :
    Check.Fails (Fault.DefinedAt (.ofVariable id)) (ofDraft id draft) := by
  refine step (Ref.ofText_reader _ _ id).written fun _ => ?_
  refine step (Field.int_reader _ _ _).ofIndex.written fun _ => ?_
  exact step (Owners.ofDraft_fails _ _).ofIndex fun _ => ok

end Variable

namespace Registry

theorem define_fails (reg : Registry) (id : String) (draft : VariableDraft) :
    Check.Fails (Fault.DefinedAt (.ofVariable id)) (reg.define id draft) := by
  unfold define
  split
  · exact error (.here (.variable _ _) rfl)
  · exact step (Variable.ofDraft_fails id draft) fun _ => ok

/-- A batch that fails has a first variable that cannot be defined after those before it, and fails
as that one does. -/
theorem defineAll_error {reg : Registry} {batch : List (String × VariableDraft)} {fault : Fault}
    (h : (reg.defineAll batch).outcome = .error fault) :
    ∃ before id draft rest, batch = before ++ (id, draft) :: rest ∧
      (reg.defineAll before).outcome = .ok () ∧
      (reg.defineAll before).registry.define id draft = .error fault := by
  obtain ⟨_, _, _, hds, hok, hfault⟩ := declareAll_error h
  obtain ⟨before, later, rfl, rfl, hlater⟩ := List.map_eq_append_iff.mp hds
  obtain ⟨⟨id, draft⟩, rest, rfl, rfl, -⟩ := List.map_eq_cons_iff.mp hlater
  exact ⟨before, id, draft, rest, rfl, hok, hfault⟩

end Registry

end Definitions

/-- Where the faults of building, verifying and defining stand, and of which sort they are. -/
theorem Fault.located :
    (∀ (id : String) (draft : Draft) (fault : Fault),
      (draft.build id).result = .error fault →
        fault.OfBuilding ∧ fault.OpensWith ("<" ++ id ++ ">.")) ∧
    (∀ reg : Registry, reg.Reachable → ∀ r ∈ reg.resources, ∀ fault : Fault,
      r.verify reg = .error fault →
        fault.OfVerification ∧ fault.OpensWith ("<" ++ r.id ++ ">.")) ∧
    ∀ (reg : Registry) (batch : List (String × VariableDraft)) (fault : Fault),
      (reg.defineAll batch).outcome = .error fault →
        ∃ before id draft rest, batch = before ++ (id, draft) :: rest ∧
          (reg.defineAll before).outcome = .ok () ∧
          (reg.defineAll before).registry.define id draft = .error fault ∧
          fault.OfDefining ∧ fault.OpensWith ("Var.define(" ++ id ++ ")") := by
  refine ⟨?_, ?_, ?_⟩
  · intro id draft fault hfault
    have hin : fault.BuiltIn id := draft.build_fails id fault hfault
    exact ⟨hin.among, hin.opensWith⟩
  · intro reg hr r hm fault hfault
    have hin : fault.FoundIn r.id := hr.filed.resource_fails (hr.sound.bounded hm) fault hfault
    exact ⟨hin.among, hin.opensWith⟩
  · intro reg batch fault hfault
    obtain ⟨before, id, draft, rest, hbatch, hok, hdefine⟩ := Registry.defineAll_error hfault
    have hat := Registry.define_fails _ id draft fault hdefine
    refine ⟨before, id, draft, rest, hbatch, hok, hdefine, hat.among, ?_⟩
    have hroot : (Location.ofVariable id).render = "Var.define(" ++ id ++ ")" := by
      simp [Location.ofVariable, Location.render, Root.render, String.append_assoc]
    exact hroot ▸ hat.opensWith

/-- A zone without a record of its ground, the archer before her style is registered, and a variable
that is defined twice. -/
theorem Fault.located_thrice :
    (∃ fault : Fault, ((Draft.zone ⟨"Square", "square.txt", "square"⟩).build "Zone.Square").result
        = .error fault ∧ fault.OfBuilding ∧ fault.OpensWith ("<" ++ "Zone.Square" ++ ">.")) ∧
    (∃ r ∈ Registry.novice.resources, ∃ fault : Fault, r.verify Registry.novice = .error fault ∧
      fault.OfVerification ∧ fault.OpensWith ("<" ++ r.id ++ ">.")) ∧
    ∃ (fault : Fault) (before : List (String × VariableDraft)) (id : String)
      (draft : VariableDraft) (rest : List (String × VariableDraft)),
      [("#.Might", ⟨.int 1, .anyone⟩), ("#.Might", ⟨.int 2, .anyone⟩)] =
        before ++ (id, draft) :: rest ∧
      fault.OfDefining ∧ fault.OpensWith ("Var.define(" ++ id ++ ")") := by
  obtain ⟨hbuild, hverify, hdefine⟩ := Fault.located
  refine ⟨?_, ?_, ?_⟩
  · have hfault : ((Draft.zone ⟨"Square", "square.txt", "square"⟩).build "Zone.Square").result =
        .error (.field (.ofResource "Zone.Square" "zone_file") (.extension [".json"])) := rfl
    exact ⟨_, hfault, hbuild _ _ _ hfault⟩
  · have hreach : Registry.novice.Reachable := .run _ .empty
    have hsome : ∃ r ∈ Registry.novice.resources, (r.verify Registry.novice).isOk = false := by
      decide +kernel
    obtain ⟨r, hm, hr⟩ := hsome
    obtain ⟨fault, hfault⟩ := Check.error_of_isOk hr
    exact ⟨r, hm, fault, hfault, hverify _ hreach r hm fault hfault⟩
  · have hfault : (Registry.empty.defineAll
        [("#.Might", ⟨.int 1, .anyone⟩), ("#.Might", ⟨.int 2, .anyone⟩)]).outcome =
          .error (.variable (.ofVariable "#.Might") .redefined) := rfl
    obtain ⟨before, id, draft, rest, hbatch, _, _, hsort, hopens⟩ := hdefine _ _ _ hfault
    exact ⟨_, before, id, draft, rest, hbatch, hsort, hopens⟩

end GameRoster
