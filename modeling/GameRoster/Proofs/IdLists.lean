import GameRoster.Proofs.BindingForm
import GameRoster.Proofs.DraftFaults

namespace GameRoster

namespace Ref

variable {family : Id.Family} {loc : Location} {i : Nat} {taken texts : List String}

/-- No id stands twice in a list. -/
def Distinct (refs : List (Ref family)) : Prop := (refs.map text).Nodup

theorem listFrom_ok {refs : List (Ref family)} :
    listFrom family false loc i taken texts = .ok refs ↔
      refs.map text = texts ∧ texts.Nodup ∧ ∀ t ∈ texts, t ∉ taken := by
  induction texts generalizing i taken refs with
  | nil =>
    rw [listFrom]
    cases refs <;> simp
  | cons t rest ih =>
    unfold listFrom
    by_cases ht : t ∈ taken
    · rw [if_pos (by simpa using ht)]
      exact iff_of_false (by simp [Check.field]) fun h => h.2.2 t List.mem_cons_self ht
    · rw [if_neg (by simpa using ht)]
      simp only [Check.bind_ok, Check.pure_ok, ofText_ok, ih]
      constructor
      · rintro ⟨ref, rfl, others, ⟨rfl, hnodup, hfree⟩, rfl⟩
        have hfirst : ref.text ∉ others.map text := fun hm => hfree _ hm (by simp)
        refine ⟨rfl, List.nodup_cons.mpr ⟨hfirst, hnodup⟩, List.forall_mem_cons.mpr ⟨ht, ?_⟩⟩
        exact fun other ho hm => hfree other ho (List.mem_append_left _ hm)
      · rintro ⟨hrefs, hdistinct, hfree⟩
        obtain ⟨hfirst, hnodup⟩ := List.nodup_cons.mp hdistinct
        cases refs with
        | nil => cases hrefs
        | cons ref others =>
          obtain ⟨rfl, rfl⟩ := List.cons.inj hrefs
          refine ⟨ref, rfl, others, ⟨rfl, hnodup, fun other ho hm => ?_⟩, rfl⟩
          rcases List.mem_append.mp hm with hm | hm
          · exact hfree other (List.mem_cons_of_mem _ ho) hm
          · exact hfirst (List.mem_singleton.mp hm ▸ ho)

theorem distinct_ok {refs : List (Ref family)} :
    distinct family loc texts = .ok refs ↔ refs.map text = texts ∧ texts.Nodup := by
  have hlist : distinct family loc texts = listFrom family false loc 0 [] texts := rfl
  rw [hlist, listFrom_ok]
  simp

theorem distinct_distinct (loc : Location) (texts : List String) :
    Check.Yields (fun refs : List (Ref family) => refs.map text = texts ∧ Distinct refs)
      (distinct family loc texts) := by
  intro refs h
  obtain ⟨rfl, hnodup⟩ := distinct_ok.mp h
  exact ⟨rfl, hnodup⟩

theorem ofText_located (loc : Location) (t : String) :
    Check.Fails (fun fault => fault.location? = some loc ∧ ∀ ref : Ref family, ref.text ≠ t)
      (ofText family loc t) := by
  intro fault h
  have hnone : ∀ ref : Ref family, ref.text ≠ t := by
    intro ref hr
    rw [ofText_ok.mpr hr] at h
    cases h
  unfold ofText at h
  split at h
  · cases h
  · cases h
    exact ⟨rfl, hnone⟩

/-- An item of a list that repeats an id before it or is none. -/
structure Offends (family : Id.Family) (taken texts before : List String) (t : String) : Prop where
  stands : ∃ after, texts = before ++ t :: after
  offends : t ∈ taken ++ before ∨ ∀ ref : Ref family, ref.text ≠ t

/-- A list is refused at an item that offends. -/
theorem listFrom_refused (family : Id.Family) (loc : Location) (i : Nat)
    (taken texts : List String) :
    Check.Fails (fun fault => ∃ before t, Offends family taken texts before t ∧
      fault.location? = some (loc.index (i + before.length)))
      (listFrom family false loc i taken texts) := by
  induction texts generalizing i taken with
  | nil => exact .ok
  | cons t rest ih =>
    unfold listFrom
    split
    · rename_i ht
      refine .error ⟨[], t, ⟨⟨rest, rfl⟩, .inl ?_⟩, rfl⟩
      simpa using ht
    · refine .bind ((ofText_located _ t).mono ?_) fun ref _ => .step ((ih _ _).mono ?_) fun _ => .ok
      · rintro fault ⟨hloc, hnone⟩
        exact ⟨[], t, ⟨⟨rest, rfl⟩, .inr hnone⟩, hloc⟩
      · rintro fault ⟨before, later, ⟨⟨after, rfl⟩, hoffends⟩, hloc⟩
        refine ⟨t :: before, later, ⟨⟨after, rfl⟩, ?_⟩, ?_⟩
        · rwa [List.append_assoc] at hoffends
        · rw [hloc, List.length_cons, Nat.add_assoc, Nat.add_comm 1]

end Ref

/-- If a fault stands in an item of a list, it is one of the first items. -/
def Fault.AmongFirst (n : Nat) (loc : Location) (fault : Fault) : Prop :=
  ∀ i place, fault.location? = some place → (loc.index i).Holds place → i < n

theorem Location.index_holds {loc : Location} {i k : Nat} (h : (loc.index i).Holds (loc.index k)) :
    i = k := by
  have hsteps := h.2.eq_of_length (by simp [index, step])
  simpa [index, step] using hsteps

/-- A fault in one field stands in no other. -/
theorem Fault.At.amongFirst {sort : Fault → Prop} {id name other : String} {fault : Fault} (n : Nat)
    (h : fault.At sort (.ofResource id name)) (hne : name ≠ other) :
    fault.AmongFirst n (.ofResource id other) := by
  rintro i place hplace ⟨-, hsteps⟩
  obtain ⟨found, hfound, -, hname⟩ := h.place
  obtain rfl : found = place := Option.some.inj (hfound.symm.trans hplace)
  obtain ⟨rest, hrest⟩ := hname
  obtain ⟨later, hlater⟩ := hsteps
  have hfirst := (List.cons.inj (hrest.trans hlater.symm)).1
  exact absurd (Step.field.inj hfirst) hne

theorem Check.Fails.otherField {α : Type} {id name other : String} {n : Nat} {x : Check α}
    (h : Check.Fails (Fault.ReadAt (.ofResource id name)) x) (hne : name ≠ other) :
    Check.Fails (Fault.AmongFirst n (.ofResource id other)) x :=
  h.mono fun _ hf => hf.amongFirst n hne

open Check.Fails

namespace Style

/-- The own perks that are missing from the usable ones follow them in their order. -/
theorem allPerks_eq {usable own : List String} (h : own.Nodup) :
    allPerks usable own = usable ++ own.filter (· ∉ usable) := by
  unfold allPerks
  induction own generalizing usable with
  | nil => simp
  | cons perk rest ih =>
    obtain ⟨hperk, hrest⟩ := List.nodup_cons.mp h
    rw [List.foldl_cons]
    by_cases hlisted : perk ∈ usable
    · rw [if_pos (by simpa using hlisted), ih hrest,
        List.filter_cons_of_neg (by simpa using hlisted)]
    · rw [if_neg (by simpa using hlisted), ih hrest,
        List.filter_cons_of_pos (by simpa using hlisted), List.append_assoc, List.singleton_append]
      refine congrArg (fun perks => usable ++ perk :: perks) (List.filter_congr fun other ho => ?_)
      have hne : other ≠ perk := fun heq => hperk (heq ▸ ho)
      simp [hne]

/-- What a style lists of ids: none twice, and its usable perks are those of its author with the
own ones that are missing from them. -/
structure Listed (draft : StyleDraft) (s : Style) : Prop where
  perks : Ref.Distinct s.perks
  usablePerks : Ref.Distinct s.usablePerks
  actions : Ref.Distinct s.actions
  united : s.usablePerks.map Ref.text =
    draft.usablePerks ++ draft.perks.filter (· ∉ draft.usablePerks)

theorem build_listed (id : String) (draft : StyleDraft) :
    Check.Yields (Listed draft) (build id draft) := by
  unfold build
  refine .bind fun perks hperks => .bind fun usable husable => ?_
  iterate 5 refine .step fun _ => ?_
  refine .bind fun actions hactions => .step fun _ => .pure ?_
  obtain ⟨hown, hdistinct⟩ := Ref.distinct_ok.mp hperks
  obtain ⟨htexts, hall⟩ := Ref.distinct_distinct _ _ usable husable
  constructor
  case perks => exact (Ref.distinct_distinct _ _ perks hperks).2
  case usablePerks => exact hall
  case actions => exact (Ref.distinct_distinct _ _ actions hactions).2
  case united => exact htexts.trans (allPerks_eq hdistinct)

/-- The own perks of a style are ids and distinct, so that only what its author lists as usable can
be at fault there. -/
theorem usablePerks_fails {perks : List (Ref .perk)} {usable own : List String} {loc : Location}
    (h : perks.map Ref.text = own ∧ own.Nodup) :
    Check.Fails (Fault.AmongFirst usable.length loc)
      (Ref.distinct .perk loc (allPerks usable own)) := by
  obtain ⟨rfl, hown⟩ := h
  rw [allPerks_eq hown]
  refine (Ref.listFrom_refused .perk loc 0 [] _).mono ?_
  rintro fault ⟨before, t, ⟨⟨after, hstands⟩, hoffends⟩, hloc⟩ i place hplace hholds
  obtain rfl : loc.index (0 + before.length) = place := Option.some.inj (hloc.symm.trans hplace)
  obtain rfl := Location.index_holds hholds
  rw [Nat.zero_add]
  by_contra hlong
  have husable : usable <+: before := List.prefix_of_prefix_length_le
    (List.prefix_append usable _) ⟨t :: after, hstands.symm⟩ (Nat.le_of_not_lt hlong)
  obtain ⟨added, rfl⟩ := husable
  rw [List.append_assoc, List.append_cancel_left_eq] at hstands
  have hm : t ∈ (perks.map Ref.text).filter (· ∉ usable) := by
    rw [hstands]
    exact List.mem_append_right _ List.mem_cons_self
  obtain ⟨hperk, hmissing⟩ := List.mem_filter.mp hm
  have hnodup := hown.filter (· ∉ usable)
  rw [hstands] at hnodup
  rcases hoffends with hrepeats | hnone
  · rw [List.nil_append] at hrepeats
    rcases List.mem_append.mp hrepeats with hm | hm
    · exact of_decide_eq_true hmissing hm
    · exact List.disjoint_of_nodup_append hnodup hm List.mem_cons_self
  · obtain ⟨ref, -, rfl⟩ := List.mem_map.mp hperk
    exact hnone ref rfl

theorem build_amongFirst (id : String) (draft : StyleDraft) :
    Check.Fails (Fault.AmongFirst draft.usablePerks.length (.ofResource id "usable_perks"))
      (build id draft) := by
  refine bind ((Ref.distinct_reader _ _ _).otherField (by decide)) fun perks hperks => ?_
  refine step (usablePerks_fails (Ref.distinct_ok.mp hperks)) fun _ => ?_
  refine step ((Field.text_reader _ _ _).otherField (by decide)) fun _ => ?_
  refine step ((Ref.ofText_reader _ _ _).otherField (by decide)) fun _ => ?_
  refine step ((AttributeTable.read_reader _ _ _ _).otherField (by decide)) fun _ => ?_
  refine step ((JewelSlots.readAll_reader _ _ _).otherField (by decide)) fun _ => ?_
  refine step (otherField (FixedAttributes.ofDraft_fails _ _) (by decide)) fun _ => ?_
  refine step ((Ref.distinct_reader _ _ _).otherField (by decide)) fun _ => ?_
  exact step ((Field.path_reader _ _ _).otherField (by decide)) fun _ => ok

end Style

namespace Perk

/-- The ids of the styles that may use a perk: those of its author, behind its own unless that is
one of them. -/
def usableIds (own : String) (listed : List String) : List String :=
  if own ∈ listed then listed else own :: listed

theorem readUsableStyles_listed (style : Ref .style) (loc : Location)
    (texts : Option (List String)) :
    Check.Yields (fun styles => styles.map Ref.text = usableIds style.text (texts.getD []) ∧
      Ref.Distinct styles) (readUsableStyles style loc texts) := by
  cases texts with
  | none => exact .ok ⟨by simp [usableIds], List.nodup_singleton _⟩
  | some texts =>
    unfold readUsableStyles usableIds
    by_cases hlisted : style.text ∈ texts
    · simp only [List.contains_iff_mem, hlisted, if_true, Option.getD_some]
      exact Ref.distinct_distinct loc texts
    · simp only [List.contains_iff_mem, hlisted, if_false, Option.getD_some]
      refine .bind fun others hothers => .pure ?_
      obtain ⟨htexts, hnodup, -⟩ := Ref.listFrom_ok.mp hothers
      rw [Ref.Distinct, List.map_cons, htexts]
      exact ⟨rfl, List.nodup_cons.mpr ⟨hlisted, hnodup⟩⟩

theorem build_listed (id : String) (draft : PerkDraft) :
    Check.Yields (fun p => Ref.Distinct p.usableStyles ∧
      p.usableStyles.map Ref.text = usableIds draft.style (draft.usableStyles.getD []))
      (build id draft) := by
  unfold build
  refine .step fun _ => .step fun _ => .bind fun style hstyle => .bind fun styles hstyles => ?_
  repeat' refine .step fun _ => ?_
  obtain ⟨htexts, hdistinct⟩ := readUsableStyles_listed style _ _ styles hstyles
  rw [Ref.ofText_ok.mp hstyle] at htexts
  exact .pure ⟨hdistinct, htexts⟩

end Perk

theorem Character.build_distinct (id : String) (draft : CharacterDraft) :
    Check.Yields (fun c => Ref.Distinct c.styles ∧ Ref.Distinct c.equipments)
      (Character.build id draft) := by
  unfold build
  refine .step fun _ => .step fun _ => ?_
  refine .bind fun styles hstyles => .bind fun equipments hequipments => ?_
  repeat' refine .step fun _ => ?_
  exact .pure ⟨(Ref.distinct_distinct _ _ styles hstyles).2,
    (Ref.distinct_distinct _ _ equipments hequipments).2⟩

section Actions

theorem ActionBase.read_distinct (id : String) (enabled : Value) (character : String)
    (styles : List String) :
    Check.Yields (fun base => Ref.Distinct base.styles) (read id enabled character styles) := by
  unfold read
  refine .step fun _ => .step fun _ => .bind fun styles hstyles => .pure ?_
  exact (Ref.distinct_distinct _ _ styles hstyles).2

theorem ActionIdle.build_distinct (id : String) (draft : ActionIdleDraft) :
    Check.Yields (fun a => Ref.Distinct a.base.styles) (build id draft).result := by
  unfold build
  simp only [Checked.result_bind]
  refine .bind fun base hbase => ?_
  repeat' refine .step fun _ => ?_
  exact .pure (ActionBase.read_distinct _ _ _ _ base hbase)

theorem ActionGeneral.build_distinct (id : String) (draft : ActionGeneralDraft) :
    Check.Yields (fun a => Ref.Distinct a.base.styles) (build id draft).result := by
  unfold build
  simp only [Checked.result_bind]
  refine .bind fun base hbase => ?_
  repeat' refine .step fun _ => ?_
  exact .pure (ActionBase.read_distinct _ _ _ _ base hbase)

theorem ActionMove.build_distinct (id : String) (draft : ActionMoveDraft) :
    Check.Yields (fun a => Ref.Distinct a.base.styles ∧ Ref.Distinct a.smoothMoveFroms)
      (build id draft).result := by
  unfold build
  simp only [Checked.result_bind]
  refine .bind fun base hbase => ?_
  iterate 14 refine .step fun _ => ?_
  refine .bind fun froms hfroms => .step fun _ => .pure ?_
  exact ⟨ActionBase.read_distinct _ _ _ _ base hbase, (Ref.distinct_distinct _ _ froms hfroms).2⟩

end Actions

/-- No list of ids in a resource holds one twice. -/
def Resource.DistinctIds : Resource → Prop
  | .character c => Ref.Distinct c.styles ∧ Ref.Distinct c.equipments
  | .style s => Ref.Distinct s.perks ∧ Ref.Distinct s.usablePerks ∧ Ref.Distinct s.actions
  | .perk p => Ref.Distinct p.usableStyles
  | .actionIdle a => Ref.Distinct a.base.styles
  | .actionGeneral a => Ref.Distinct a.base.styles
  | .actionMove a => Ref.Distinct a.base.styles ∧ Ref.Distinct a.smoothMoveFroms
  | _ => True

theorem Draft.Builds.distinctIds {draft : Draft} {id : String} {r : Resource}
    (h : draft.Builds id r) : r.DistinctIds := by
  cases h with
  | character h => exact Character.build_distinct id _ _ h
  | style h =>
    have hlisted := Style.build_listed id _ _ h
    exact ⟨hlisted.perks, hlisted.usablePerks, hlisted.actions⟩
  | perk h => exact (Perk.build_listed id _ _ h).1
  | actionIdle h => exact ActionIdle.build_distinct id _ _ h
  | actionGeneral h => exact ActionGeneral.build_distinct id _ _ h
  | actionMove h => exact ActionMove.build_distinct id _ _ h
  | _ => trivial

/-- Whatever is built holds no id twice in a list. The usable perks of a style are its author's and
then the own ones missing from them, the usable styles of a perk are its author's, behind its own if
that is missing from them, and a style is never refused for a perk that was added. -/
theorem id_lists_exact (id : String) :
    (∀ draft r, (Draft.build id draft).result = .ok r → r.DistinctIds) ∧
    (∀ draft s, Style.build id draft = .ok s → s.usablePerks.map Ref.text =
      draft.usablePerks ++ draft.perks.filter (· ∉ draft.usablePerks)) ∧
    (∀ draft p, Perk.build id draft = .ok p → p.usableStyles.map Ref.text =
      Perk.usableIds draft.style (draft.usableStyles.getD [])) ∧
    ∀ draft fault, Style.build id draft = .error fault →
      fault.AmongFirst draft.usablePerks.length (.ofResource id "usable_perks") := by
  refine ⟨?_, ?_, ?_, ?_⟩
  · exact fun draft r h => (Draft.builds h).distinctIds
  · exact fun draft s h => (Style.build_listed id draft s h).united
  · exact fun draft p h => (Perk.build_listed id draft p h).2
  · exact fun draft fault h => Style.build_amongFirst id draft fault h

/-- A style whose author lists the second of its own perks as usable. -/
def bow : StyleDraft where
  name := "Bow"
  character := "Character.Ada"
  attributes := .object []
  slots := .array []
  fixedAttributes := ⟨.int 0, .int 0, .int 0, .int 0, .int 0, .int 0, .int 0⟩
  perks := ["Perk.Ada.Aim", "Perk.Ada.Calm"]
  usablePerks := ["Perk.Ada.Calm"]
  actions := []
  viewModel := "bow.vrm"

/-- A perk of the bow that its author lends to another style. -/
def lent : PerkDraft where
  name := "Aim"
  character := "Character.Ada"
  style := "Style.Ada.Bow"
  usableStyles := some ["Style.Ada.Sling"]
  parents := .null
  maxLevel := .int 1
  attributes := .null
  slots := .null
  entries := .null
  varIndexes := .null

/-- The last style is refused for a perk that its author lists twice. -/
theorem bow_lent_exact :
    (∃ r, ((Draft.style bow).build "Style.Ada.Bow").result = .ok r ∧ r.DistinctIds) ∧
    (∃ s, Style.build "Style.Ada.Bow" bow = .ok s ∧
      s.usablePerks.map Ref.text = ["Perk.Ada.Calm", "Perk.Ada.Aim"]) ∧
    (∃ p, Perk.build "Perk.Ada.Aim" lent = .ok p ∧
      p.usableStyles.map Ref.text = ["Style.Ada.Bow", "Style.Ada.Sling"]) ∧
    ∃ fault, Style.build "Style.Ada.Bow"
        { bow with usablePerks := ["Perk.Ada.Calm", "Perk.Ada.Calm"] } = .error fault ∧
      fault.AmongFirst 2 (.ofResource "Style.Ada.Bow" "usable_perks") := by
  obtain ⟨hdistinct, hperks, -, hfault⟩ := id_lists_exact "Style.Ada.Bow"
  obtain ⟨-, -, hstyles, -⟩ := id_lists_exact "Perk.Ada.Aim"
  obtain ⟨r, hr⟩ := Check.exists_of_isOk (x := ((Draft.style bow).build "Style.Ada.Bow").result)
    (by decide +kernel)
  obtain ⟨s, hs⟩ := Check.exists_of_isOk (x := Style.build "Style.Ada.Bow" bow) (by decide +kernel)
  obtain ⟨p, hp⟩ := Check.exists_of_isOk (x := Perk.build "Perk.Ada.Aim" lent) (by decide +kernel)
  obtain ⟨fault, hf⟩ := Check.error_of_isOk (x := Style.build "Style.Ada.Bow"
    { bow with usablePerks := ["Perk.Ada.Calm", "Perk.Ada.Calm"] }) (by decide +kernel)
  refine ⟨⟨r, hr, hdistinct _ r hr⟩, ⟨s, hs, ?_⟩, ⟨p, hp, ?_⟩, fault, hf, hfault _ fault hf⟩
  · rw [hperks bow s hs]
    decide
  · rw [hstyles lent p hp]
    decide

end GameRoster
