import GameRoster.Proofs.Bounds
import GameRoster.Proofs.Places
import GameRoster.Proofs.Verified

namespace GameRoster

/-- A variable with the same levels and the same owners, perhaps among others. -/
structure Variable.WidensTo (v wider : Variable) : Prop where
  id : wider.id = v.id
  maxLevel : wider.maxLevel = v.maxLevel
  unrestricted : v.unrestricted = true → wider.unrestricted = true
  characters : v.characters ⊆ wider.characters
  styles : v.styles ⊆ wider.styles

namespace Variable.WidensTo

variable {v wider : Variable}

theorem refl (v : Variable) : v.WidensTo v :=
  ⟨rfl, rfl, fun h => h, List.Subset.refl _, List.Subset.refl _⟩

variable (h : v.WidensTo wider)

include h

theorem ownedByCharacter {id : String} (ho : v.ownedByCharacter id = true) :
    wider.ownedByCharacter id = true := by
  unfold Variable.ownedByCharacter at ho ⊢
  rw [Ref.any_text] at ho ⊢
  exact List.map_subset _ h.characters ho

theorem ownedByStyle {id : String} (ho : v.ownedByStyle id = true) :
    wider.ownedByStyle id = true := by
  unfold Variable.ownedByStyle at ho ⊢
  rw [Ref.any_text] at ho ⊢
  exact List.map_subset _ h.styles ho

theorem readableByCharacter {c : Character} {id : String}
    (hr : v.readableByCharacter c id = true) : wider.readableByCharacter c id = true := by
  unfold Variable.readableByCharacter at hr ⊢
  rw [Bool.or_eq_true, List.all_eq_true] at hr ⊢
  rcases hr with hown | hstyles
  · exact .inl (h.ownedByCharacter hown)
  · exact .inr fun style hs => h.ownedByStyle (hstyles style hs)

theorem readableByStyle {s : Style} {id : String} (hr : v.readableByStyle s id = true) :
    wider.readableByStyle s id = true := by
  unfold Variable.readableByStyle at hr ⊢
  rw [Bool.or_eq_true] at hr ⊢
  exact hr.imp h.ownedByStyle h.ownedByCharacter

end Variable.WidensTo

namespace Registry

/-- Whatever an id leads to in a registry it leads to in another one, where variables may have more
owners. -/
structure HeldBy (reg other : Registry) : Prop where
  find : ∀ {id r}, reg.find? id = some r → other.find? id = some r
  definition : ∀ {id v}, reg.definition? id = some v →
    ∃ wider, other.definition? id = some wider ∧ v.WidensTo wider

namespace HeldBy

variable {reg other : Registry} (h : reg.HeldBy other)

include h

theorem lookup {α : Type} {view : Resource → Option α} {id : String} {a : α}
    (hl : reg.lookup? view id = some a) : other.lookup? view id = some a := by
  obtain ⟨r, hf, ha⟩ := Option.bind_eq_some_iff.mp hl
  exact Option.bind_eq_some_iff.mpr ⟨r, h.find hf, ha⟩

theorem lookup_some {α : Type} {view : Resource → Option α} {id : String}
    (hl : ∃ a, reg.lookup? view id = some a) : ∃ a, other.lookup? view id = some a :=
  hl.imp fun _ => h.lookup

theorem lookup_imp {α : Type} {view : Resource → Option α} {id : String} {P Q : α → Prop}
    (hl : ∃ a, reg.lookup? view id = some a ∧ P a) (himp : ∀ a, P a → Q a) :
    ∃ a, other.lookup? view id = some a ∧ Q a :=
  hl.imp fun a => And.imp h.lookup (himp a)

/-- What was looked up and found right is found right again. -/
theorem lookup_and {α : Type} {view : Resource → Option α} {id : String} {P : α → Prop}
    (hl : ∃ a, reg.lookup? view id = some a ∧ P a) :
    ∃ a, other.lookup? view id = some a ∧ P a :=
  h.lookup_imp hl fun _ ha => ha

theorem readable {v wider : Variable} {readers : Readers} (hw : v.WidensTo wider)
    (hr : reg.Readable v readers) : other.Readable wider readers := by
  rcases hr with hu | ⟨hc, hs⟩
  · exact .inl (hw.unrestricted hu)
  · refine .inr ⟨fun id hid => ?_, fun id hid => ?_⟩
    · exact h.lookup_imp (hc id hid) fun _ => hw.readableByCharacter
    · exact h.lookup_imp (hs id hid) fun _ => hw.readableByStyle

theorem allows {α : Type} {readers : Readers} {setting : Setting α}
    (ha : reg.Allows readers setting) : other.Allows readers setting := by
  cases setting with
  | fixed a => trivial
  | bound id values =>
    obtain ⟨v, hd, hr, hl⟩ := ha
    obtain ⟨wider, hd', hw⟩ := h.definition hd
    exact ⟨wider, hd', h.readable hw hr, by rw [hl, hw.maxLevel]⟩

theorem allowsTable {readers : Readers} {table : IndexTable}
    (ha : reg.AllowsTable readers table) : other.AllowsTable readers table := by
  intro row hrow
  obtain ⟨v, hd, hr, hi⟩ := ha row hrow
  obtain ⟨wider, hd', hw⟩ := h.definition hd
  exact ⟨wider, hd', h.readable hw hr, by rwa [hw.maxLevel]⟩

theorem entryTable {table : EntryTable} (ht : EntryTable.Verified table reg) :
    EntryTable.Verified table other :=
  fun row hrow => h.lookup_and (ht row hrow)

theorem actionBase {base : ActionBase} {id : String} (hb : base.Verified id reg) :
    base.Verified id other where
  enabled := h.allows hb.enabled
  character := h.lookup_some hb.character
  styles style hs := h.lookup_and (hb.styles style hs)

theorem phase {a : PhaseAttributes} {readers : Readers} (ha : a.Verified reg readers) :
    a.Verified other readers where
  damageReduction := h.allows ha.damageReduction
  shieldDamageReduction := h.allows ha.shieldDamageReduction
  poiseLevel := h.allows ha.poiseLevel

theorem deriveRule {rule : DeriveRule} {readers : Readers}
    (hr : DeriveRule.Verified rule reg readers) : DeriveRule.Verified rule other readers where
  allowed := h.allows hr.allowed
  candidates id hid := h.lookup_some (hr.candidates id hid)

theorem character {c : Character} (hc : c.Verified reg) : c.Verified other where
  styles id hid := h.lookup_and (hc.styles id hid)
  equipments id hid := h.lookup_and (hc.equipments id hid)

theorem style {s : Style} (hs : s.Verified reg) : s.Verified other where
  character := h.lookup_and hs.character
  perks id hid := h.lookup_and (hs.perks id hid)
  usablePerks id hid := h.lookup_and (hs.usablePerks id hid)
  actions id hid := h.lookup_and (hs.actions id hid)

theorem equipment {e : Equipment} (he : e.Verified reg) : e.Verified other where
  character := h.lookup_and he.character
  parents row hrow := h.lookup_and (he.parents row hrow)
  entries table ht := h.entryTable (he.entries table ht)

theorem entry {e : Entry} (he : e.Verified reg) : e.Verified other where
  varIndexes table ht := h.allowsTable (he.varIndexes table ht)
  varIndexesPlus table ht := h.allowsTable (he.varIndexesPlus table ht)

theorem perk {p : Perk} (hp : p.Verified reg) : p.Verified other where
  character := h.lookup_some hp.character
  style := h.lookup_and hp.style
  usableStyles id hid := h.lookup_and (hp.usableStyles id hid)
  parents row hrow := h.lookup_and (hp.parents row hrow)
  entries table ht := h.entryTable (hp.entries table ht)
  varIndexes table ht := h.allowsTable (hp.varIndexes table ht)

theorem jewel {j : Jewel} (hj : j.Verified reg) : j.Verified other where
  entry := h.lookup_and hj.entry
  sub sub hs := h.lookup_and (hj.sub sub hs)

theorem accessoryPool {p : AccessoryPool} (hp : p.Verified reg) : p.Verified other where
  aEntries row hrow := h.lookup_some (hp.aEntries row hrow)
  bEntries row hrow := h.lookup_some (hp.bEntries row hrow)

theorem accessory {a : Accessory} (ha : a.Verified reg) : a.Verified other where
  pool := h.lookup_some ha.pool
  entry := h.lookup_and ha.entry

theorem actionGeneral {a : ActionGeneral} (ha : a.Verified reg) : a.Verified other where
  base := h.actionBase ha.base
  coolDownTime := h.allows ha.coolDownTime
  coolDownRounds := h.allows ha.coolDownRounds
  coolDownInitRounds := h.allows ha.coolDownInitRounds
  attributes phase hphase := h.phase (ha.attributes phase hphase)
  deriveLevels level hlevel := h.allows (ha.deriveLevels level hlevel)
  derives rules hrules rule hrule := h.deriveRule (ha.derives rules hrules rule hrule)
  deriveContinues setting hs := h.allows (ha.deriveContinues setting hs)
  customEvents events he pair hpair := h.allows (ha.customEvents events he pair hpair)

theorem actionMove {a : ActionMove} (ha : a.Verified reg) : a.Verified other where
  base := h.actionBase ha.base
  smoothMoveFroms id hid := h.lookup_some (ha.smoothMoveFroms id hid)

theorem verified {r : Resource} (hr : r.Verified reg) : r.Verified other := by
  cases r with
  | character c => exact h.character hr
  | style s => exact h.style hr
  | equipment e => exact h.equipment hr
  | entry e => exact h.entry hr
  | perk p => exact h.perk hr
  | jewel j => exact h.jewel hr
  | accessoryPool p => exact h.accessoryPool hr
  | accessory a => exact h.accessory hr
  | zone z => trivial
  | actionIdle a => exact h.actionBase hr
  | actionGeneral a => exact h.actionGeneral hr
  | actionMove a => exact h.actionMove hr

end HeldBy

/-- The same resources, and the same variables with perhaps more owners. -/
structure WidensTo (reg wider : Registry) : Prop where
  resources : wider.resources = reg.resources
  definitions : List.Forall₂ Variable.WidensTo reg.definitions wider.definitions

/-- A variable and the wider one have the same id, so both are found at the same place. -/
theorem find_wider {vs ws : List Variable} (h : List.Forall₂ Variable.WidensTo vs ws)
    {id : String} {v : Variable} (hf : (vs.find? fun v => v.id.text == id) = some v) :
    ∃ w, (ws.find? fun w => w.id.text == id) = some w ∧ v.WidensTo w := by
  induction h with
  | nil => cases hf
  | @cons first wider rest others hfirst _ ih =>
    rw [List.find?_cons] at hf ⊢
    rw [hfirst.id]
    split at hf
    · obtain rfl := Option.some.inj hf
      exact ⟨wider, rfl, hfirst⟩
    · exact ih hf

theorem WidensTo.heldBy {reg wider : Registry} (h : reg.WidensTo wider) : reg.HeldBy wider := by
  constructor
  case find =>
    intro id r hf
    rwa [find?, h.resources]
  case definition => exact fun hd => find_wider h.definitions hd

theorem WidensTo.verify {reg wider : Registry} (h : reg.WidensTo wider)
    (hv : reg.verify = .ok ()) : wider.verify = .ok () := by
  refine verify_ok.mpr fun r hr => ?_
  rw [h.resources] at hr
  exact h.heldBy.verified (verify_ok.mp hv r hr)

end Registry

/-- The faults of readers: one that does not own the variable, and one that is not registered as
what it reads as. -/
inductive Fault.OfReader : Fault → Prop
  | notOwned (loc : Location) (reader id : String) : OfReader (.variable loc (.notOwned reader id))
  | notFound (loc : Location) (id : String) : OfReader (.notFound loc id)
  | typeMismatch (loc : Location) (id : String) (expected : Expected) :
      OfReader (.typeMismatch loc id expected)

namespace Registry
open Check.Fails

variable {reg : Registry}

theorem findAs_readers {α : Type} {expected : Expected} {view : Resource → Option α}
    (loc : Location) (id : String) :
    Check.Fails Fault.OfReader (reg.findAs expected view loc id) := by
  unfold Registry.findAs Registry.find
  refine step ?_ fun r => ?_
  · split
    · exact ok
    · exact error (.notFound loc id)
  · split
    · exact ok
    · exact error (.typeMismatch loc id expected)

theorem checkCharacterReader_readers (v : Variable) (loc : Location) (id : String) :
    Check.Fails Fault.OfReader (reg.checkCharacterReader v loc id) := by
  refine step (findAs_readers loc id) fun c => ?_
  split
  · exact ok
  · exact error (.notOwned loc id _)

theorem checkStyleReaders_readers (v : Variable) (loc : Location) (ids : List String) :
    Check.Fails Fault.OfReader (reg.checkStyleReaders v loc ids) := by
  induction ids with
  | nil => exact ok
  | cons id rest ih =>
    refine step (step (findAs_readers loc id) fun s => ?_) fun _ => ih
    split
    · exact ok
    · exact error (.notOwned loc id _)

theorem checkReaders_readers (v : Variable) (readers : Readers) (loc : Location) :
    Check.Fails Fault.OfReader (reg.checkReaders v readers loc) := by
  unfold checkReaders
  split
  · exact ok
  · split
    · refine step (checkCharacterReader_readers v loc _) fun _ => ?_
      exact checkStyleReaders_readers v loc readers.styles
    · exact checkStyleReaders_readers v loc readers.styles

section Bindings

variable {α : Type} {readers : Readers} {loc : Location} {id : Ref .variable}

theorem checkSetting_undefined (values : List α) (hd : reg.definition? id.text = none) :
    reg.checkSetting readers loc (.bound id values) =
      .error (.variable loc (.undefined id.text)) := checkSettingWith_undefined hd

/-- The readers of a variable are checked before the values are counted. -/
theorem checkSetting_defined (values : List α) {v : Variable}
    (hd : reg.definition? id.text = some v) :
    reg.checkSetting readers loc (.bound id values) =
      (reg.checkReaders v readers loc >>= fun _ =>
        if v.maxLevel + 1 = values.length then .ok ()
        else .error (.variable loc (.valueCount id.text (v.maxLevel + 1)))) := by
  have heach : loc.checkEach (fun _ (_ : α) => (.ok () : Check Unit)) values = .ok () :=
    (Location.checkEach_ok (P := fun _ => True) (fun _ _ => by simp) loc values).mpr
      fun _ _ => trivial
  unfold checkSetting
  rw [checkSettingWith_defined hd, heach]
  refine congrArg (Bind.bind (reg.checkReaders v readers loc)) (funext fun _ => ?_)
  split <;> rfl

/-- A setting is refused for its readers exactly if its variable is. -/
theorem checkSetting_denied {setting : Setting α} {fault : Fault} :
    reg.checkSetting readers loc setting = .error fault ∧ fault.OfReader ↔
      ∃ id values v, setting = .bound id values ∧ reg.definition? id.text = some v ∧
        reg.checkReaders v readers loc = .error fault := by
  constructor
  · rintro ⟨hcheck, hsort⟩
    cases setting with
    | fixed a => cases hcheck
    | bound id values =>
      cases hd : reg.definition? id.text with
      | none =>
        rw [checkSetting_undefined values hd] at hcheck
        obtain rfl := Except.error.inj hcheck
        cases hsort
      | some v =>
        rw [checkSetting_defined values hd] at hcheck
        cases hr : reg.checkReaders v readers loc with
        | error other =>
          rw [hr] at hcheck
          obtain rfl : other = fault := Except.error.inj hcheck
          exact ⟨id, values, v, rfl, hd, hr⟩
        | ok done =>
          have hcount : Check.Fails (fun fault => ¬ fault.OfReader)
              (if v.maxLevel + 1 = values.length then .ok ()
                else .error (.variable loc (.valueCount id.text (v.maxLevel + 1))) :
                Check Unit) := by
            split
            · exact ok
            · exact error nofun
          rw [hr] at hcheck
          exact absurd hsort (hcount fault hcheck)
  · rintro ⟨id, values, v, rfl, hd, hr⟩
    refine ⟨?_, checkReaders_readers v readers loc fault hr⟩
    rw [checkSetting_defined values hd, hr]
    rfl

end Bindings

/-- Who may read a variable may read it whoever else reads it less. -/
theorem Readable.fewer {v : Variable} {readers more : Readers}
    (hc : more.character = readers.character) (hs : readers.styles ⊆ more.styles)
    (h : reg.Readable v more) : reg.Readable v readers := by
  rcases h with hu | ⟨hcharacter, hstyles⟩
  · exact .inl hu
  · refine .inr ⟨?_, fun id hid => hstyles id (hs hid)⟩
    rwa [← hc]

/-- More styles that read a setting do not help one that may not. -/
theorem checkSetting_more {α : Type} {readers more : Readers} {loc : Location}
    {setting : Setting α} {fault : Fault} (hc : more.character = readers.character)
    (hs : readers.styles ⊆ more.styles)
    (hcheck : reg.checkSetting readers loc setting = .error fault) (hsort : fault.OfReader) :
    ∃ other, reg.checkSetting more loc setting = .error other ∧ other.OfReader := by
  obtain ⟨id, values, v, rfl, hd, hr⟩ := checkSetting_denied.mp ⟨hcheck, hsort⟩
  cases hmore : reg.checkReaders v more loc with
  | error other => exact ⟨other, checkSetting_denied.mpr ⟨id, values, v, rfl, hd, hmore⟩⟩
  | ok done =>
    have hfewer := (checkReaders_ok.mp hmore).fewer hc hs
    rw [checkReaders_ok.mpr hfewer] at hr
    cases hr

/-- Verification outlives every widening of who owns the variables, and who is refused a variable
is refused it in company as well. -/
theorem ownership_widens :
    (∀ reg wider : Registry, reg.WidensTo wider → reg.verify = .ok () → wider.verify = .ok ()) ∧
    ∀ (α : Type) (reg : Registry) (readers more : Readers) (loc : Location) (setting : Setting α)
      (fault : Fault), more.character = readers.character → readers.styles ⊆ more.styles →
      reg.checkSetting readers loc setting = .error fault → fault.OfReader →
        ∃ other, reg.checkSetting more loc setting = .error other ∧ other.OfReader :=
  ⟨fun _ _ h hv => h.verify hv, fun _ _ _ _ _ _ _ hc hs hcheck hsort =>
    checkSetting_more hc hs hcheck hsort⟩

/-- A registry where every variable has one more owner and may be read by anyone. -/
def opened (reg : Registry) (style : Ref .style) : Registry :=
  { reg with
    definitions := reg.definitions.map fun v =>
      { v with unrestricted := true, styles := v.styles ++ [style] } }

theorem opened_wider (reg : Registry) (style : Ref .style) : reg.WidensTo (reg.opened style) := by
  refine ⟨rfl, List.forall₂_map_right_iff.mpr (List.forall₂_same.mpr fun v _ => ?_)⟩
  exact ⟨rfl, rfl, fun _ => rfl, List.Subset.refl _, List.subset_append_left _ _⟩

/-- A style that the archer does not have, and a variable that only this style owns. -/
def fist : Ref .style :=
  ⟨"Style.Bo.Fist", ⟨"Bo".toList, ["Fist".toList], none⟩, by decide +kernel⟩

def nerve : Ref .variable := ⟨"#.Nerve", ⟨"Nerve".toList, [], none⟩, by decide +kernel⟩

/-- The archer beside a variable that she may not read. -/
def envious : Registry := (veteran.declareAll
  [.variable "#.Nerve" { maxLevel := .int 1, owners := .one "Style.Bo.Fist" }]).registry

theorem envious_refused :
    veteran.verify = .ok () ∧ (veteran.opened fist).verify = .ok () ∧
      ∃ other : Fault, envious.checkSetting ⟨none, ["Style.Bo.Fist", "Style.Ada.Bow"]⟩
        (.label "nerve") (.bound nerve [1, 2]) = .error other ∧ other.OfReader := by
  obtain ⟨hverify, hrefuse⟩ := ownership_widens
  have hdenied : ∃ v ∈ envious.definitions, envious.definition? nerve.text = some v ∧
      (envious.checkReaders v ⟨none, ["Style.Ada.Bow"]⟩ (.label "nerve")).isOk = false := by
    decide +kernel
  obtain ⟨v, _, hd, hr⟩ := hdenied
  obtain ⟨fault, hfault⟩ := Check.error_of_isOk hr
  have halone : envious.checkSetting ⟨none, ["Style.Ada.Bow"]⟩ (.label "nerve")
      (.bound nerve [1, 2]) = .error fault ∧ fault.OfReader :=
    checkSetting_denied.mpr ⟨nerve, [1, 2], v, rfl, hd, hfault⟩
  have hmore : ["Style.Ada.Bow"] ⊆ ["Style.Bo.Fist", "Style.Ada.Bow"] :=
    List.subset_cons_of_subset _ (List.Subset.refl _)
  exact ⟨veteran_verify, hverify _ _ (opened_wider _ _) veteran_verify,
    hrefuse _ _ ⟨none, ["Style.Ada.Bow"]⟩ _ _ _ fault rfl hmore halone.1 halone.2⟩

end Registry

end GameRoster
