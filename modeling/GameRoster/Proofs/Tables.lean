import GameRoster.Proofs.PerLevel

namespace GameRoster

namespace Attribute

theorem Group.ofBase_plain {name : String} {group : Group} (h : Group.ofBase? name = some group) :
    group = .primary ∨ group = .secondary ∨ group = .final := by
  unfold Group.ofBase? at h
  split at h
  · exact .inl (Option.some.inj h).symm
  · split at h
    · exact .inr (.inl (Option.some.inj h).symm)
    · split at h
      · exact .inr (.inr (Option.some.inj h).symm)
      · cases h

/-- Only names with a dollar sign are of a group that scales with upgrades. -/
theorem groupOf_plain {name : String} {group : Group} (hname : plusBase? name = none)
    (h : groupOf? name = some group) : group = .primary ∨ group = .secondary ∨ group = .final := by
  unfold groupOf? at h
  rw [hname] at h
  exact Group.ofBase_plain h

theorem groupOf_plus {name base : String} {group : Group} (hname : plusBase? name = some base)
    (h : groupOf? name = some group) : ∃ plain, Group.ofBase? base = some plain ∧
      plain.plus = group := by
  unfold groupOf? at h
  rw [hname] at h
  exact Option.map_eq_some_iff.mp h

end Attribute

/-- Every row is of one of some groups and has as many values as there are levels. -/
def AttributeTable.Spans (table : AttributeTable) (groups : List Attribute.Group) (n : Int) :
    Prop :=
  ∀ row ∈ table, (∃ group ∈ groups, Attribute.groupOf? row.1 = some group) ∧
    (row.2.length : Int) = n

/-- Every row has a level of its variable for each level of the resource. -/
def IndexTable.Spans (table : IndexTable) (n : Int) : Prop :=
  ∀ row ∈ table, (row.2.length : Int) = n ∧ ∀ index ∈ row.2, 0 ≤ index

/-- Every row has a gain for each level, whose upgrades fit on its pieces. -/
def EntryTable.Spans (table : EntryTable) (n : Int) : Prop :=
  ∀ row ∈ table, (row.2.length : Int) = n ∧
    ∀ gain ∈ row.2, 0 ≤ gain.piece ∧ 0 ≤ gain.plus ∧ gain.plus ≤ 3 * gain.piece

/-- Every row starts from a zero and goes on with a value per piece. The groups are those of the
names as they were written, with a dollar sign if they scale with upgrades. -/
def AttributeTable.Grows (table : AttributeTable) (group? : String → Option Attribute.Group)
    (groups : List Attribute.Group) (pieces : Int) : Prop :=
  ∀ row ∈ table, (∃ group ∈ groups, group? row.1 = some group) ∧
    (row.2.length : Int) = pieces + 1 ∧ row.2.head? = some 0

structure Equipment.Tabled (e : Equipment) : Prop where
  level : e.level.1 ≤ e.level.2
  attributes : e.attributes.Spans [.primary, .secondary] (e.level.2 - e.level.1 + 1)
  slots : ∀ slots ∈ e.slots, (slots.length : Int) = e.level.2 - e.level.1 + 1
  entries : ∀ table ∈ e.entries, EntryTable.Spans table (e.level.2 - e.level.1 + 1)

structure Perk.Tabled (p : Perk) : Prop where
  attributes : ∀ table ∈ p.attributes,
    AttributeTable.Spans table [.primary, .secondary] p.maxLevel
  slots : ∀ slots ∈ p.slots, (slots.length : Int) = p.maxLevel
  entries : ∀ table ∈ p.entries, EntryTable.Spans table p.maxLevel
  varIndexes : ∀ table ∈ p.varIndexes, IndexTable.Spans table p.maxLevel

structure Entry.Tabled (e : Entry) : Prop where
  attributes : ∀ table ∈ e.attributes,
    AttributeTable.Grows table Attribute.groupOf? [.primary, .secondary] e.maxPiece
  attributesPlus : ∀ table ∈ e.attributesPlus,
    AttributeTable.Grows table Attribute.Group.ofBase? [.secondary] e.maxPiece
  varIndexes : ∀ table ∈ e.varIndexes, IndexTable.Spans table e.maxPiece
  varIndexesPlus : ∀ table ∈ e.varIndexesPlus, IndexTable.Spans table e.maxPiece

theorem AttributeTable.read_spans (groups : List Attribute.Group) (n : Nat) (loc : Location)
    (raw : Value) :
    Check.Yields (fun table : AttributeTable => table.Spans groups n)
      (read groups (.perLevel n) loc raw) := by
  have hexact : (RowLimits.perLevel n).lengths.exact = some n := rfl
  refine (read_exact hexact loc raw).mono fun table h row hrow => ?_
  obtain ⟨hgroup, written, hlen, hwritten⟩ := h row hrow
  have hsame : row.2 = written := hwritten
  exact ⟨hgroup, by rw [hsame, hlen]⟩

theorem IndexTable.row_spans (n : Nat) (id : String) (loc : Location) (raw : Value) :
    Check.Yields (fun row => (row.2.length : Int) = n ∧ ∀ index ∈ row.2, 0 ≤ index)
      (row (some n) id loc raw) := by
  intro result hresult
  refine ⟨?_, row_nonneg _ id loc raw result hresult⟩
  have hlen : Check.Yields (fun row => row.2.length = n) (row (some n) id loc raw) := by
    unfold row
    refine .step fun id => .bind fun indexes hindexes => .pure ?_
    obtain ⟨written, hlen, hwritten⟩ :=
      Field.numbers_exact (n := n) rfl _ _ none loc raw indexes hindexes
    have hsame : indexes = written := hwritten
    rw [hsame, hlen]
  rw [hlen result hresult]

theorem IndexTable.read_spans (n : Nat) (loc : Location) (raw : Value) :
    Check.Yields (fun result => ∀ table ∈ result, IndexTable.Spans table n)
      (read (some n) loc raw) :=
  read_all (P := fun indexes => (indexes.length : Int) = n ∧ ∀ index ∈ indexes, 0 ≤ index)
    (row_spans n) loc raw

theorem IndexTable.readPlus_spans (n : Nat) (loc : Location) (raw : Value) :
    Check.Yields (fun tables : Option IndexTable × Option IndexTable =>
      (∀ table ∈ tables.1, IndexTable.Spans table n) ∧
        ∀ table ∈ tables.2, IndexTable.Spans table n) (readPlus (some n) loc raw) :=
  readPlus_all (P := fun indexes => (indexes.length : Int) = n ∧ ∀ index ∈ indexes, 0 ≤ index)
    (row_spans n) loc raw

theorem EntryGain.Bounded.limits {gain : EntryGain} (h : gain.Bounded) :
    0 ≤ gain.piece ∧ 0 ≤ gain.plus ∧ gain.plus ≤ 3 * gain.piece := by
  have hfits := of_decide_eq_true h.fits
  simp only [plusPerPiece] at hfits
  exact ⟨h.piece, h.plus, by omega⟩

theorem EntryTable.read_spans (n : Nat) (loc : Location) (raw : Value) :
    Check.Yields (fun table => EntryTable.Spans table n) (read (.exactly n) loc raw) := by
  intro table htable
  have hlen : Check.Yields (fun table : EntryTable => ∀ row ∈ table, row.2.length = n)
      (read (.exactly n) loc raw) := by
    unfold read
    refine .step fun fields => Location.eachKey_all (fun loc id raw => ?_) loc fields
    unfold row
    refine .step fun id => .bind fun gains hgains => .pure ?_
    exact Field.listOf_exact rfl gain loc raw gains hgains
  intro row hrow
  refine ⟨by rw [hlen table htable row hrow], fun gain hgain => ?_⟩
  exact (read_bounded _ loc raw table htable row hrow gain hgain).limits

section Pieces

variable (pieces : Nat)

/-- What is known of a row before its dollar sign is looked at. -/
def Entry.RowWritten (name : String) (values : List Float) : Prop :=
  (∃ group ∈ attributeGroups, Attribute.groupOf? name = some group) ∧
    (values.length : Int) = pieces + 1 ∧ values.head? = some 0

theorem Entry.read_written (loc : Location) (raw : Value) :
    Check.Yields (fun table : AttributeTable => ∀ row ∈ table, RowWritten pieces row.1 row.2)
      (AttributeTable.read attributeGroups (rowLimits pieces) loc raw) := by
  refine (AttributeTable.read_exact (rowLimits_exact pieces) loc raw).mono ?_
  intro table h row hrow
  obtain ⟨hgroup, written, hlen, hwritten⟩ := h row hrow
  rw [rowLimits, Option.toList_some, List.singleton_append] at hwritten
  rw [hwritten, RowWritten, List.length_cons, hlen]
  exact ⟨hgroup, rfl, rfl⟩

/-- Without a dollar sign the group is one that grows with levels, and with one it is the only one
of the three that scales with upgrades. -/
theorem Entry.readPlus_grows (loc : Location) (raw : Value) :
    Check.Yields (fun tables : Option AttributeTable × Option AttributeTable =>
      (∀ table ∈ tables.1,
        AttributeTable.Grows table Attribute.groupOf? [.primary, .secondary] pieces) ∧
      ∀ table ∈ tables.2,
        AttributeTable.Grows table Attribute.Group.ofBase? [.secondary] pieces)
      (AttributeTable.readPlus attributeGroups (rowLimits pieces) loc raw) := by
  refine (AttributeTable.readPlus_rows (read_written pieces loc raw)).mono fun tables h => ⟨?_, ?_⟩
  · intro table ht row hrow
    obtain ⟨hname, ⟨group, hmem, hgroup⟩, hvalues⟩ := h.1 table ht row hrow
    refine ⟨⟨group, ?_, hgroup⟩, hvalues⟩
    rcases Attribute.groupOf_plain hname hgroup with rfl | rfl | rfl
    · decide
    · decide
    · exact absurd hmem (by decide)
  · intro table ht row hrow
    obtain ⟨name, hname, ⟨group, hmem, hgroup⟩, hvalues⟩ := h.2 table ht row hrow
    obtain ⟨plain, hplain, rfl⟩ := Attribute.groupOf_plus hname hgroup
    refine ⟨⟨plain, ?_, hplain⟩, hvalues⟩
    rcases Attribute.Group.ofBase_plain hplain with rfl | rfl | rfl
    · exact absurd hmem (by decide)
    · decide
    · exact absurd hmem (by decide)

end Pieces

/-- As many levels as a range that goes upwards includes. -/
theorem levelCount_eq {range : Int × Int} (h : range.1 ≤ range.2) :
    (levelCount range : Int) = range.2 - range.1 + 1 := by
  unfold levelCount
  omega

theorem Equipment.build_tabled (id : String) (draft : EquipmentDraft) :
    Check.Yields Equipment.Tabled (Equipment.build id draft) := by
  unfold Equipment.build
  iterate 3 refine .step fun _ => ?_
  refine .bind fun level hlevel => .step fun parents => ?_
  refine .bind fun attributes hattributes => .bind fun slots hslots => ?_
  refine .bind fun entries hentries => .pure ?_
  obtain ⟨-, -, hle⟩ := Field.range_yields Field.int_nonneg _ _ level hlevel
  have hlevels := levelCount_eq (Int.not_lt.mp hle)
  constructor
  case level => exact Int.not_lt.mp hle
  case attributes =>
    rw [← hlevels]
    exact AttributeTable.read_spans _ _ _ _ attributes hattributes
  case slots =>
    intro items hitems
    have hlen := Field.optional_yields (Field.listOf_exact (n := levelCount level) rfl
      JewelSlots.read _) _ slots hslots items hitems
    rw [← hlevels, hlen]
  case entries =>
    rw [← hlevels]
    exact Field.optional_yields (EntryTable.read_spans _ _) _ entries hentries

theorem Perk.build_tabled (id : String) (draft : PerkDraft) :
    Check.Yields Perk.Tabled (Perk.build id draft) := by
  unfold Perk.build
  iterate 5 refine .step fun _ => ?_
  refine .bind fun maxLevel hlevel => .bind fun attributes hattributes => ?_
  refine .bind fun slots hslots => .bind fun entries hentries => ?_
  refine .bind fun indexes hindexes => .pure ?_
  have hlevels : (maxLevel.toNat : Int) = maxLevel :=
    Int.toNat_of_nonneg (Field.int_nonneg _ _ maxLevel hlevel)
  constructor
  case attributes =>
    have hread := Field.optional_yields (AttributeTable.read_spans _ _ _) _ attributes hattributes
    rwa [hlevels] at hread
  case slots =>
    intro items hitems
    have hlen := Field.optional_yields (Field.listOf_exact (n := maxLevel.toNat) rfl
      JewelSlots.read _) _ slots hslots items hitems
    rw [hlen, hlevels]
  case entries =>
    have hread := Field.optional_yields (EntryTable.read_spans _ _) _ entries hentries
    rwa [hlevels] at hread
  case varIndexes =>
    have hread := Field.orElse_yields (by simp) (IndexTable.read_spans _ _) _ indexes hindexes
    rwa [hlevels] at hread

theorem Entry.build_tabled (id : String) (draft : EntryDraft) :
    Check.Yields Entry.Tabled (Entry.build id draft) := by
  unfold Entry.build
  refine .step fun name => .bind fun maxPiece hpiece => ?_
  refine .bind fun tables htables => .bind fun indexes hindexes => .pure ?_
  have hpieces : (maxPiece.toNat : Int) = maxPiece := by
    have hpos := Field.int_pos _ _ maxPiece hpiece
    omega
  have hattributes := Field.orElse_yields (by simp) (readPlus_grows _ _) _ tables htables
  have hindexed := Field.orElse_yields (by simp) (IndexTable.readPlus_spans _ _) _ indexes hindexes
  rw [hpieces] at hattributes hindexed
  exact ⟨hattributes.1, hattributes.2, hindexed.1, hindexed.2⟩

/-- Whatever is built has a value for each of its levels or pieces in every row of every table. -/
theorem tables_match_levels (id : String) :
    (∀ draft e, Equipment.build id draft = .ok e → e.Tabled) ∧
    (∀ draft p, Perk.build id draft = .ok p → p.Tabled) ∧
    ∀ draft e, Entry.build id draft = .ok e → e.Tabled :=
  ⟨Equipment.build_tabled id, Perk.build_tabled id, Entry.build_tabled id⟩

/-- A helm of two levels with a row of each table. -/
def helm : EquipmentDraft where
  name := "Helm"
  character := "Character.Ada"
  slot := "Slot1"
  parents := .null
  level := .array [.int 2, .int 3]
  attributes := .object [("MaxHealth", .array [.int 5, .int 9])]
  slots := .array [.string "A1", .string "A1D1"]
  entries := .object [("Entry.Power", .array [.array [.int 1, .int 3], .array [.int 2, .int 0]])]

/-- A perk of one level, with the level of a variable. -/
def calm : PerkDraft where
  name := "Calm"
  character := "Character.Ada"
  style := "Style.Ada.Bow"
  usableStyles := none
  parents := .null
  maxLevel := .int 1
  attributes := .object [("AttackUp", .array [.string "10%"])]
  slots := .null
  entries := .null
  varIndexes := .object [("#.Focus", .array [.int 2])]

/-- An entry of two pieces with an attribute that grows with levels and one that scales with
upgrades. -/
def power : EntryDraft where
  name := "Power"
  maxPiece := .int 2
  attributes := .object [("MaxHealth", .array [.int 5, .int 9]),
    ("$AttackUp", .array [.int 1, .int 2])]
  varIndexes := .object [("#.Focus", .array [.int 0, .int 1])]

theorem helm_calm_power_match :
    (∃ e, Equipment.build "Equipment.Ada.Helm" helm = .ok e ∧ e.Tabled) ∧
    (∃ p, Perk.build "Perk.Ada.Calm" calm = .ok p ∧ p.Tabled) ∧
    ∃ e, Entry.build "Entry.Power" power = .ok e ∧ e.Tabled := by
  obtain ⟨e, he⟩ := Check.exists_of_isOk (x := Equipment.build "Equipment.Ada.Helm" helm)
    (by decide +kernel)
  obtain ⟨p, hp⟩ := Check.exists_of_isOk (x := Perk.build "Perk.Ada.Calm" calm)
    (by decide +kernel)
  obtain ⟨w, hw⟩ := Check.exists_of_isOk (x := Entry.build "Entry.Power" power)
    (by decide +kernel)
  exact ⟨⟨e, he, (tables_match_levels _).1 helm e he⟩,
    ⟨p, hp, (tables_match_levels _).2.1 calm p hp⟩,
    ⟨w, hw, (tables_match_levels _).2.2 power w hw⟩⟩

end GameRoster
