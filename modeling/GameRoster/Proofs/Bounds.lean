import GameRoster.Proofs.Growth
import GameRoster.Proofs.WholeDoubles
import Mathlib.Data.List.Forall2

namespace GameRoster

namespace Location

variable {α β : Type} {loc : Location}

/-- Items are read at their own positions. -/
theorem each_iff {read : Location → α → Check β} {items : List α} {results : List β} :
    loc.each read items = .ok results ↔
      List.Forall₂ (fun item b => read (loc.index item.2) item.1 = .ok b) items.zipIdx results := by
  unfold each
  generalize 0 = i
  induction items generalizing i results with
  | nil =>
    simp only [eachFrom, Check.pure_ok, List.zipIdx_nil, List.forall₂_nil_left_iff]
    exact eq_comm
  | cons item rest ih =>
    simp only [eachFrom, Check.bind_ok, Check.pure_ok, List.zipIdx_cons,
      List.forall₂_cons_left_iff, ← ih]
    constructor
    · rintro ⟨first, hfirst, others, hothers, rfl⟩
      exact ⟨first, others, hfirst, hothers, rfl⟩
    · rintro ⟨first, others, hfirst, hothers, rfl⟩
      exact ⟨first, hfirst, others, hothers, rfl⟩

/-- Entries are read at their own keys. -/
theorem eachKey_iff {read : Location → String → α → Check β} {entries : List (String × α)}
    {results : List β} :
    loc.eachKey read entries = .ok results ↔
      List.Forall₂ (fun entry b => read (loc.key entry.1) entry.1 entry.2 = .ok b) entries
        results := by
  induction entries generalizing results with
  | nil =>
    simp only [eachKey, Check.pure_ok, List.forall₂_nil_left_iff]
    exact eq_comm
  | cons entry rest ih =>
    simp only [eachKey, Check.bind_ok, Check.pure_ok, List.forall₂_cons_left_iff, ← ih]
    constructor
    · rintro ⟨first, hfirst, others, hothers, rfl⟩
      exact ⟨first, others, hfirst, hothers, rfl⟩
    · rintro ⟨first, others, hfirst, hothers, rfl⟩
      exact ⟨first, hfirst, others, hothers, rfl⟩

theorem each_mem {P : β → Prop} {read : Location → α → Check β} {items : List α}
    (h : ∀ item ∈ items, ∀ loc, Check.Yields P (read loc item)) (loc : Location) :
    Check.Yields (fun results => ∀ b ∈ results, P b) (loc.each read items) := by
  unfold each
  generalize 0 = i
  induction items generalizing i with
  | nil => exact .pure (List.forall_mem_nil _)
  | cons item rest ih =>
    obtain ⟨hitem, hrest⟩ := List.forall_mem_cons.mp h
    unfold eachFrom
    refine .bind fun first hfirst => .bind fun others hothers => .pure ?_
    exact List.forall_mem_cons.mpr ⟨hitem _ first hfirst, ih hrest _ others hothers⟩

theorem each_all {P : β → Prop} {read : Location → α → Check β}
    (h : ∀ loc item, Check.Yields P (read loc item)) (loc : Location) (items : List α) :
    Check.Yields (fun results => ∀ b ∈ results, P b) (loc.each read items) :=
  each_mem (fun item _ loc => h loc item) loc

theorem each_length {read : Location → α → Check β} (loc : Location) (items : List α) :
    Check.Yields (fun results => results.length = items.length) (loc.each read items) := by
  intro results h
  have hlength := (each_iff.mp h).length_eq
  rw [List.length_zipIdx] at hlength
  exact hlength.symm

/-- What each item has to do with what is read of it. -/
theorem each_related {R : α → β → Prop} {read : Location → α → Check β}
    (h : ∀ loc item, Check.Yields (R item) (read loc item)) (loc : Location) (items : List α) :
    Check.Yields (List.Forall₂ R items) (loc.each read items) := by
  intro results hread
  have hpairs := (each_iff.mp hread).imp fun item b hb => h _ item.1 b hb
  rw [← List.zipIdx_map_fst 0 items]
  exact List.forall₂_map_left_iff.mpr hpairs

theorem eachKey_mem {P : β → Prop} {read : Location → String → α → Check β}
    {entries : List (String × α)}
    (h : ∀ entry ∈ entries, ∀ loc, Check.Yields P (read loc entry.1 entry.2)) (loc : Location) :
    Check.Yields (fun results => ∀ b ∈ results, P b) (loc.eachKey read entries) := by
  induction entries with
  | nil => exact .pure (List.forall_mem_nil _)
  | cons entry rest ih =>
    obtain ⟨hentry, hrest⟩ := List.forall_mem_cons.mp h
    unfold eachKey
    refine .bind fun first hfirst => .bind fun others hothers => .pure ?_
    exact List.forall_mem_cons.mpr ⟨hentry _ first hfirst, ih hrest others hothers⟩

theorem eachKey_all {P : β → Prop} {read : Location → String → α → Check β}
    (h : ∀ loc name item, Check.Yields P (read loc name item)) (loc : Location)
    (entries : List (String × α)) :
    Check.Yields (fun results => ∀ b ∈ results, P b) (loc.eachKey read entries) :=
  eachKey_mem (fun entry _ loc => h loc entry.1 entry.2) loc

end Location

theorem Lengths.check_exact {lengths : Lengths} {n : Nat} (hn : lengths.exact = some n)
    {loc : Location} {length : Nat} (h : lengths.check loc length = .ok ()) : length = n := by
  by_contra hne
  simp [Lengths.check, hn, hne, Check.field, bind, Except.bind] at h

namespace Field

variable {α : Type}

theorem present_eq {raw value : Value} (h : present? raw = some value) : value = raw := by
  unfold present? at h
  split at h
  · cases h
  · exact (Option.some.inj h).symm

theorem optional_at {P : α → Prop} {read : Value → Check α} {raw : Value}
    (h : Check.Yields P (read raw)) :
    Check.Yields (fun result => ∀ a ∈ result, P a) (optional read raw) := by
  unfold optional
  cases hp : present? raw with
  | none => exact .pure (by simp)
  | some value =>
    obtain rfl := present_eq hp
    refine .bind fun a ha => .pure ?_
    rintro _ ⟨⟩
    exact h a ha

theorem optional_yields {P : α → Prop} {read : Value → Check α}
    (h : ∀ raw, Check.Yields P (read raw)) (raw : Value) :
    Check.Yields (fun result => ∀ a ∈ result, P a) (optional read raw) := optional_at (h raw)

theorem orElse_at {P : α → Prop} {default : α} {read : Value → Check α} {raw : Value}
    (hdefault : P default) (h : Check.Yields P (read raw)) :
    Check.Yields P (orElse default read raw) := by
  unfold orElse
  cases hp : present? raw with
  | none => exact .pure hdefault
  | some value =>
    obtain rfl := present_eq hp
    exact h

theorem orElse_yields {P : α → Prop} {default : α} {read : Value → Check α} (hdefault : P default)
    (h : ∀ raw, Check.Yields P (read raw)) (raw : Value) :
    Check.Yields P (orElse default read raw) := orElse_at hdefault (h raw)

theorem listOf_all {P : α → Prop} {item : Location → Value → Check α}
    (h : ∀ loc raw, Check.Yields P (item loc raw)) (lengths : Lengths) (loc : Location)
    (raw : Value) : Check.Yields (fun items => ∀ a ∈ items, P a) (listOf lengths item loc raw) :=
  .step fun items => Location.each_all h loc items

theorem list_written (lengths : Lengths) (loc : Location) (raw : Value) :
    Check.Yields (fun items => raw = .array items) (list lengths loc raw) := by
  unfold list
  split
  · exact .step fun _ => .pure rfl
  · exact .fault

theorem list_exact {lengths : Lengths} {n : Nat} (hn : lengths.exact = some n) (loc : Location)
    (raw : Value) : Check.Yields (fun items => items.length = n) (list lengths loc raw) := by
  unfold list
  split
  · refine .bind fun u hu => .pure ?_
    exact Lengths.check_exact hn hu
  · exact .fault

theorem listOf_exact {lengths : Lengths} {n : Nat} (hn : lengths.exact = some n)
    (item : Location → Value → Check α) (loc : Location) (raw : Value) :
    Check.Yields (fun items => items.length = n) (listOf lengths item loc raw) := by
  refine .bind fun items hitems => ?_
  refine (Location.each_length loc items).mono fun results hresults => ?_
  rw [hresults, list_exact hn loc raw items hitems]

section Numbers

variable [LT α] [DecidableLT α]

theorem numbers_all {P : α → Prop} {item : Location → Value → Check α}
    (h : ∀ loc raw, Check.Yields P (item loc raw)) (lengths : Lengths) (order : Order)
    (loc : Location) (raw : Value) :
    Check.Yields (fun items => ∀ a ∈ items, P a) (numbers item lengths order none loc raw) := by
  unfold numbers
  exact .bind fun items hitems => .step fun _ => .pure (listOf_all h lengths loc raw items hitems)

/-- The item that goes in front is not counted by the constraint on the length. -/
theorem numbers_exact {lengths : Lengths} {n : Nat} (hn : lengths.exact = some n)
    (item : Location → Value → Check α) (order : Order) (first : Option α) (loc : Location)
    (raw : Value) :
    Check.Yields (fun items => ∃ written, written.length = n ∧ items = first.toList ++ written)
      (numbers item lengths order first loc raw) := by
  unfold numbers
  refine .bind fun items hitems => .step fun _ => .pure ?_
  exact ⟨items, listOf_exact hn item loc raw items hitems, rfl⟩

end Numbers

theorem int_nonneg (loc : Location) (raw : Value) :
    Check.Yields (fun n => 0 ≤ n) (int (.atLeast 0) loc raw) :=
  int_least rfl (.of_natAbs (by decide)) loc raw

theorem int_pos (loc : Location) (raw : Value) :
    Check.Yields (fun n => 1 ≤ n) (int (.atLeast 1) loc raw) :=
  int_least rfl (.of_natAbs (by decide)) loc raw

end Field

namespace AttributeTable

theorem unlessEmpty_all {α : Type} {P : α → Prop} {rows : List α} (h : ∀ row ∈ rows, P row) :
    ∀ table ∈ unlessEmpty rows, ∀ row ∈ table, P row := by
  intro table ht
  unfold unlessEmpty at ht
  split at ht
  · cases ht
  · obtain rfl := Option.some.inj ht
    exact h

/-- A row is of a permitted group, and stands under the name it was written with. -/
theorem row_ok {groups : List Attribute.Group} {limits : RowLimits} {loc : Location} {name : String}
    {raw : Value} {r : String × List Float} (h : row groups limits loc name raw = .ok r) :
    (∃ group ∈ groups, Attribute.groupOf? r.1 = some group) ∧ r.1 = name ∧
      Field.numbers (Field.float limits.item) limits.lengths limits.order limits.first loc raw =
        .ok r.2 := by
  unfold row at h
  split at h
  · rename_i hany
    obtain ⟨group, hgroup, hpermitted⟩ := (Option.any_eq_true _ _).mp hany
    obtain ⟨values, hvalues, hr⟩ := Check.bind_ok.mp h
    obtain rfl := Check.pure_ok.mp hr
    exact ⟨⟨group, List.contains_iff_mem.mp hpermitted, hgroup⟩, rfl, hvalues⟩
  · cases h

/-- A row holds as many values as must be written. -/
theorem row_exact {groups : List Attribute.Group} {limits : RowLimits} {n : Nat}
    (hn : limits.lengths.exact = some n) (loc : Location) (name : String) (raw : Value) :
    Check.Yields (fun row => (∃ group ∈ groups, Attribute.groupOf? row.1 = some group) ∧
      ∃ written, written.length = n ∧ row.2 = limits.first.toList ++ written)
      (row groups limits loc name raw) := by
  intro r h
  obtain ⟨hgroup, -, hvalues⟩ := row_ok h
  exact ⟨hgroup, Field.numbers_exact hn _ _ limits.first loc raw r.2 hvalues⟩

/-- What holds of every row holds of the rows that do not scale with upgrades and of those that
do, which are then found under the name without its dollar sign. -/
theorem readPlus_rows {groups : List Attribute.Group} {limits : RowLimits}
    {P : String → List Float → Prop} {loc : Location} {raw : Value}
    (h : Check.Yields (fun table : AttributeTable => ∀ row ∈ table, P row.1 row.2)
      (read groups limits loc raw)) :
    Check.Yields (fun tables : Option AttributeTable × Option AttributeTable =>
      (∀ table ∈ tables.1, ∀ row ∈ table, Attribute.plusBase? row.1 = none ∧ P row.1 row.2) ∧
        ∀ table ∈ tables.2, ∀ row ∈ table,
          ∃ name, Attribute.plusBase? name = some row.1 ∧ P name row.2)
      (readPlus groups limits loc raw) := by
  unfold readPlus
  refine .bind fun rows hrows => .pure ?_
  have hall := h rows hrows
  constructor
  · refine unlessEmpty_all fun row hrow => ?_
    obtain ⟨hmem, hplain⟩ := List.mem_filter.mp hrow
    exact ⟨Option.isNone_iff_eq_none.mp hplain, hall row hmem⟩
  · refine unlessEmpty_all fun row hrow => ?_
    obtain ⟨⟨name, values⟩, hmem, hbase⟩ := List.mem_filterMap.mp hrow
    obtain ⟨base, hname, rfl⟩ := Option.map_eq_some_iff.mp hbase
    exact ⟨name, hname, hall (name, values) hmem⟩

theorem readPlus_all {groups : List Attribute.Group} {limits : RowLimits}
    {P : List Float → Prop} {loc : Location} {raw : Value}
    (h : Check.Yields (fun table : AttributeTable => ∀ row ∈ table, P row.2)
      (read groups limits loc raw)) :
    Check.Yields (fun tables : Option AttributeTable × Option AttributeTable =>
      (∀ table ∈ tables.1, ∀ row ∈ table, P row.2) ∧
        ∀ table ∈ tables.2, ∀ row ∈ table, P row.2)
      (readPlus groups limits loc raw) := by
  refine (readPlus_rows (P := fun _ => P) h).mono fun tables htables => ⟨?_, ?_⟩
  · exact fun table ht row hrow => (htables.1 table ht row hrow).2
  · intro table ht row hrow
    obtain ⟨_, _, hvalues⟩ := htables.2 table ht row hrow
    exact hvalues

theorem read_exact {groups : List Attribute.Group} {limits : RowLimits} {n : Nat}
    (hn : limits.lengths.exact = some n) (loc : Location) (raw : Value) :
    Check.Yields (fun table : AttributeTable => ∀ row ∈ table,
      (∃ group ∈ groups, Attribute.groupOf? row.1 = some group) ∧
        ∃ written, written.length = n ∧ row.2 = limits.first.toList ++ written)
      (read groups limits loc raw) := by
  unfold read
  exact .step fun fields => Location.eachKey_all (row_exact hn) loc fields

end AttributeTable

namespace IndexTable

/-- No index in a table is negative. -/
def Nonneg (table : IndexTable) : Prop := ∀ row ∈ table, ∀ index ∈ row.2, 0 ≤ index

theorem row_nonneg (length : Option Nat) (id : String) (loc : Location) (raw : Value) :
    Check.Yields (fun row => ∀ index ∈ row.2, 0 ≤ index) (row length id loc raw) := by
  unfold row
  refine .step fun id => .bind fun indexes hindexes => .pure ?_
  have hint : ∀ loc raw, Check.Yields (fun n => 0 ≤ n) (Field.int indexLimits loc raw) :=
    Field.int_least rfl (.of_natAbs (by decide))
  exact Field.numbers_all hint _ _ loc raw indexes hindexes

section Rows

variable {P : List Int → Prop} {length : Option Nat}
  (h : ∀ id loc raw, Check.Yields (fun row => P row.2) (row length id loc raw))

include h

/-- What holds of every row that is read holds of the rows of a table. -/
theorem read_all (loc : Location) (raw : Value) :
    Check.Yields (fun result => ∀ table ∈ result, ∀ row ∈ table, P row.2)
      (read length loc raw) := by
  unfold read
  refine .step fun fields => .bind fun rows hrows => .pure (AttributeTable.unlessEmpty_all ?_)
  exact Location.eachKey_all (fun loc name raw => h name loc raw) loc fields rows hrows

theorem plusRow_all (loc : Location) (name : String) (raw : Value) :
    Check.Yields (fun row => P row.2.2) (plusRow length loc name raw) := by
  unfold plusRow
  split
  · exact .bind fun row hrow => .pure (h _ loc raw row hrow)
  · exact .bind fun row hrow => .pure (h _ loc raw row hrow)

theorem readPlus_all (loc : Location) (raw : Value) :
    Check.Yields (fun tables : Option IndexTable × Option IndexTable =>
      (∀ table ∈ tables.1, ∀ row ∈ table, P row.2) ∧
        ∀ table ∈ tables.2, ∀ row ∈ table, P row.2)
      (readPlus length loc raw) := by
  unfold readPlus
  refine .step fun fields => .bind fun rows hrows => .pure ?_
  have hall := Location.eachKey_all (plusRow_all h) loc fields rows hrows
  have hpart : ∀ keep : Bool × Ref .variable × List Int → Bool,
      ∀ row ∈ (rows.filter keep).map Prod.snd, P row.2 := by
    intro keep row hrow
    obtain ⟨marked, hmarked, rfl⟩ := List.mem_map.mp hrow
    exact hall marked (List.mem_of_mem_filter hmarked)
  exact ⟨AttributeTable.unlessEmpty_all (hpart _), AttributeTable.unlessEmpty_all (hpart _)⟩

end Rows

theorem read_nonneg (length : Option Nat) (loc : Location) (raw : Value) :
    Check.Yields (fun result => ∀ table ∈ result, Nonneg table) (read length loc raw) :=
  read_all (P := fun indexes => ∀ index ∈ indexes, 0 ≤ index) (row_nonneg length) loc raw

theorem readPlus_nonneg (length : Option Nat) (loc : Location) (raw : Value) :
    Check.Yields (fun tables : Option IndexTable × Option IndexTable =>
      (∀ table ∈ tables.1, Nonneg table) ∧ ∀ table ∈ tables.2, Nonneg table)
      (readPlus length loc raw) :=
  readPlus_all (P := fun indexes => ∀ index ∈ indexes, 0 ≤ index) (row_nonneg length) loc raw

end IndexTable

/-- A gain counts from zero, and its upgrades fit on its pieces. -/
structure EntryGain.Bounded (gain : EntryGain) : Prop where
  piece : 0 ≤ gain.piece
  plus : 0 ≤ gain.plus
  fits : EntryTable.fits gain = true

namespace EntryTable

def Bounded (table : EntryTable) : Prop := ∀ row ∈ table, ∀ gain ∈ row.2, gain.Bounded

theorem gain_bounded (loc : Location) (raw : Value) :
    Check.Yields EntryGain.Bounded (gain loc raw) := by
  unfold gain
  refine .step fun items => ?_
  split
  · refine .bind fun piece hpiece => .bind fun plus hplus => ?_
    split
    · rename_i hfits
      exact .pure ⟨Field.int_nonneg _ _ piece hpiece, Field.int_nonneg _ _ plus hplus, hfits⟩
    · exact .fault
  · exact .fault

theorem row_bounded (lengths : Lengths) (loc : Location) (id : String) (raw : Value) :
    Check.Yields (fun row => ∀ gain ∈ row.2, gain.Bounded) (row lengths loc id raw) := by
  unfold row
  refine .step fun id => .bind fun gains hgains => .pure ?_
  exact Field.listOf_all gain_bounded lengths loc raw gains hgains

theorem read_bounded (lengths : Lengths) (loc : Location) (raw : Value) :
    Check.Yields Bounded (read lengths loc raw) := by
  unfold read
  exact .step fun fields => Location.eachKey_all (row_bounded lengths) loc fields

end EntryTable

theorem Parents.read_nonneg (family : Id.Family) (loc : Location) (raw : Value) :
    Check.Yields (fun result => ∀ parents ∈ result, ∀ row ∈ parents, 0 ≤ row.2)
      (Parents.read family loc raw) := by
  refine Field.optional_yields (fun raw => .step fun fields => ?_) raw
  refine Location.eachKey_all (fun loc id raw => ?_) loc fields
  unfold Parents.row
  exact .step fun id => .bind fun level hlevel => .pure (Field.int_nonneg loc raw level hlevel)

structure Equipment.Bounded (e : Equipment) : Prop where
  entries : ∀ table ∈ e.entries, EntryTable.Bounded table

structure Entry.Bounded (e : Entry) : Prop where
  maxPiece : 1 ≤ e.maxPiece
  attributes : ∀ table ∈ e.attributes, ∀ row ∈ table, row.2.length = e.maxPiece.toNat + 1
  attributesPlus : ∀ table ∈ e.attributesPlus, ∀ row ∈ table,
    row.2.length = e.maxPiece.toNat + 1
  varIndexes : ∀ table ∈ e.varIndexes, IndexTable.Nonneg table
  varIndexesPlus : ∀ table ∈ e.varIndexesPlus, IndexTable.Nonneg table

structure Perk.Bounded (p : Perk) : Prop where
  parents : ∀ parents ∈ p.parents, ∀ row ∈ parents, 0 ≤ row.2
  entries : ∀ table ∈ p.entries, EntryTable.Bounded table
  varIndexes : ∀ table ∈ p.varIndexes, IndexTable.Nonneg table

structure Jewel.Bounded (j : Jewel) : Prop where
  piece : 1 ≤ j.piece
  sub : ∀ sub ∈ j.sub, 1 ≤ sub.2

structure Accessory.Bounded (a : Accessory) : Prop where
  piece : 1 ≤ a.piece

theorem Equipment.build_bounded (id : String) (draft : EquipmentDraft) :
    Check.Yields Equipment.Bounded (Equipment.build id draft) := by
  unfold Equipment.build
  iterate 7 refine .step fun _ => ?_
  refine .bind fun entries hentries => .pure ⟨?_⟩
  exact Field.optional_yields (EntryTable.read_bounded _ _) _ entries hentries

theorem Entry.rowLimits_exact (pieces : Nat) :
    (Entry.rowLimits pieces).lengths.exact = some pieces := rfl

/-- A row begins with a zero, which makes it one longer than the pieces. -/
theorem Entry.rows_exact (pieces : Nat) (loc : Location) (raw : Value) :
    Check.Yields (fun tables : Option AttributeTable × Option AttributeTable =>
      (∀ table ∈ tables.1, ∀ row ∈ table, row.2.length = pieces + 1) ∧
        ∀ table ∈ tables.2, ∀ row ∈ table, row.2.length = pieces + 1)
      (AttributeTable.readPlus attributeGroups (rowLimits pieces) loc raw) := by
  refine AttributeTable.readPlus_all (P := fun values => values.length = pieces + 1) ?_
  refine (AttributeTable.read_exact (rowLimits_exact pieces) loc raw).mono ?_
  intro table h row hrow
  obtain ⟨_, written, hlen, hrow⟩ := h row hrow
  rw [hrow, rowLimits, Option.toList_some, List.singleton_append, List.length_cons, hlen]

theorem Entry.build_bounded (id : String) (draft : EntryDraft) :
    Check.Yields Entry.Bounded (Entry.build id draft) := by
  unfold Entry.build
  refine .step fun name => .bind fun maxPiece hpiece => ?_
  refine .bind fun tables htables => .bind fun indexes hindexes => .pure ?_
  have hrows := Field.orElse_yields (by simp) (Entry.rows_exact _ _) _ tables htables
  have hnonneg := Field.orElse_yields (by simp) (IndexTable.readPlus_nonneg _ _) _ indexes hindexes
  exact ⟨Field.int_pos _ _ maxPiece hpiece, hrows.1, hrows.2, hnonneg.1, hnonneg.2⟩

theorem Perk.build_bounded (id : String) (draft : PerkDraft) :
    Check.Yields Perk.Bounded (Perk.build id draft) := by
  unfold Perk.build
  iterate 4 refine .step fun _ => ?_
  refine .bind fun parents hparents => ?_
  iterate 3 refine .step fun _ => ?_
  refine .bind fun entries hentries => .bind fun indexes hindexes => .pure ?_
  constructor
  case parents => exact Parents.read_nonneg _ _ _ parents hparents
  case entries => exact Field.optional_yields (EntryTable.read_bounded _ _) _ entries hentries
  case varIndexes =>
    exact Field.orElse_yields (by simp) (IndexTable.read_nonneg _ _) _ indexes hindexes

theorem Jewel.readSub_pos (id : String) (entry : Option String) (piece : Value) :
    Check.Yields (fun result => ∀ sub ∈ result, 1 ≤ sub.2) (Jewel.readSub id entry piece) := by
  unfold Jewel.readSub
  dsimp only
  split
  · exact .ok (by simp)
  · refine .step fun entry => .bind fun piece hpiece => .pure ?_
    rintro _ ⟨⟩
    exact Field.int_pos _ _ piece hpiece
  · exact .fault

theorem Jewel.build_bounded (id : String) (draft : JewelDraft) :
    Check.Yields Jewel.Bounded (Jewel.build id draft) := by
  unfold Jewel.build
  iterate 3 refine .step fun _ => ?_
  refine .bind fun piece hpiece => .bind fun sub hsub => .step fun variant => .pure ?_
  exact ⟨Field.int_pos _ _ piece hpiece, Jewel.readSub_pos _ _ _ sub hsub⟩

theorem Accessory.build_bounded (id : String) (draft : AccessoryDraft) :
    Check.Yields Accessory.Bounded (Accessory.build id draft) := by
  unfold Accessory.build
  iterate 3 refine .step fun _ => ?_
  refine .bind fun piece hpiece => .step fun variant => .pure ?_
  exact ⟨Field.int_pos _ _ piece hpiece⟩

/-- The bounds of the kinds that count pieces, levels or indexes. -/
def Resource.Bounded : Resource → Prop
  | .equipment e => e.Bounded
  | .entry e => e.Bounded
  | .perk p => p.Bounded
  | .jewel j => j.Bounded
  | .accessory a => a.Bounded
  | _ => True

theorem Draft.Builds.bounded {draft : Draft} {id : String} {r : Resource}
    (h : draft.Builds id r) : r.Bounded := by
  cases h with
  | equipment h => exact Equipment.build_bounded _ _ _ h
  | entry h => exact Entry.build_bounded _ _ _ h
  | perk h => exact Perk.build_bounded _ _ _ h
  | jewel h => exact Jewel.build_bounded _ _ _ h
  | accessory h => exact Accessory.build_bounded _ _ _ h
  | _ => trivial

theorem Variable.ofDraft_levels (id : String) (draft : VariableDraft) :
    Check.Yields (fun v => 1 ≤ v.maxLevel) (Variable.ofDraft id draft) := by
  unfold Variable.ofDraft
  refine .step fun ref => .bind fun maxLevel hlevel => .step fun owners => .pure ?_
  have hpos := Field.int_pos _ _ maxLevel hlevel
  change 1 ≤ maxLevel.toNat
  omega

namespace Registry

theorem Sound.bounded {reg : Registry} (h : reg.Sound) {r : Resource} (hr : r ∈ reg.resources) :
    r.Bounded := by
  obtain ⟨draft, hb⟩ := h.built r hr
  exact hb.bounded

theorem Grows.levels {reg grown : Registry} (h : ∀ v ∈ reg.definitions, 1 ≤ v.maxLevel)
    (hg : reg.Grows grown) : ∀ v ∈ grown.definitions, 1 ≤ v.maxLevel := by
  cases hg with
  | define free built =>
    refine List.forall_mem_append.mpr ⟨h, ?_⟩
    exact List.forall_mem_singleton.mpr (Variable.ofDraft_levels _ _ _ built)
  | add => exact h

/-- A defined variable has a level beside its lowest one. -/
theorem Reachable.levels {reg : Registry} (h : reg.Reachable) :
    ∀ v ∈ reg.definitions, 1 ≤ v.maxLevel :=
  Reachable.preserves (P := fun reg => ∀ v ∈ reg.definitions, 1 ≤ v.maxLevel) Grows.levels
    (by simp [Registry.empty]) h

end Registry

/-- An archer whose entries, perks and actions bind variables wherever they can. -/
def Declaration.veteran : List Declaration := [
  .variable "#.Might" { maxLevel := .int 1, owners := .anyone },
  .variable "#.Focus" { maxLevel := .int 2, owners := .many ["Character.Ada"] },
  .resource "Character.Ada" (.character {
    name := "Adèle", level := .array [.int 1, .int 1], styles := ["Style.Ada.Bow"]
    equipments := ["Equipment.Ada.Cap", "Equipment.Ada.Helm"],
    boundingCapsule := { halfHeight := .int 1, radius := .int 1 }, skeletonFiles := "ada"
    skeletonToward := .array [.int 0, .int 1] }),
  .resource "Style.Ada.Bow" (.style {
    name := "Bow", character := "Character.Ada", attributes := .object [], slots := .array []
    fixedAttributes := ⟨.int 0, .int 0, .int 0, .int 0, .int 0, .int 0, .int 0⟩
    perks := ["Perk.Ada.Aim", "Perk.Ada.Calm"], usablePerks := []
    actions := ["Action.Ada.Shot"], viewModel := "bow.vrm" }),
  .resource "Entry.Power" (.entry {
    name := "Power", maxPiece := .int 2
    attributes := .object [("MaxHealth", .array [.int 5, .int 9]),
      ("$AttackUp", .array [.int 1, .int 2])]
    varIndexes := .object [("#.Might", .array [.int 0, .int 1]),
      ("$#.Focus", .array [.int 1, .int 2])] }),
  .resource "Equipment.Ada.Cap" (.equipment {
    name := "Cap", character := "Character.Ada", slot := "Slot1", parents := .null
    level := .array [.int 1, .int 2], attributes := .object [], slots := .null
    entries := .object
      [("Entry.Power", .array [.array [.int 1, .int 2], .array [.int 2, .int 6]])] }),
  .resource "Equipment.Ada.Helm" (.equipment {
    name := "Helm", character := "Character.Ada", slot := "Slot1"
    parents := .object [("Equipment.Ada.Cap", .int 2)]
    level := .array [.int 1, .int 1], attributes := .object [], slots := .null
    entries := .null }),
  .resource "Perk.Ada.Aim" (.perk {
    name := "Aim", character := "Character.Ada", style := "Style.Ada.Bow", usableStyles := none
    parents := .null, maxLevel := .int 1, attributes := .null, slots := .null
    entries := .object [("Entry.Power", .array [.array [.int 1, .int 3]])]
    varIndexes := .object [("#.Focus", .array [.int 2])] }),
  .resource "Perk.Ada.Calm" (.perk {
    name := "Calm", character := "Character.Ada", style := "Style.Ada.Bow", usableStyles := none
    parents := .object [("Perk.Ada.Aim", .int 1)], maxLevel := .int 1, attributes := .null
    slots := .null, entries := .null, varIndexes := .null }),
  .resource "Jewel.Ruby" (.jewel {
    slot := "Attack", rare := "Rare1", entry := "Entry.Power", piece := .int 2
    subEntry := some "Entry.Power", subPiece := .int 1, variant := "Variant1" }),
  .resource "AccessoryPool.Ring" (.accessoryPool {
    rare := "Rare1", patterns := "S A", maxLevel := .int 6
    aEntries := .object [("Entry.Power", .int 1)], bEntries := .object [("Entry.Power", .int 2)] }),
  .resource "Accessory.Ring.Gold" (.accessory {
    pool := "AccessoryPool.Ring", rare := "Rare1", entry := "Entry.Power", piece := .int 2
    variant := "Variant1" }),
  .resource "Action.Ada.Shot" (.actionGeneral {
    enabled := .array [.string "#.Might", .array [.bool false, .bool true]]
    character := "Character.Ada", styles := ["Style.Ada.Bow"]
    animMain := .archer "shot" true, enterKey := .string "Attack1", enterLevel := .null
    coolDownTime := .array [.string "#.Focus", .array [.int 3, .int 2, .int 1]]
    coolDownRound := .array [.string "#.Might", .array [.int 1, .int 2]]
    coolDownInitRound := .array [.string "#.Might", .array [.int 0, .int 1]]
    inputMovements := .null
    attributes := .object [("0-1s", .object [
      ("damage_rdc", .array [.string "#.Might", .array [.int 0, .int 1]]),
      ("shield_dmg_rdc", .array [.string "#.Might", .array [.int 0, .int 1]]),
      ("poise_level", .array [.string "#.Focus", .array [.int 0, .int 2, .int 4]])])]
    deriveLevels := .object [("0-1s", .array [.string "#.Might", .array [.int 100, .int 200]])]
    derives := some [
      { key := .string "Attack1", level := .int 100
        action := .array [.string "#.Might",
          .array [.string "Action.Ada.Shot", .string "Action.Ada.Shot"]] }]
    deriveContinues := .array [.string "#.Might", .array [.array [], .array [.string "Dodge"]]]
    customEvents := .object [("0.5s", .array [.string "#.Might",
      .array [.string "near", .string "far"]])] })]

def Registry.veteran : Registry := (Registry.empty.declareAll Declaration.veteran).registry

theorem Registry.veteran_reachable : Registry.veteran.Reachable := .run _ .empty

theorem Registry.veteran_verify : Registry.veteran.verify = .ok () :=
  Check.ok_of_isOk (by decide +kernel)

end GameRoster
