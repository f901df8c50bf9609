import GameRoster.Proofs.BindingForm
import GameRoster.Proofs.DistinctKeys
import GameRoster.Proofs.Tables

namespace GameRoster

open Document.Node (map?.insert)

namespace Attribute

/-- Whether a key opens with a dollar sign. -/
def signed (key : String) : Bool := key.toList.head? == some '$'

theorem plusBase?_eq_some {key base : String} : plusBase? key = some base ↔ key = "$" ++ base := by
  unfold plusBase?
  constructor
  · intro h
    split at h
    · rename_i rest hkey
      obtain rfl := Option.some.inj h
      apply String.toList_injective
      rw [hkey, String.toList_append, String.toList_ofList]
      simp
    · cases h
  · rintro rfl
    rw [String.toList_append]
    exact congrArg some String.ofList_toList

theorem plusBase?_eq_none {key : String} : plusBase? key = none ↔ signed key = false := by
  unfold plusBase? signed
  cases key.toList with
  | nil => simp
  | cons c rest =>
    by_cases hc : c = '$'
    · simp [hc]
    · simp [hc]

theorem plusBase?_isSome (key : String) : (plusBase? key).isSome = signed key := by
  cases h : plusBase? key with
  | none => rw [plusBase?_eq_none.mp h]; rfl
  | some base =>
    cases hs : signed key with
    | false => rw [plusBase?_eq_none.mpr hs] at h; cases h
    | true => rfl

/-- No attribute opens with a dollar sign, so a name with two of them has no group. -/
theorem Group.ofBase?_unsigned {name : String} {group : Group} (h : ofBase? name = some group) :
    signed name = false := by
  have hnames : ∀ name ∈ primaryNames ++ secondaryNames ++ finalNames, name.front? ≠ some '$' := by
    decide +kernel
  have hmem : name ∈ primaryNames ++ secondaryNames ++ finalNames := by
    simp only [List.mem_append]
    unfold ofBase? at h
    split at h
    · rename_i hprimary
      exact .inl (.inl (List.contains_iff_mem.mp hprimary))
    split at h
    · rename_i hsecondary
      exact .inl (.inr (List.contains_iff_mem.mp hsecondary))
    split at h
    · rename_i hfinal
      exact .inr (List.contains_iff_mem.mp hfinal)
    · cases h
  rw [signed, ← String.front?_eq]
  exact beq_eq_false_iff_ne.mpr (hnames name hmem)

end Attribute

namespace AttributeTable
open Attribute

variable {α : Type} {parse : Location → Value → Check α} {loc : Location}
  {fields : List (String × Value)} {rows : List (String × α)}

/-- Puts a row into the table it belongs to, under the name that it has there. A row that stands
under this name is replaced. -/
def put (tables : List (String × α) × List (String × α)) (row : String × α) :
    List (String × α) × List (String × α) :=
  match plusBase? row.1 with
  | some base => (tables.1, map?.insert tables.2 (base, row.2))
  | none => (map?.insert tables.1 row, tables.2)

/-- A row that is read of an entry, still under the key of the entry. -/
def ReadOf (parse : Location → Value → Check α) (loc : Location) (field : String × Value)
    (row : String × α) : Prop :=
  row.1 = field.1 ∧ parse (loc.key field.1) field.2 = .ok row.2

/-- How the entries of an object stand in the two tables into which it is split. -/
structure Split (parse : Location → Value → Check α) (loc : Location)
    (fields : List (String × Value)) (plain plus : Option (List (String × α))) : Prop where
  /-- Entries without a dollar sign, in their order and under their keys. -/
  plainEntries : List.Forall₂ (fun field row => field.1 = row.1 ∧
    parse (loc.key field.1) field.2 = .ok row.2)
    (fields.filter fun field => !signed field.1) (plain.getD [])
  /-- Entries with a dollar sign, in their order and under their keys without it. -/
  plusEntries : List.Forall₂ (fun field row => field.1 = "$" ++ row.1 ∧
    parse (loc.key field.1) field.2 = .ok row.2)
    (fields.filter fun field => signed field.1) (plus.getD [])
  plainKeys : ((plain.getD []).map Prod.fst).Nodup
  plusKeys : ((plus.getD []).map Prod.fst).Nodup
  /-- Only one dollar sign can be written. -/
  unsigned : ∀ row ∈ plus.getD [], signed row.1 = false
  plainSome : plain ≠ some []
  plusSome : plus ≠ some []
  /-- Had the rows been put into the tables one by one, none would have been replaced. -/
  kept : ∃ rows, List.Forall₂ (ReadOf parse loc) fields rows ∧
    rows.foldl put ([], []) = (plain.getD [], plus.getD [])

theorem getD_unlessEmpty (rows : List α) : (unlessEmpty rows).getD [] = rows := by
  cases rows with
  | nil => rfl
  | cons row rest => rfl

theorem unlessEmpty_ne (rows : List α) : unlessEmpty rows ≠ some [] := by
  cases rows with
  | nil => simp [unlessEmpty]
  | cons row rest => simp [unlessEmpty]

theorem map_unlessEmpty {β : Type} (f : α → β) (rows : List α) :
    (unlessEmpty rows).map (List.map f) = unlessEmpty (rows.map f) := by
  cases rows with
  | nil => rfl
  | cons row rest => rfl

/-- Putting rows in one by one keeps the two tables apart. -/
theorem put_all (rows : List (String × α)) (tables : List (String × α) × List (String × α)) :
    rows.foldl put tables =
      ((plainRows rows).foldl map?.insert tables.1,
        (plusRows rows).foldl map?.insert tables.2) := by
  induction rows generalizing tables with
  | nil => rfl
  | cons row rest ih =>
    rw [List.foldl_cons, ih]
    cases hbase : plusBase? row.1 with
    | none => simp [put, plainRows, plusRows, hbase]
    | some base => simp [put, plainRows, plusRows, hbase]

theorem plainRows_read (h : List.Forall₂ (ReadOf parse loc) fields rows) :
    List.Forall₂ (fun field row => field.1 = row.1 ∧ parse (loc.key field.1) field.2 = .ok row.2)
      (fields.filter fun field => !signed field.1) (plainRows rows) := by
  induction h with
  | nil => exact .nil
  | @cons field row fields rows hrow hrest ih =>
    have hkey := plusBase?_isSome field.1
    unfold plainRows at ih ⊢
    cases hbase : plusBase? field.1 with
    | none =>
      rw [hbase] at hkey
      simp only [List.filter_cons, hrow.1, hbase, ← hkey]
      exact .cons ⟨hrow.1.symm, hrow.2⟩ ih
    | some base =>
      rw [hbase] at hkey
      simp only [List.filter_cons, hrow.1, hbase, ← hkey]
      exact ih

theorem plusRows_read (h : List.Forall₂ (ReadOf parse loc) fields rows) :
    List.Forall₂ (fun field row => field.1 = "$" ++ row.1 ∧
      parse (loc.key field.1) field.2 = .ok row.2)
      (fields.filter fun field => signed field.1) (plusRows rows) := by
  induction h with
  | nil => exact .nil
  | @cons field row fields rows hrow hrest ih =>
    have hkey := plusBase?_isSome field.1
    unfold plusRows at ih ⊢
    cases hbase : plusBase? field.1 with
    | none =>
      rw [hbase] at hkey
      simp only [List.filter_cons, List.filterMap_cons, hrow.1, hbase, ← hkey]
      exact ih
    | some base =>
      rw [hbase] at hkey
      simp only [List.filter_cons, List.filterMap_cons, hrow.1, hbase, ← hkey]
      exact .cons ⟨plusBase?_eq_some.mp hbase, hrow.2⟩ ih

/-- Keys that are named after those of the rows are theirs. -/
theorem keys_eq {R : String × Value → String × α → Prop} {f : String → String}
    (hR : ∀ field row, R field row → field.1 = f row.1) (h : List.Forall₂ R fields rows) :
    fields.map Prod.fst = (rows.map Prod.fst).map f := by
  induction h with
  | nil => rfl
  | cons hrow _ ih => simp only [List.map_cons, hR _ _ hrow, ih]

/-- What is read of an object with distinct keys is split without a loss if each name that follows
a dollar sign has none itself. -/
theorem split_of_read (hkeys : (fields.map Prod.fst).Nodup)
    (hread : List.Forall₂ (ReadOf parse loc) fields rows)
    (hbases : ∀ row ∈ plusRows rows, signed row.1 = false) :
    Split parse loc fields (unlessEmpty (plainRows rows)) (unlessEmpty (plusRows rows)) := by
  have hfiltered : ∀ keep : String × Value → Bool, ((fields.filter keep).map Prod.fst).Nodup :=
    fun keep => hkeys.sublist (List.filter_sublist.map Prod.fst)
  have hplain : ((plainRows rows).map Prod.fst).Nodup := by
    have hsame := keys_eq (f := id) (fun _ _ hrow => hrow.1) (plainRows_read hread)
    rw [List.map_id] at hsame
    exact hsame ▸ hfiltered _
  have hplus : ((plusRows rows).map Prod.fst).Nodup := by
    have hsame := keys_eq (f := ("$" ++ ·)) (fun _ _ hrow => hrow.1) (plusRows_read hread)
    exact .of_map _ (hsame ▸ hfiltered _)
  constructor
  case plainEntries => rw [getD_unlessEmpty]; exact plainRows_read hread
  case plusEntries => rw [getD_unlessEmpty]; exact plusRows_read hread
  case plainKeys => rwa [getD_unlessEmpty]
  case plusKeys => rwa [getD_unlessEmpty]
  case unsigned => rwa [getD_unlessEmpty]
  case plainSome => exact unlessEmpty_ne _
  case plusSome => exact unlessEmpty_ne _
  case kept =>
    refine ⟨rows, hread, ?_⟩
    rw [put_all, getD_unlessEmpty, getD_unlessEmpty]
    exact Prod.ext (Document.Node.map?.insertAll_of_distinct hplain)
      (Document.Node.map?.insertAll_of_distinct hplus)

theorem readPlus_split {groups : List Attribute.Group} {limits : RowLimits} {loc : Location}
    {fields : List (String × Value)} (hkeys : (fields.map Prod.fst).Nodup)
    {tables : Option AttributeTable × Option AttributeTable}
    (h : readPlus groups limits loc (.object fields) = .ok tables) :
    Split (Field.numbers (Field.float limits.item) limits.lengths limits.order limits.first) loc
      fields tables.1 tables.2 := by
  obtain ⟨rows, hread, htables⟩ := Check.bind_ok.mp h
  obtain rfl := Check.pure_ok.mp htables
  obtain ⟨_, hfields, heach⟩ := Check.bind_ok.mp hread
  obtain rfl := Except.ok.inj hfields
  have hrows := (Location.eachKey_iff.mp heach).imp fun field row hrow => (row_ok hrow).2
  refine split_of_read hkeys hrows fun row hrow => ?_
  obtain ⟨⟨name, values⟩, hmem, hbase⟩ := List.mem_filterMap.mp hrow
  obtain ⟨base, hname, rfl⟩ := Option.map_eq_some_iff.mp hbase
  obtain ⟨group, -, hgroup⟩ := Location.eachKey_all
    (P := fun row => ∃ group ∈ groups, groupOf? row.1 = some group)
    (fun _ _ _ row hrow => (row_ok hrow).1) loc _ rows heach _ hmem
  obtain ⟨plain, hplain, -⟩ := groupOf_plus hname hgroup
  exact Group.ofBase?_unsigned hplain

end AttributeTable

namespace IndexTable
open Attribute AttributeTable

/-- The rows under the texts of their ids. -/
def byText (table : IndexTable) : List (String × List Int) :=
  table.map fun (id, indexes) => (id.text, indexes)

/-- A row under the key that it was written with. -/
def written (row : Bool × Ref .variable × List Int) : String × List Int :=
  (if row.1 then "$" ++ row.2.1.text else row.2.1.text, row.2.2)

theorem unsigned (id : Ref .variable) : signed id.text = false := by
  obtain ⟨rest, hrest⟩ := Option.isSome_iff_exists.mp id.opens
  unfold signed
  rw [Text.eq_append_of_strip? hrest]
  rfl

/-- The id of a row is what its key says after the sign. -/
theorem plusRow_ok {length : Option Nat} {loc : Location} {name : String} {raw : Value}
    {row : Bool × Ref .variable × List Int} (h : plusRow length loc name raw = .ok row) :
    (written row).1 = name ∧ Field.ints indexLimits { exact := length } loc raw = .ok row.2.2 := by
  unfold plusRow IndexTable.row at h
  split at h
  all_goals
    simp only [Check.bind_ok, Check.pure_ok, Ref.ofText_ok] at h
    obtain ⟨_, ⟨id, hid, indexes, hindexes, rfl⟩, rfl⟩ := h
  case h_1 hname => exact ⟨by rw [plusBase?_eq_some.mp hname, ← hid]; rfl, hindexes⟩
  case h_2 => exact ⟨hid, hindexes⟩

theorem plusBase?_written (row : Bool × Ref .variable × List Int) :
    plusBase? (written row).1 = if row.1 then some row.2.1.text else none := by
  unfold written
  split
  · exact plusBase?_eq_some.mpr rfl
  · exact plusBase?_eq_none.mpr (unsigned _)

theorem plainRows_written (rows : List (Bool × Ref .variable × List Int)) :
    plainRows (rows.map written) = byText ((rows.filter fun row => !row.1).map Prod.snd) := by
  induction rows with
  | nil => rfl
  | cons row rest ih =>
    have hbase := plusBase?_written row
    unfold plainRows byText at ih ⊢
    cases hrow : row.1 <;> simp_all [written]

theorem plusRows_written (rows : List (Bool × Ref .variable × List Int)) :
    plusRows (rows.map written) = byText ((rows.filter fun row => row.1).map Prod.snd) := by
  induction rows with
  | nil => rfl
  | cons row rest ih =>
    have hbase := plusBase?_written row
    unfold plusRows byText at ih ⊢
    cases hrow : row.1 <;> simp_all [written]

theorem readPlus_split {length : Option Nat} {loc : Location} {fields : List (String × Value)}
    (hkeys : (fields.map Prod.fst).Nodup) {tables : Option IndexTable × Option IndexTable}
    (h : readPlus length loc (.object fields) = .ok tables) :
    Split (Field.ints indexLimits { exact := length }) loc fields (tables.1.map byText)
      (tables.2.map byText) := by
  obtain ⟨_, hfields, hread⟩ := Check.bind_ok.mp h
  obtain rfl := Except.ok.inj hfields
  obtain ⟨rows, heach, htables⟩ := Check.bind_ok.mp hread
  obtain rfl := Check.pure_ok.mp htables
  have hrows := (Location.eachKey_iff.mp heach).imp fun field row hrow => plusRow_ok hrow
  have hsplit := split_of_read hkeys (List.forall₂_map_right_iff.mpr hrows)
  rw [plainRows_written, plusRows_written] at hsplit
  have hmap := map_unlessEmpty (fun row : Ref .variable × List Int => (row.1.text, row.2))
  unfold byText at hsplit ⊢
  rw [← hmap, ← hmap] at hsplit
  refine hsplit fun row hrow => ?_
  obtain ⟨⟨id, indexes⟩, -, rfl⟩ := List.mem_map.mp hrow
  exact unsigned id

end IndexTable

/-- Both readers of plus tables keep every entry of an object, in one of the tables. -/
theorem plus_tables_lossless (loc : Location) {fields : List (String × Value)}
    (hkeys : (fields.map Prod.fst).Nodup) :
    (∀ length plain plus, IndexTable.readPlus length loc (.object fields) = .ok (plain, plus) →
      AttributeTable.Split (Field.ints IndexTable.indexLimits { exact := length }) loc fields
        (plain.map IndexTable.byText) (plus.map IndexTable.byText)) ∧
    ∀ groups (limits : AttributeTable.RowLimits) plain plus,
      AttributeTable.readPlus groups limits loc (.object fields) = .ok (plain, plus) →
      AttributeTable.Split (Field.numbers (Field.float limits.item) limits.lengths limits.order
        limits.first) loc fields plain plus :=
  ⟨fun _ _ _ h => IndexTable.readPlus_split hkeys h,
    fun _ _ _ _ h => AttributeTable.readPlus_split hkeys h⟩

/-- The levels of one variable, per piece and per upgrade. -/
def focusIndexes : List (String × Value) :=
  [("$#.Focus", .array [.int 1, .int 3]), ("#.Focus", .array [.int 0, .int 1])]

/-- An attribute that grows in both ways, around one that grows with pieces only. -/
def attackRows : List (String × Value) :=
  [("AttackUp", .array [.int 1]), ("MaxHealth", .array [.int 5]), ("$AttackUp", .array [.int 2])]

theorem focus_and_attack_kept :
    (∃ tables,
      IndexTable.readPlus (some 2) (.label "indexes") (.object focusIndexes) = .ok tables ∧
      AttributeTable.Split (Field.ints IndexTable.indexLimits { exact := some 2 })
        (.label "indexes") focusIndexes (tables.1.map IndexTable.byText)
        (tables.2.map IndexTable.byText)) ∧
    ∃ tables,
      AttributeTable.readPlus [.primary, .secondary, .secondaryPlus] {} (.label "attributes")
        (.object attackRows) = .ok tables ∧
      AttributeTable.Split (Field.numbers (Field.float {}) {} .any none) (.label "attributes")
        attackRows tables.1 tables.2 := by
  obtain ⟨indexed, hindexed⟩ := Check.exists_of_isOk
    (x := IndexTable.readPlus (some 2) (.label "indexes") (.object focusIndexes))
    (by decide +kernel)
  obtain ⟨raised, hraised⟩ := Check.exists_of_isOk
    (x := AttributeTable.readPlus [.primary, .secondary, .secondaryPlus] {} (.label "attributes")
      (.object attackRows))
    (by decide +kernel)
  exact ⟨⟨indexed, hindexed, (plus_tables_lossless _ (by decide)).1 _ _ _ hindexed⟩,
    ⟨raised, hraised, (plus_tables_lossless _ (by decide)).2 _ _ _ _ hraised⟩⟩

end GameRoster
