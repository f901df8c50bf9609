import GameRoster.Proofs.Bounds
import GameRoster.Proofs.Verified

namespace GameRoster

/-- An entry has a value for the pieces that a level adds and for the upgrades on them. Every third
upgrade is one step in the plus rows. -/
structure Entry.Serves (e : Entry) (gain : EntryGain) : Prop where
  piece_nonneg : 0 ≤ gain.piece
  piece_le : gain.piece ≤ e.maxPiece
  plus_nonneg : 0 ≤ gain.plus
  plus_le : gain.plus ≤ 3 * gain.piece
  attributes : ∀ table ∈ e.attributes, ∀ row ∈ table, gain.piece.toNat < row.2.length
  attributesPlus : ∀ table ∈ e.attributesPlus, ∀ row ∈ table,
    (gain.plus / 3).toNat < row.2.length

/-- An entry has a value for a number of pieces that an item carries. -/
structure Entry.Carries (e : Entry) (piece : Int) : Prop where
  pos : 1 ≤ piece
  le : piece ≤ e.maxPiece
  attributes : ∀ table ∈ e.attributes, ∀ row ∈ table, piece.toNat < row.2.length

namespace Entry.Bounded

variable {e : Entry} (h : e.Bounded)

include h

theorem serves {gain : EntryGain} (hb : gain.Bounded) (hle : gain.piece ≤ e.maxPiece) :
    e.Serves gain := by
  have hpiece := hb.piece
  have hplus := hb.plus
  have hlimit : gain.plus ≤ 3 * gain.piece := by
    have hmul := of_decide_eq_true hb.fits
    simp only [plusPerPiece] at hmul
    omega
  have hsteps : (gain.plus / 3).toNat ≤ gain.piece.toNat := by omega
  constructor
  case piece_nonneg => exact hpiece
  case piece_le => exact hle
  case plus_nonneg => exact hplus
  case plus_le => exact hlimit
  case attributes =>
    intro table ht row hrow
    have hlen := h.attributes table ht row hrow
    omega
  case attributesPlus =>
    intro table ht row hrow
    have hlen := h.attributesPlus table ht row hrow
    omega

theorem carries {piece : Int} (hpos : 1 ≤ piece) (hle : piece ≤ e.maxPiece) : e.Carries piece := by
  refine ⟨hpos, hle, ?_⟩
  intro table ht row hrow
  have hlen := h.attributes table ht row hrow
  omega

end Entry.Bounded

/-- Every row of a table leads to an entry that serves all its gains. -/
def EntryTable.Served (table : EntryTable) (reg : Registry) : Prop :=
  ∀ row ∈ table, ∃ e, reg.find? row.1.text = some (.entry e) ∧ ∀ gain ∈ row.2, e.Serves gain

/-- A jewel was written with a second entry and its pieces or with neither, and so is its
record. -/
structure Jewel.Paired (j : Jewel) : Prop where
  written : ∃ draft, Jewel.build j.id draft = .ok j ∧
    draft.subEntry.isSome = j.sub.isSome ∧ (Field.present? draft.subPiece).isSome = j.sub.isSome
  entry_exported : ((Resource.jewel j).toValue.field? "sub_entry").isSome = j.sub.isSome
  piece_exported : ((Resource.jewel j).toValue.field? "sub_piece").isSome = j.sub.isSome

theorem Jewel.readSub_paired (id : String) (entry : Option String) (piece : Value) :
    Check.Yields (fun sub => entry.isSome = sub.isSome ∧
      (Field.present? piece).isSome = sub.isSome) (Jewel.readSub id entry piece) := by
  unfold Jewel.readSub
  dsimp only
  split
  · rename_i hp
    exact .ok (by simp [hp])
  · rename_i hp
    exact .step fun ref => .step fun n => .pure (by simp [hp])
  · exact .fault

theorem Jewel.build_paired (id : String) (draft : JewelDraft) :
    Check.Yields (fun j => draft.subEntry.isSome = j.sub.isSome ∧
      (Field.present? draft.subPiece).isSome = j.sub.isSome) (Jewel.build id draft) := by
  unfold Jewel.build
  iterate 4 refine .step fun _ => ?_
  exact .bind fun sub hsub => .step fun variant => .pure (Jewel.readSub_paired _ _ _ sub hsub)

theorem Jewel.sub_exported (j : Jewel) :
    ((Resource.jewel j).toValue.field? "sub_entry").isSome = j.sub.isSome ∧
      ((Resource.jewel j).toValue.field? "sub_piece").isSome = j.sub.isSome := by
  cases hs : j.sub with
  | none =>
    simp [Resource.toValue, Resource.fields, fields, Value.ofOptionalFields, Value.field?, hs,
      List.lookup]
  | some sub =>
    simp [Resource.toValue, Resource.fields, fields, Value.ofOptionalFields, Value.field?, hs,
      List.lookup]

namespace Registry

/-- Whatever one resource looks up in another is there. -/
structure InRange (reg : Registry) : Prop where
  equipmentEntries : ∀ x, .equipment x ∈ reg.resources → ∀ table ∈ x.entries,
    EntryTable.Served table reg
  perkEntries : ∀ p, .perk p ∈ reg.resources → ∀ table ∈ p.entries, EntryTable.Served table reg
  jewelEntry : ∀ j, .jewel j ∈ reg.resources →
    ∃ e, reg.find? j.entry.text = some (.entry e) ∧ e.Carries j.piece
  jewelSub : ∀ j, .jewel j ∈ reg.resources → ∀ sub ∈ j.sub,
    ∃ e, reg.find? sub.1.text = some (.entry e) ∧ e.Carries sub.2
  jewelPaired : ∀ j, .jewel j ∈ reg.resources → j.Paired
  accessoryEntry : ∀ a, .accessory a ∈ reg.resources →
    ∃ e, reg.find? a.entry.text = some (.entry e) ∧ e.Carries a.piece
  perkParents : ∀ p, .perk p ∈ reg.resources → ∀ parents ∈ p.parents, ∀ row ∈ parents,
    ∃ parent, reg.find? row.1.text = some (.perk parent) ∧ 0 ≤ row.2 ∧ row.2 ≤ parent.maxLevel
  equipmentParents : ∀ x, .equipment x ∈ reg.resources → ∀ parents ∈ x.parents, ∀ row ∈ parents,
    ∃ parent, reg.find? row.1.text = some (.equipment parent) ∧
      parent.level.1 ≤ row.2 ∧ row.2 ≤ parent.level.2

section Found

variable {reg : Registry} (h : reg.Sound)

include h

theorem Sound.entry_found {id : String} {e : Entry}
    (hl : reg.lookup? Resource.entry? id = some e) :
    reg.find? id = some (.entry e) ∧ e.Bounded := by
  have hf := lookup_entry.mp hl
  exact ⟨hf, h.bounded (mem_of_find hf).1⟩

theorem Sound.table_served {table : EntryTable} (hb : EntryTable.Bounded table)
    (hv : EntryTable.Verified table reg) : EntryTable.Served table reg := by
  intro row hrow
  obtain ⟨e, hl, hgains⟩ := hv row hrow
  obtain ⟨hf, he⟩ := h.entry_found hl
  refine ⟨e, hf, ?_⟩
  intro gain hgain
  exact he.serves (hb row hrow gain hgain) (hgains gain hgain).1

theorem Sound.entry_carries {id : String} {piece : Int} (hpos : 1 ≤ piece)
    (hv : ∃ e, reg.lookup? Resource.entry? id = some e ∧ piece ≤ e.maxPiece) :
    ∃ e, reg.find? id = some (.entry e) ∧ e.Carries piece := by
  obtain ⟨e, hl, hle⟩ := hv
  obtain ⟨hf, he⟩ := h.entry_found hl
  exact ⟨e, hf, he.carries hpos hle⟩

theorem Sound.jewel_paired {j : Jewel} (hj : .jewel j ∈ reg.resources) : j.Paired := by
  obtain ⟨draft, hb⟩ := h.built _ hj
  constructor
  case written =>
    cases hb with
    | @jewel draft _ hd => exact ⟨draft, hd, Jewel.build_paired _ _ j hd⟩
  case entry_exported => exact j.sub_exported.1
  case piece_exported => exact j.sub_exported.2

end Found

/-- Once a registry verifies, no entry, parent or jewel is looked up out of range. -/
theorem verified_in_range {reg : Registry} (hr : reg.Reachable) (hv : reg.verify = .ok ()) :
    reg.InRange := by
  have h := hr.sound
  have hv := verify_ok.mp hv
  constructor
  case equipmentEntries =>
    intro x hx table ht
    have hb : x.Bounded := h.bounded hx
    have hx : x.Verified reg := hv _ hx
    exact h.table_served (hb.entries table ht) (hx.entries table ht)
  case perkEntries =>
    intro p hp table ht
    have hb : p.Bounded := h.bounded hp
    have hp : p.Verified reg := hv _ hp
    exact h.table_served (hb.entries table ht) (hp.entries table ht)
  case jewelEntry =>
    intro j hj
    have hb : j.Bounded := h.bounded hj
    have hj : j.Verified reg := hv _ hj
    exact h.entry_carries hb.piece hj.entry
  case jewelSub =>
    intro j hj sub hs
    have hb : j.Bounded := h.bounded hj
    have hj : j.Verified reg := hv _ hj
    exact h.entry_carries (hb.sub sub hs) (hj.sub sub hs)
  case jewelPaired => exact fun j hj => h.jewel_paired hj
  case accessoryEntry =>
    intro a ha
    have hb : a.Bounded := h.bounded ha
    have ha : a.Verified reg := hv _ ha
    exact h.entry_carries hb.piece ha.entry
  case perkParents =>
    intro p hp parents hparents row hrow
    have hb : p.Bounded := h.bounded hp
    have hp : p.Verified reg := hv _ hp
    obtain ⟨parent, hl, _, hle⟩ := hp.parents row (by rwa [hparents])
    exact ⟨parent, lookup_perk.mp hl, hb.parents parents hparents row hrow, hle⟩
  case equipmentParents =>
    intro x hx parents hparents row hrow
    have hx : x.Verified reg := hv _ hx
    obtain ⟨parent, hl, _, _, hlevel⟩ := hx.parents row (by rwa [hparents])
    exact ⟨parent, lookup_equipment.mp hl, hlevel⟩

theorem veteran_in_range : veteran.Reachable ∧ veteran.verify = .ok () ∧ veteran.InRange :=
  ⟨veteran_reachable, veteran_verify, verified_in_range veteran_reachable veteran_verify⟩

end Registry

end GameRoster
