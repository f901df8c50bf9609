import GameRoster.Document.Reading
import Mathlib.Data.List.Nodup

namespace GameRoster

namespace Document.Node.map?

variable {α : Type} {entries written : List (String × α)} {entry : String × α}

theorem insert_fresh (h : entry.1 ∉ entries.map Prod.fst) :
    insert entries entry = entries ++ [entry] := by
  have hfree : entries.any (·.1 == entry.1) = false := by
    rw [List.any_eq_false]
    intro old hold heq
    exact h (List.mem_map.mpr ⟨old, hold, eq_of_beq heq⟩)
  simp [insert, hfree]

/-- A key that is taken stays where it is. -/
theorem insert_keys_taken (h : entry.1 ∈ entries.map Prod.fst) :
    (insert entries entry).map Prod.fst = entries.map Prod.fst := by
  obtain ⟨found, hfound, hkey⟩ := List.mem_map.mp h
  have htaken : entries.any (·.1 == entry.1) = true :=
    List.any_eq_true.mpr ⟨found, hfound, by simp [hkey]⟩
  rw [insert, if_pos htaken, List.map_map]
  refine List.map_congr_left fun old _ => ?_
  rw [Function.comp_apply]
  split
  · rename_i heq
    exact (eq_of_beq heq).symm
  · rfl

theorem insert_distinct (h : (entries.map Prod.fst).Nodup) :
    ((insert entries entry).map Prod.fst).Nodup := by
  by_cases hkey : entry.1 ∈ entries.map Prod.fst
  · rwa [insert_keys_taken hkey]
  · rw [insert_fresh hkey, List.map_append, List.map_singleton, ← List.concat_eq_append]
    exact List.Nodup.concat hkey h

theorem insertAll_distinct (written : List (String × α)) (h : (entries.map Prod.fst).Nodup) :
    ((written.foldl insert entries).map Prod.fst).Nodup := by
  induction written generalizing entries with
  | nil => exact h
  | cons entry rest ih => exact ih (insert_distinct h)

/-- Distinct keys are put in one after the other, and none is replaced. -/
theorem insertAll_of_distinct (h : ((entries ++ written).map Prod.fst).Nodup) :
    written.foldl insert entries = entries ++ written := by
  induction written generalizing entries with
  | nil => exact (List.append_nil entries).symm
  | cons entry rest ih =>
    have hfresh : entry.1 ∉ entries.map Prod.fst := by
      rw [List.map_append, List.map_cons] at h
      exact fun hm => List.disjoint_of_nodup_append h hm List.mem_cons_self
    rw [List.foldl_cons, insert_fresh hfresh, ih, List.append_assoc, List.singleton_append]
    rwa [List.append_assoc, List.singleton_append]

end Document.Node.map?

theorem Document.Node.map?_distinct {α : Type} {item? : Node → Option α} {node : Node}
    {entries : List (String × α)} (h : map? item? node = some entries) :
    (entries.map Prod.fst).Nodup := by
  cases node with
  | map written =>
    obtain ⟨fields, -, hitems⟩ := Option.bind_eq_some_iff.mp h
    obtain ⟨items, -, hentries⟩ := Option.bind_eq_some_iff.mp hitems
    obtain rfl := Option.some.inj hentries
    exact map?.insertAll_distinct items List.nodup_nil
  | _ => cases h

/-- The object that is made of entries holds each key once. -/
theorem Value.ofEntries_distinct (written : List (String × Value)) :
    ∃ fields, ofEntries written = .object fields ∧ (fields.map Prod.fst).Nodup :=
  ⟨_, rfl, Document.Node.map?.insertAll_distinct written List.nodup_nil⟩

end GameRoster
