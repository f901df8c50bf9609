import GameRoster.Proofs.Grants
import GameRoster.Proofs.PointOrder

namespace GameRoster

section Ordered

variable {α : Type} {before : α → α → Bool} {items : List α}
  (hasymm : ∀ a b, before a b = true → before b a = false)
  (hitems : items.Pairwise fun a b => before a b = true)

include hasymm

theorem irrefl_of_asymm (a : α) : before a a = false := by
  cases h : before a a with
  | false => rfl
  | true => exact h.symm.trans (hasymm a a h)

include hitems

/-- In a strictly ordered list each item has as many smaller ones as stand before it. -/
theorem countP_ordered {k : Nat} {item : α} (h : items[k]? = some item) :
    items.countP (fun other => before other item) = k := by
  induction items generalizing k with
  | nil => simp at h
  | cons first rest ih =>
    obtain ⟨hfirst, hrest⟩ := List.pairwise_cons.mp hitems
    rw [List.countP_cons]
    cases k with
    | zero =>
      obtain rfl := Option.some.inj h
      have hnone : rest.countP (fun other => before other first) = 0 :=
        List.countP_eq_zero.mpr fun other hother => by simp [hasymm _ _ (hfirst other hother)]
      simp [hnone, irrefl_of_asymm hasymm]
    | succ k =>
      have hmem : item ∈ rest := List.mem_of_getElem? h
      rw [ih hrest h, if_pos (hfirst item hmem)]

theorem ordered_iff {k m : Nat} {a b : α} (ha : items[k]? = some a) (hb : items[m]? = some b) :
    before b a = true ↔ m < k := by
  obtain ⟨hk, rfl⟩ := List.getElem?_eq_some_iff.mp ha
  obtain ⟨hm, rfl⟩ := List.getElem?_eq_some_iff.mp hb
  rw [List.pairwise_iff_getElem] at hitems
  rcases Nat.lt_trichotomy m k with h | rfl | h
  · exact iff_of_true (hitems m k hm hk h) h
  · simp [irrefl_of_asymm hasymm]
  · refine iff_of_false ?_ (Nat.lt_asymm h)
    rw [hasymm _ _ (hitems k m hk hm h)]
    exact Bool.false_ne_true

end Ordered

namespace Timeline.Points

variable {V : Type}

/-- Whether one of two numbered points stands before the other: at an earlier time, or at the same
time under a smaller number. -/
def precedes (a b : (Float × V) × Nat) : Bool :=
  decide (Numeric.orderKey a.1.1 < Numeric.orderKey b.1.1 ∨
    Numeric.orderKey a.1.1 = Numeric.orderKey b.1.1 ∧ a.2 < b.2)

/-- How many points stand before the one that is declared under a number. -/
def position (points : List (Float × V)) (i : Nat) : Nat :=
  points.zipIdx.countP fun other => points[i]?.any fun point => precedes other (point, i)

theorem precedes_iff {a b : (Float × V) × Nat} : precedes a b = true ↔
    Numeric.orderKey a.1.1 < Numeric.orderKey b.1.1 ∨
      Numeric.orderKey a.1.1 = Numeric.orderKey b.1.1 ∧ a.2 < b.2 := decide_eq_true_iff

theorem precedes_asymm (a b : (Float × V) × Nat) (h : precedes a b = true) :
    precedes b a = false := by
  rw [precedes_iff] at h
  rw [← Bool.not_eq_true, precedes_iff]
  omega

variable {points : List (Float × V)} {i : Nat} {point : Float × V}

theorem position_eq (h : points[i]? = some point) :
    position points i = points.zipIdx.countP fun other => precedes other (point, i) := by
  simp [position, h]

/-- Behind a timeline stands a strict order of its numbered points. -/
theorem ofPairs_numbered (points : List (Float × V)) :
    ∃ numbered : List ((Float × V) × Nat), numbered.map Prod.fst = (ofPairs points).pairs ∧
      numbered.Perm points.zipIdx ∧ numbered.Pairwise fun a b => precedes a b = true := by
  have hperm := List.mergeSort_perm points.zipIdx (List.zipIdxLE before)
  refine ⟨_, List.mergeSort_zipIdx, hperm, ?_⟩
  have hsorted := List.pairwise_mergeSort (List.zipIdxLE_trans before_trans)
    (List.zipIdxLE_total before_total) points.zipIdx
  have hnumbers : ((points.zipIdx.mergeSort (List.zipIdxLE before)).map Prod.snd).Nodup := by
    rw [(hperm.map _).nodup_iff, List.zipIdx_map_snd]
    exact List.nodup_range' ..
  refine (hsorted.and (List.pairwise_map.mp hnumbers)).imp ?_
  rintro a b ⟨hle, hne⟩
  rw [precedes_iff]
  simp only [List.zipIdxLE, before, decide_eq_true_eq] at hle
  split at hle
  · split at hle
    · have hnumber := of_decide_eq_true hle
      omega
    · omega
  · cases hle

/-- The first point that fails in the order of times is one that fails where those of earlier times
pass. It fails at its position. -/
theorem firstToFail_ofPairs {passes : Float × V → Prop} {fails : Nat → Float × V → Prop} :
    FirstToFail (fun _ => passes) fails (ofPairs points).pairs ↔
      ∃ i point, points[i]? = some point ∧ fails (position points i) point ∧
        ∀ j earlier, points[j]? = some earlier → precedes (earlier, j) (point, i) = true →
          passes earlier := by
  obtain ⟨numbered, hpairs, hperm, hordered⟩ := ofPairs_numbered points
  have hmem : ∀ j other, (other, j) ∈ numbered ↔ points[j]? = some other := by
    intro j other
    rw [hperm.mem_iff, List.mem_zipIdx_iff_getElem?]
  have hposition : ∀ k i point, numbered[k]? = some (point, i) → position points i = k := by
    intro k i point hk
    rw [position_eq ((hmem i point).mp (List.mem_of_getElem? hk)), ← hperm.countP_eq]
    exact countP_ordered precedes_asymm hordered hk
  rw [← hpairs]
  constructor
  · rintro ⟨k, point, hk, hfails, hpasses⟩
    rw [List.getElem?_map, Option.map_eq_some_iff] at hk
    obtain ⟨⟨_, i⟩, hk, rfl⟩ := hk
    refine ⟨i, _, (hmem _ _).mp (List.mem_of_getElem? hk), ?_, fun j earlier hj hprecedes => ?_⟩
    · rw [hposition k i _ hk]
      exact hfails
    · obtain ⟨m, hm⟩ := List.mem_iff_getElem?.mp ((hmem j earlier).mpr hj)
      refine hpasses m earlier ((ordered_iff precedes_asymm hordered hk hm).mp hprecedes) ?_
      rw [List.getElem?_map, hm]
      rfl
  · rintro ⟨i, point, hi, hfails, hpasses⟩
    obtain ⟨k, hk⟩ := List.mem_iff_getElem?.mp ((hmem i point).mpr hi)
    rw [hposition k i point hk] at hfails
    refine ⟨k, point, by simp [hk], hfails, fun m earlier hm hget => ?_⟩
    rw [List.getElem?_map, Option.map_eq_some_iff] at hget
    obtain ⟨⟨_, j⟩, hget, rfl⟩ := hget
    exact hpasses j _ ((hmem _ _).mp (List.mem_of_getElem? hget))
      ((ordered_iff precedes_asymm hordered hk hget).mpr hm)

/-- Where times are declared in order, points stay where they are declared. -/
theorem position_of_ascending
    (h : points.Pairwise fun a b => Numeric.orderKey a.1 ≤ Numeric.orderKey b.1)
    (hi : points[i]? = some point) : position points i = i := by
  have hordered : points.zipIdx.Pairwise fun a b => precedes a b = true := by
    rw [List.pairwise_iff_getElem] at h ⊢
    intro m k hm hk hlt
    rw [List.length_zipIdx] at hm hk
    have hle := h m k hm hk hlt
    rw [precedes_iff]
    simp only [List.getElem_zipIdx, Nat.zero_add]
    omega
  rw [position_eq hi]
  exact countP_ordered precedes_asymm hordered (by simp [hi])

end Timeline.Points

end GameRoster
