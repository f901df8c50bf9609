import GameRoster.Proofs.Declared
import GameRoster.Proofs.Notations
import Mathlib.Data.List.Perm.Basic

namespace GameRoster

open Check (Agrees Anywhere)

theorem Check.toOption_some {α : Type} {x : Check α} {a : α} :
    x.toOption = some a ↔ x = .ok a := by
  cases x <;> simp [Except.toOption]

theorem Check.Agrees.ok_iff {α : Type} {x y : Check α} (h : Agrees x y) {a : α} :
    x = .ok a ↔ y = .ok a := by
  unfold Agrees at h
  rw [← toOption_some, h, toOption_some]

/-- Where the place of an item does not matter, results are those of the items alone. -/
theorem Location.each_anywhere_iff {α β : Type} {read : Location → α → Check β}
    (h : Anywhere read) (here loc : Location) {items : List α} {results : List β} :
    loc.each read items = .ok results ↔
      List.Forall₂ (fun item b => read here item = .ok b) items results := by
  rw [each_iff]
  have hplaces : ∀ (item : α × Nat) (b : β),
      read (loc.index item.2) item.1 = .ok b ↔ read here item.1 = .ok b :=
    fun item b => (h _ _ _).ok_iff
  have hmap := List.forall₂_map_left_iff (R := fun item b => read here item = .ok b)
    (f := Prod.fst) (l := items.zipIdx) (u := results)
  rw [List.zipIdx_map_fst] at hmap
  simp only [hplaces, hmap]

namespace Timeline.Points

variable {V : Type}

/-- Points of one key are a sorted part of the list, and sorting keeps such a part as it is. -/
theorem ofPairs_stable (pairs : List (Float × V)) (key : Int) :
    (ofPairs pairs).pairs.filter (fun point => Numeric.orderKey point.1 = key) =
      pairs.filter fun point => Numeric.orderKey point.1 = key := by
  have hsorted : (pairs.filter fun point => Numeric.orderKey point.1 = key).Pairwise
      fun a b => before a b = true := by
    refine List.pairwise_of_forall_mem_list fun a ha b hb => ?_
    have hkeya := of_decide_eq_true (List.mem_filter.mp ha).2
    have hkeyb := of_decide_eq_true (List.mem_filter.mp hb).2
    exact decide_eq_true (hkeya.trans hkeyb.symm).le
  have hkept : (pairs.filter fun point => Numeric.orderKey point.1 = key).Sublist
      (ofPairs pairs).pairs :=
    List.sublist_mergeSort before_trans before_total hsorted List.filter_sublist
  have hfiltered := hkept.filter fun point => Numeric.orderKey point.1 = key
  rw [List.filter_filter, funext fun point : Float × V => Bool.and_self _] at hfiltered
  exact (hfiltered.eq_of_length ((ofPairs_perm pairs).filter _).length_eq.symm).symm

/-- Points that are told apart by their times have one order only. -/
theorem ofPairs_reordered {pairs other : List (Float × V)} (h : pairs.Perm other)
    (hd : (pairs.map fun point => Numeric.orderKey point.1).Nodup) :
    ofPairs pairs = ofPairs other := by
  have hperm : (ofPairs pairs).pairs.Perm (ofPairs other).pairs :=
    (ofPairs_perm pairs).trans (h.trans (ofPairs_perm other).symm)
  have heq : (ofPairs pairs).pairs = (ofPairs other).pairs := by
    refine hperm.eq_of_pairwise ?_ (ofPairs_ascending pairs) (ofPairs_ascending other)
    intro a b ha hb hab hba
    have hma := (ofPairs_perm pairs).mem_iff.mp ha
    have hmb := h.mem_iff.mpr ((ofPairs_perm other).mem_iff.mp hb)
    exact List.inj_on_of_nodup_map hd hma hmb (Int.le_antisymm hab hba)
  exact congrArg Points.mk heq

/-- The points of a timeline in the order they are declared. -/
def stated (loc : Location) : Value → List Declared
  | .array items => items.zipIdx.map fun (item, i) =>
      ⟨(loc.index i).field "time", itemTime item, loc.index i, item⟩
  | .object fields => fields.map fun (name, item) => ⟨loc.key name, .string name, loc.key name, item⟩
  | _ => []

/-- An item is read as a point: its time within the limits, and its value. -/
structure States (duration : Float) (item : Location → Value → Checked V) (declared : Declared)
    (point : Float × V) : Prop where
  time : (Field.time (.between 0 duration) declared.timeLoc declared.time).result = .ok point.1
  value : (item declared.loc declared.content).result = .ok point.2

/-- A timeline holds points in the total order of their times. -/
structure Sorts (points : List (Float × V)) (timeline : Points V) : Prop where
  perm : timeline.pairs.Perm points
  ascending : timeline.pairs.Pairwise fun a b => Numeric.orderKey a.1 ≤ Numeric.orderKey b.1
  /-- Points of the same time stay as they were declared. -/
  stable : ∀ key, timeline.pairs.filter (fun point => Numeric.orderKey point.1 = key) =
    points.filter fun point => Numeric.orderKey point.1 = key

theorem ofPairs_sorts (pairs : List (Float × V)) : Sorts pairs (ofPairs pairs) :=
  ⟨ofPairs_perm pairs, ofPairs_ascending pairs, ofPairs_stable pairs⟩

section Read

variable {duration : Float} {item : Location → Value → Checked V} {loc : Location}

/-- In either form a point is read in two steps. -/
theorem point_ok {time : Checked Float} {value : Checked V} {point : Float × V} :
    (do let t ← time; let v ← value; return (t, v) : Checked (Float × V)).result = .ok point ↔
      time.result = .ok point.1 ∧ value.result = .ok point.2 := by
  obtain ⟨t, v⟩ := point
  simp only [Checked.result_bind, Check.bind_ok, Checked.result_pure, Except.ok.injEq,
    Prod.mk.injEq]
  constructor
  · rintro ⟨_, ht, _, hv, rfl, rfl⟩
    exact ⟨ht, hv⟩
  · rintro ⟨ht, hv⟩
    exact ⟨t, ht, v, hv, rfl, rfl⟩

/-- Points are read in the order they are declared, and sorted when all of them are read. -/
theorem read_points {raw : Value} {timeline : Points V}
    (h : (read duration item loc raw).result = .ok timeline) :
    ∃ points, List.Forall₂ (States duration item) (stated loc raw) points ∧
      timeline = ofPairs points := by
  cases raw with
  | array items =>
    simp only [read, Checked.result_bind, Location.result_each, Check.bind_ok] at h
    obtain ⟨points, hpoints, heq⟩ := h
    rw [Location.each_iff] at hpoints
    refine ⟨points, List.forall₂_map_left_iff.mpr (hpoints.imp fun entry point hread => ?_),
      (Except.ok.inj heq).symm⟩
    obtain ⟨htime, hvalue⟩ := point_ok.mp hread
    exact ⟨htime, hvalue⟩
  | object fields =>
    simp only [read, Checked.result_bind, Location.result_eachKey, Check.bind_ok] at h
    obtain ⟨points, hpoints, heq⟩ := h
    rw [Location.eachKey_iff] at hpoints
    refine ⟨points, List.forall₂_map_left_iff.mpr (hpoints.imp fun entry point hread => ?_),
      (Except.ok.inj heq).symm⟩
    obtain ⟨htime, hvalue⟩ := point_ok.mp hread
    exact ⟨htime, hvalue⟩
  | null => cases h
  | bool b => cases h
  | number n => cases h
  | string s => cases h

/-- Where items are read alike anywhere, a list of them is read as the items are. -/
theorem read_array (h : Anywhere fun loc raw => (item loc raw).result) {items : List Value}
    {timeline : Points V} :
    (read duration item loc (.array items)).result = .ok timeline ↔
      ∃ points, List.Forall₂ (fun raw point =>
        (readItem (.between 0 duration) item loc raw).result = .ok point) items points ∧
        ofPairs points = timeline := by
  simp only [read, Checked.result_bind, Location.result_each, Check.bind_ok, Checked.result_pure,
    Except.ok.injEq, Location.each_anywhere_iff (readItem_anywhere h _) loc]

/-- Items in another order are read as the same points in another order. -/
theorem read_perm (h : Anywhere fun loc raw => (item loc raw).result) {items other : List Value}
    (hperm : items.Perm other) {timeline : Points V}
    (hread : (read duration item loc (.array items)).result = .ok timeline) :
    ∃ found, (read duration item loc (.array other)).result = .ok found ∧
      found.pairs.Perm timeline.pairs ∧
      ((timeline.pairs.map fun point => Numeric.orderKey point.1).Nodup → found = timeline) := by
  obtain ⟨points, hpoints, rfl⟩ := (read_array h).mp hread
  obtain ⟨others, hothers, hp⟩ := List.perm_comp_forall₂ hperm.symm hpoints
  refine ⟨ofPairs others, (read_array h).mpr ⟨others, hothers, rfl⟩, ?_, ?_⟩
  · exact (ofPairs_perm others).trans (hp.trans (ofPairs_perm points).symm)
  · intro hdistinct
    have hkeys := (((ofPairs_perm points).trans hp.symm).map fun point =>
      Numeric.orderKey point.1).nodup_iff.mp hdistinct
    exact ofPairs_reordered hp hkeys

/-- A timeline holds the points that were declared, in the total order of their times, those of the
same time in the order of declaration, and within the duration if that is a number. Listing the items
in another order makes no difference to whether they are read, and none to what is read of them
unless two of them share a time. -/
theorem read_sorts (duration : Float) (item : Location → Value → Checked V) (loc : Location) :
    (∀ raw timeline, (read duration item loc raw).result = .ok timeline →
      ∃ points, List.Forall₂ (States duration item) (stated loc raw) points ∧
        Sorts points timeline ∧
        (duration.isNaN = false → ∀ point ∈ timeline.pairs, 0 ≤ point.1 ∧ point.1 ≤ duration)) ∧
    ((Anywhere fun loc raw => (item loc raw).result) → ∀ items other : List Value,
      items.Perm other →
      ((∃ timeline, (read duration item loc (.array items)).result = .ok timeline) ↔
        ∃ timeline, (read duration item loc (.array other)).result = .ok timeline) ∧
      ∀ timeline, (read duration item loc (.array items)).result = .ok timeline →
        (timeline.pairs.map fun point => Numeric.orderKey point.1).Nodup →
        (read duration item loc (.array other)).result = .ok timeline) := by
  constructor
  · intro raw timeline h
    obtain ⟨points, hpoints, rfl⟩ := read_points h
    exact ⟨points, hpoints, ofPairs_sorts points, fun hd => (read_within hd item loc raw _ h).inside⟩
  · intro hitem items other hperm
    constructor
    · constructor
      · rintro ⟨timeline, h⟩
        obtain ⟨found, hfound, -⟩ := read_perm hitem hperm h
        exact ⟨found, hfound⟩
      · rintro ⟨timeline, h⟩
        obtain ⟨found, hfound, -⟩ := read_perm hitem hperm.symm h
        exact ⟨found, hfound⟩
    · intro timeline h hdistinct
      obtain ⟨found, hfound, -, hsame⟩ := read_perm hitem hperm h
      exact hsame hdistinct ▸ hfound

/-- Steering that starts at either zero and at the end; the zeros differ in the total order. -/
def zeros : List Value := [
  .object [("time", .string "1s"), ("move", .bool true)],
  .object [("time", .int 0), ("move_ex", .bool true)],
  .object [("time", .float (-0.0)), ("angle", .string "L45"), ("duration", .string "100ms")]]

theorem zeros_sorted : ∃ timeline points,
    (read 1 InputMovement.read (.label "x") (.array zeros)).result = .ok timeline ∧
    Sorts points timeline ∧ (∀ point ∈ timeline.pairs, 0 ≤ point.1 ∧ point.1 ≤ 1) ∧
    (timeline.pairs.map fun point => Numeric.orderKey point.1).Nodup ∧
    (read 1 InputMovement.read (.label "x") (.array zeros.reverse)).result = .ok timeline := by
  have hkeys : ((Location.label "x").each (fun loc raw =>
      (readItem (.between 0 1) InputMovement.read loc raw).result) zeros).toOption.map
        (List.map fun point => Numeric.orderKey point.1) = some [4607182418800017408, 0, -1] := by
    decide +kernel
  obtain ⟨points, hpoints, hlist⟩ := Option.map_eq_some_iff.mp hkeys
  have hread : (read 1 InputMovement.read (.label "x") (.array zeros)).result =
      .ok (ofPairs points) := by
    refine (read_array InputMovement.read_anywhere).mpr ⟨points, ?_, rfl⟩
    rw [← Location.each_anywhere_iff (readItem_anywhere InputMovement.read_anywhere _) _
      (.label "x")]
    exact Check.toOption_some.mp hpoints
  have hdistinct : ((ofPairs points).pairs.map fun point => Numeric.orderKey point.1).Nodup := by
    rw [((ofPairs_perm points).map _).nodup_iff, hlist]
    decide
  obtain ⟨hsorts, hreordered⟩ := read_sorts 1 InputMovement.read (.label "x")
  obtain ⟨declared, -, hsorted, hinside⟩ := hsorts _ _ hread
  obtain ⟨-, hsame⟩ := hreordered InputMovement.read_anywhere zeros zeros.reverse
    (List.reverse_perm zeros).symm
  exact ⟨_, declared, hread, hsorted, hinside rfl, hdistinct, hsame _ hread hdistinct⟩

end Read

end Timeline.Points

end GameRoster
