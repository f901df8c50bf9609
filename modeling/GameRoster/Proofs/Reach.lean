import GameRoster.Proofs.Transport

namespace GameRoster.Timeline

section Reach

variable {α : Type} [LE α]

/-- The least begin of some ranges. -/
structure StartsAt (ranges : List (α × α)) (start : α) : Prop where
  attained : ∃ range ∈ ranges, range.1 = start
  least : ∀ range ∈ ranges, start ≤ range.1

/-- The greatest end of some ranges. -/
structure EndsAt (ranges : List (α × α)) (stop : α) : Prop where
  attained : ∃ range ∈ ranges, range.2 = stop
  greatest : ∀ range ∈ ranges, range.2 ≤ stop

/-- Neither of two times is above the other. The two zeros are the same time. -/
def Same (a b : α) : Prop := a ≤ b ∧ b ≤ a

theorem StartsAt.unique {ranges : List (α × α)} {a b : α} (ha : StartsAt ranges a)
    (hb : StartsAt ranges b) : Same a b := by
  obtain ⟨first, hfirst, rfl⟩ := ha.attained
  obtain ⟨second, hsecond, rfl⟩ := hb.attained
  exact ⟨ha.least second hsecond, hb.least first hfirst⟩

theorem EndsAt.unique {ranges : List (α × α)} {a b : α} (ha : EndsAt ranges a)
    (hb : EndsAt ranges b) : Same a b := by
  obtain ⟨first, hfirst, rfl⟩ := ha.attained
  obtain ⟨second, hsecond, rfl⟩ := hb.attained
  exact ⟨hb.greatest first hfirst, ha.greatest second hsecond⟩

variable [LT α]

/-- An instant lies in a range. A range without width reaches none. -/
def Reaches (range : α × α) (time : α) : Prop := range.1 ≤ time ∧ time < range.2

/-- The last range that reaches an instant stands at a position. -/
def LastReach (ranges : List (α × α)) (time : α) (i : Nat) : Prop :=
  (∃ range, ranges[i]? = some range ∧ Reaches range time) ∧
    ∀ j range, i < j → ranges[j]? = some range → ¬ Reaches range time

/-- Every instant from `start` up to `stop` is reached. -/
def Covered (ranges : List (α × α)) (start stop : α) : Prop :=
  ∀ time, start ≤ time → time < stop → ∃ range ∈ ranges, Reaches range time

end Reach

/-- Layers become fragments when each of them has an owner. -/
theorem Fragment.mapM_ofLayer_isSome {α : Type} {layers : List (Layer α)} :
    (layers.mapM ofLayer?).isSome = true ↔ ∀ layer ∈ layers, layer.owner.isSome = true := by
  induction layers with
  | nil => simp
  | cons layer rest ih =>
    obtain ⟨start, stop, owner⟩ := layer
    rw [List.forall_mem_cons, ← ih, List.mapM_cons]
    cases owner with
    | none => simp [ofLayer?]
    | some i => cases rest.mapM ofLayer? <;> simp [ofLayer?]

section Image

variable {α β : Type} [LT α] [LE α] [LT β] [LE β] {f : α → β} (hf : Embeds f)
  {ranges : List (α × α)} {a : α}

include hf

theorem StartsAt.map (h : StartsAt ranges a) : StartsAt (ranges.map (Prod.map f f)) (f a) := by
  obtain ⟨range, hm, rfl⟩ := h.attained
  refine ⟨⟨_, List.mem_map_of_mem hm, rfl⟩, List.forall_mem_map.mpr fun other ho => ?_⟩
  exact (hf.le range.1 other.1).mpr (h.least other ho)

theorem EndsAt.map (h : EndsAt ranges a) : EndsAt (ranges.map (Prod.map f f)) (f a) := by
  obtain ⟨range, hm, rfl⟩ := h.attained
  refine ⟨⟨_, List.mem_map_of_mem hm, rfl⟩, List.forall_mem_map.mpr fun other ho => ?_⟩
  exact (hf.le other.2 range.2).mpr (h.greatest other ho)

theorem EndsAt.of_map (h : EndsAt (ranges.map (Prod.map f f)) (f a))
    (ha : ∃ range ∈ ranges, range.2 = a) : EndsAt ranges a := by
  refine ⟨ha, fun range hm => ?_⟩
  exact (hf.le range.2 a).mp (h.greatest _ (List.mem_map_of_mem hm))

theorem reaches_map (range : α × α) (time : α) :
    Reaches (Prod.map f f range) (f time) ↔ Reaches range time :=
  and_congr (hf.le range.1 time) (hf.lt time range.2)

theorem lastReach_map (ranges : List (α × α)) (time : α) (i : Nat) :
    LastReach (ranges.map (Prod.map f f)) (f time) i ↔ LastReach ranges time i := by
  simp only [LastReach, List.getElem?_map, Option.map_eq_some_iff]
  refine and_congr ?_ (forall_congr' fun j => ?_)
  · simp only [exists_exists_and_eq_and, reaches_map hf]
  · constructor
    · intro h range hj hrange
      rw [← reaches_map hf]
      exact h _ hj ⟨range, hrange, rfl⟩
    · rintro h _ hj ⟨range, hrange, rfl⟩
      rw [reaches_map hf]
      exact h range hj hrange

end Image

section Embedded

variable {α β : Type} [LT α] [LE α] [LinearOrder β] {f : α → β} (hf : Embeds f)

include hf

variable [DecidableLT α] [DecidableLE α]

theorem Fragment.least_startsAt (range : α × α) (ranges : List (α × α)) :
    StartsAt (range :: ranges) (least range.1 (ranges.map Prod.fst)) := by
  constructor
  case attained => exact List.mem_map.mp (least_mem range.1 (ranges.map Prod.fst))
  case least =>
    intro found hm
    rw [← hf.le, ← least_map hf (.of_order f)]
    exact least_le (List.mem_map_of_mem (List.mem_map_of_mem hm))

theorem Fragment.greatest_endsAt (range : α × α) (ranges : List (α × α)) :
    EndsAt (range :: ranges) (greatest range.2 (ranges.map Prod.snd)) := by
  constructor
  case attained => exact List.mem_map.mp (greatest_mem range.2 (ranges.map Prod.snd))
  case greatest =>
    intro found hm
    rw [← hf.le, ← greatest_map hf (.of_order f)]
    exact le_greatest (List.mem_map_of_mem (List.mem_map_of_mem hm))

variable {ranges : List (α × α)} {start stop : α}
  (hr : ∀ range ∈ ranges, start ≤ range.1 ∧ range.1 ≤ range.2 ∧ range.2 ≤ stop)

include hr

/-- Seen through the embedding, painting is painting in a linear order. -/
theorem painted_image (h : start < stop) :
    Layer.Painted (ranges.map (Prod.map f f)) (f start) (f stop)
      ((Layer.paintRanges 0 ranges [⟨start, stop, none⟩]).map (Layer.map f)) := by
  rw [← Layer.paintRanges_map hf]
  apply (Layer.Painted.blank ((hf.lt start stop).mpr h)).paintRanges
  refine List.forall_mem_map.mpr fun range hm => ?_
  simpa only [Prod.map_fst, Prod.map_snd, hf.le] using hr range hm

theorem paintRanges_still (h : ¬ start < stop) (layers : List (Layer α)) :
    Layer.paintRanges 0 ranges layers = layers := by
  apply Fragment.paintRanges_flat
  intro range hm
  have hwithin := hr range hm
  simp only [← hf.le] at hwithin ⊢
  rw [← hf.lt, not_lt] at h
  obtain ⟨hs, hle, he⟩ := hwithin
  exact ⟨hle, le_trans he (le_trans h hs)⟩

theorem covered_of_owners (h : start < stop)
    (howners : ∀ layer ∈ Layer.paintRanges 0 ranges [⟨start, stop, none⟩],
      layer.owner.isSome = true) : Covered ranges start stop := by
  have hpainted := painted_image hf hr h
  intro time h₁ h₂
  obtain ⟨image, hm, hin⟩ :=
    hpainted.tiles.exists_mem ((hf.le start time).mpr h₁) ((hf.lt time stop).mpr h₂)
  have hshows := hpainted.owned image hm (f time) hin.1 hin.2
  obtain ⟨layer, hlayer, rfl⟩ := List.mem_map.mp hm
  obtain ⟨i, hi⟩ := Option.isSome_iff_exists.mp (howners layer hlayer)
  rw [Layer.map, hi] at hshows
  obtain ⟨range, hrange, hreach⟩ := ((lastReach_map hf ranges time i).mp hshows).1
  exact ⟨range, List.mem_of_getElem? hrange, hreach⟩

/-- The first instant of a layer tells whether anyone owns the layer. -/
theorem owners_of_covered (h : start < stop) (hcovered : Covered ranges start stop) :
    ∀ layer ∈ Layer.paintRanges 0 ranges [⟨start, stop, none⟩], layer.owner.isSome = true := by
  have hpainted := painted_image hf hr h
  intro layer hlayer
  have hm := List.mem_map_of_mem (f := Layer.map f) hlayer
  obtain ⟨hb, hw, he⟩ := hpainted.tiles.mem hm
  have hshows := hpainted.owned _ hm (f layer.start) le_rfl hw
  obtain ⟨range, hrange, hreach⟩ :=
    hcovered layer.start ((hf.le _ _).mp hb) ((hf.lt _ _).mp (lt_of_lt_of_le hw he))
  cases howner : layer.owner with
  | some i => rfl
  | none =>
    rw [Layer.map, howner] at hshows
    have hnone := hshows _ (List.mem_map_of_mem (f := Prod.map f f) hrange)
    exact absurd ((reaches_map hf range layer.start).mpr hreach) hnone

/-- All layers of a timeline become fragments exactly when the timeline takes some time and each
instant of it is reached. -/
theorem ofLayer_paintRanges :
    ((Layer.paintRanges 0 ranges [⟨start, stop, none⟩]).mapM Fragment.ofLayer?).isSome = true ↔
      start < stop ∧ Covered ranges start stop := by
  rw [Fragment.mapM_ofLayer_isSome]
  by_cases h : start < stop
  · constructor
    · exact fun howners => ⟨h, covered_of_owners hf hr h howners⟩
    · exact fun ⟨_, hcovered⟩ => owners_of_covered hf hr h hcovered
  · rw [paintRanges_still hf hr h]
    simp [h]

end Embedded

end GameRoster.Timeline
