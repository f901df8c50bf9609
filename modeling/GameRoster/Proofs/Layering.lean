import GameRoster.Proofs.Coarsest
import Mathlib.Tactic.MkIffOfInductiveProp

namespace GameRoster.Timeline

instance {α : Type} [LE α] [DecidableLE α] (a b : α) : Decidable (Same a b) :=
  inferInstanceAs (Decidable (a ≤ b ∧ b ≤ a))

/-- Layers of some width from `b` to `e`, in order and without a gap. Neighbours belong to different
owners. -/
@[mk_iff layered_def]
structure Layered {α : Type} [LT α] [LE α] (layers : List (Layer α)) (b e : α) : Prop where
  begins : ∃ layer, layers.head? = some layer ∧ Same layer.start b
  ends : ∃ layer, layers.getLast? = some layer ∧ Same layer.stop e
  width : ∀ layer ∈ layers, layer.start < layer.stop
  sorted : layers.Pairwise fun before after => before.stop ≤ after.start
  touch : layers.IsChain fun before after => Same before.stop after.start
  varied : layers.IsChain fun before after => before.owner ≠ after.owner

section Linear

variable {α : Type} [LinearOrder α] {layers : List (Layer α)} {b e : α}

theorem same_iff {a b : α} : Same a b ↔ a = b :=
  ⟨fun h => le_antisymm h.1 h.2, fun h => ⟨h.le, h.ge⟩⟩

/-- Layers of some width that touch leave no gap. -/
theorem Layer.Tiles.of_touch (hbegins : ∃ layer, layers.head? = some layer ∧ layer.start = b)
    (hends : ∃ layer, layers.getLast? = some layer ∧ layer.stop = e)
    (hwidth : ∀ layer ∈ layers, layer.start < layer.stop)
    (htouch : layers.IsChain fun before after => before.stop = after.start) :
    Layer.Tiles b layers e := by
  induction layers generalizing b with
  | nil =>
    obtain ⟨_, hhead, _⟩ := hbegins
    cases hhead
  | cons layer rest ih =>
    obtain ⟨_, hhead, hb⟩ := hbegins
    obtain rfl := Option.some.inj hhead
    obtain ⟨hwide, hrest⟩ := List.forall_mem_cons.mp hwidth
    refine .cons hb (hb ▸ hwide) ?_
    cases rest with
    | nil =>
      obtain ⟨_, hlast, rfl⟩ := hends
      obtain rfl := Option.some.inj hlast
      exact .nil _
    | cons next others =>
      obtain ⟨hnext, hothers⟩ := List.isChain_cons_cons.mp htouch
      rw [List.getLast?_cons_cons] at hends
      exact ih ⟨next, rfl, hnext.symm⟩ hends hrest hothers

theorem layered_iff :
    Layered layers b e ↔ b < e ∧ Layer.Tiles b layers e ∧ Layer.Varied layers := by
  rw [layered_def, Layer.Varied, List.isChain_map]
  simp only [same_iff]
  constructor
  · rintro ⟨hbegins, hends, hwidth, -, htouch, hvaried⟩
    have htiles := Layer.Tiles.of_touch hbegins hends hwidth htouch
    obtain ⟨first, hhead, rfl⟩ := hbegins
    obtain ⟨_, hwide, hstop⟩ := htiles.mem (List.mem_of_mem_head? hhead)
    exact ⟨lt_of_lt_of_le hwide hstop, htiles, hvaried⟩
  · rintro ⟨hbe, htiles, hvaried⟩
    exact ⟨htiles.head hbe, htiles.last hbe, fun layer hm => (htiles.mem hm).2.1, htiles.sorted,
      htiles.touch, hvaried⟩

namespace Layer

/-- The owner of an instant is that of the layer that holds it. -/
theorem Tiles.ownerAt_of_mem (h : Tiles b layers e) {layer : Layer α} (hm : layer ∈ layers)
    {time : α} (hc : layer.contains time = true) : ownerAt? layers time = layer.owner := by
  obtain ⟨h₁, h₂⟩ := contains_iff.mp hc
  obtain ⟨hb, _, he⟩ := h.mem hm
  obtain ⟨found, hone⟩ := h.filter_inside (le_trans hb h₁) (lt_of_lt_of_le h₂ he)
  have hmem : layer ∈ layers.filter (·.contains time) := List.mem_filter.mpr ⟨hm, hc⟩
  rw [hone] at hmem
  obtain rfl := List.mem_singleton.mp hmem
  rw [ownerAt?, ← List.head?_filter, hone]
  rfl

theorem Tiles.ownerAt_outside (h : Tiles b layers e) {time : α} (ht : time < b ∨ e ≤ time) :
    ownerAt? layers time = none := by
  rw [ownerAt?, ← List.head?_filter, h.filter_outside ht]
  rfl

section Brush

variable {start stop : α} (h : Tiles b layers e) (hw : start < stop) (hs : b ≤ start)
  (he : stop ≤ e) (i : Nat)

include h hw hs he

theorem paint_tiles : Tiles b (paint layers start stop i) e := paintFrom_tiles h hw hs he

/-- Whoever is painted owns the instants under the brush, and all others keep their owners. -/
theorem ownerAt_paint (time : α) : ownerAt? (paint layers start stop i) time =
    if start ≤ time ∧ time < stop then some i else ownerAt? layers time := by
  have hpainted := paint_tiles h hw hs he i
  by_cases hin : b ≤ time ∧ time < e
  · have hbefore : ∀ layer ∈ layers,
        layer.Owned fun time owner => owner = ownerAt? layers time := by
      intro layer hm time h₁ h₂
      exact (h.ownerAt_of_mem hm (contains_iff.mpr ⟨h₁, h₂⟩)).symm
    have howned : ∀ layer ∈ paint layers start stop i,
        layer.Owned fun time owner =>
          owner = if start ≤ time ∧ time < stop then some i else ownerAt? layers time := by
      refine paintFrom_owned ?_ ?_ (fun layer hm => List.mem_singleton.mp hm) hbefore
      · intro time owner hout hwas
        rw [hwas, if_neg hout]
      · intro time h₁ h₂
        exact (if_pos ⟨h₁, h₂⟩).symm
    obtain ⟨layer, hm, h₁, h₂⟩ := hpainted.exists_mem hin.1 hin.2
    rw [hpainted.ownerAt_of_mem hm (contains_iff.mpr ⟨h₁, h₂⟩)]
    exact howned layer hm time h₁ h₂
  · have hout : time < b ∨ e ≤ time := by
      rwa [not_and_or, not_le, not_lt] at hin
    have hfree : ¬ (start ≤ time ∧ time < stop) :=
      fun ⟨h₁, h₂⟩ => hin ⟨le_trans hs h₁, lt_of_lt_of_le h₂ he⟩
    rw [hpainted.ownerAt_outside hout, if_neg hfree, h.ownerAt_outside hout]

end Brush

end Layer

end Linear

section Embedded

variable {α β : Type} [LT α] [LE α] [LT β] [LE β] {f : α → β} (hf : Embeds f)
  {layers : List (Layer α)} {b e : α}

include hf

theorem same_map {a b : α} : Same (f a) (f b) ↔ Same a b := and_congr (hf.le a b) (hf.le b a)

theorem layered_map : Layered (layers.map (Layer.map f)) (f b) (f e) ↔ Layered layers b e := by
  simp only [layered_def, List.head?_map, List.getLast?_map, Option.map_eq_some_iff,
    exists_exists_and_eq_and, List.forall_mem_map, List.pairwise_map, List.isChain_map, Layer.map,
    same_map hf, hf.lt, hf.le]

variable [DecidableLT α] [DecidableLE α] [DecidableLT β] [DecidableLE β]

namespace Layer

theorem contains_map (layer : Layer α) (time : α) :
    (layer.map f).contains (f time) = layer.contains time := by
  simp only [contains, map, hf.lt, hf.le]

theorem filter_contains_map (layers : List (Layer α)) (time : α) :
    (layers.map (map f)).filter (·.contains (f time)) =
      (layers.filter (·.contains time)).map (map f) := by
  rw [List.filter_map]
  exact congrArg (List.map (map f)) (List.filter_congr fun layer _ => contains_map hf layer time)

theorem ownerAt_map (layers : List (Layer α)) (time : α) :
    ownerAt? (layers.map (map f)) (f time) = ownerAt? layers time := by
  rw [ownerAt?, ownerAt?, ← List.head?_filter, ← List.head?_filter, filter_contains_map hf,
    List.head?_map]
  cases (layers.filter (·.contains time)).head? <;> rfl

theorem paint_map (layers : List (Layer α)) (start stop : α) (i : Nat) :
    paint (layers.map (map f)) (f start) (f stop) i = (paint layers start stop i).map (map f) :=
  paintFrom_map hf ⟨start, stop, some i⟩ [⟨start, stop, some i⟩] layers

end Layer

end Embedded

section Image

variable {α β : Type} [LT α] [LE α] [DecidableLT α] [DecidableLE α] [LinearOrder β] {f : α → β}
  (hf : Embeds f) {layers : List (Layer α)} {b e : α} (h : Layered layers b e)

include hf h

/-- One layer holds an instant between the two ends, and no other one does. -/
theorem Layered.filter_contains {time : α} (hb : b ≤ time) (he : time < e) :
    ∃ layer, layers.filter (·.contains time) = [layer] := by
  obtain ⟨_, htiles, _⟩ := layered_iff.mp ((layered_map hf).mpr h)
  obtain ⟨image, hone⟩ := htiles.filter_inside ((hf.le b time).mpr hb) ((hf.lt time e).mpr he)
  rw [Layer.filter_contains_map hf, List.map_eq_singleton_iff] at hone
  obtain ⟨layer, hlayer, _⟩ := hone
  exact ⟨layer, hlayer⟩

namespace Layer

section Brush

variable {start stop : α} (hw : start < stop) (hs : b ≤ start) (he : stop ≤ e)

include hw hs he

/-- Painting keeps layers in order when nobody is painted who owns a layer already. -/
theorem paint_layered {i : Nat} (hfresh : some i ∉ layers.map owner) :
    Layered (paint layers start stop i) b e := by
  obtain ⟨hbe, htiles, hvaried⟩ := layered_iff.mp ((layered_map hf).mpr h)
  rw [← layered_map hf, ← paint_map hf, layered_iff]
  refine ⟨hbe, ?_, ?_⟩
  · exact paint_tiles htiles ((hf.lt _ _).mpr hw) ((hf.le _ _).mpr hs) ((hf.le _ _).mpr he) i
  · refine paintFrom_varied htiles hvaried ?_
    rwa [List.map_map]

theorem ownerAt_painted (i : Nat) (time : α) : ownerAt? (paint layers start stop i) time =
    if start ≤ time ∧ time < stop then some i else ownerAt? layers time := by
  obtain ⟨_, htiles, _⟩ := layered_iff.mp ((layered_map hf).mpr h)
  have howner := ownerAt_paint htiles ((hf.lt _ _).mpr hw) ((hf.le _ _).mpr hs)
    ((hf.le _ _).mpr he) i (f time)
  rw [paint_map hf, ownerAt_map hf, ownerAt_map hf] at howner
  simpa only [hf.lt, hf.le] using howner

end Brush

/-- Nobody owns a layer after painting but who was painted and who owned one before. -/
theorem owner_of_paint {start stop : α} {i j : Nat}
    (hj : some j ∈ (paint layers start stop i).map owner) : j = i ∨ some j ∈ layers.map owner := by
  obtain ⟨_, htiles, _⟩ := layered_iff.mp ((layered_map hf).mpr h)
  have himage : some j ∈ (paint (layers.map (map f)) (f start) (f stop) i).map owner := by
    rwa [paint_map hf, List.map_map]
  rcases paintFrom_owner htiles himage with heq | hm
  · exact .inl (Option.some.inj heq)
  · rw [List.map_map] at hm
    exact .inr hm

/-- Ranges are painted for their positions, one after another, so none is painted for an owner that
is there, and layers stay in order to the end. -/
theorem paintRanges_layered {ranges : List (α × α)}
    (hr : ∀ range ∈ ranges, b ≤ range.1 ∧ range.1 ≤ range.2 ∧ range.2 ≤ e) (i : Nat)
    (hearlier : ∀ j, some j ∈ layers.map owner → j < i) :
    Layered (paintRanges i ranges layers) b e := by
  induction ranges generalizing i layers with
  | nil => exact h
  | cons range rest ih =>
    obtain ⟨start, stop⟩ := range
    obtain ⟨⟨hs, hle, he⟩, hrest⟩ := List.forall_mem_cons.mp hr
    unfold paintRanges
    split
    · exact ih h hrest (i + 1) fun j hj => Nat.lt_succ_of_lt (hearlier j hj)
    · rename_i hwide
      have hw : start < stop := by
        rw [← hf.lt, ← not_le, hf.le]
        exact fun hge => hwide ⟨hle, hge⟩
      have hfresh : some i ∉ layers.map owner := fun hm => Nat.lt_irrefl i (hearlier i hm)
      apply ih (paint_layered hf h hw hs he hfresh) hrest (i + 1)
      intro j hj
      rcases owner_of_paint hf h hj with rfl | hm
      · exact Nat.lt_succ_self j
      · exact Nat.lt_succ_of_lt (hearlier j hm)

end Layer

end Image

section Doubles

variable {layers : List (Layer Float)} {b e : Float}

theorem Instant.exists_time {x : Float} (h : x.isNaN = false) : ∃ a : Instant, a.time = x :=
  ⟨⟨x, h⟩, rfl⟩

/-- A span of some width begins and ends at numbers. -/
theorem Instant.exists_span {start stop : Float} (h : start < stop) :
    ∃ lower upper : Instant, lower.time = start ∧ upper.time = stop := by
  obtain ⟨hstart, hstop⟩ := Numeric.isNaN_of_le (Numeric.le_of_lt h)
  exact ⟨⟨start, hstart⟩, ⟨stop, hstop⟩, rfl, rfl⟩

theorem Instant.exists_layers (h : ∀ layer ∈ layers, layer.start < layer.stop) :
    ∃ instants : List (Layer Instant), instants.map (Layer.map time) = layers := by
  induction layers with
  | nil => exact ⟨[], rfl⟩
  | cons layer rest ih =>
    obtain ⟨hw, hrest⟩ := List.forall_mem_cons.mp h
    obtain ⟨instants, rfl⟩ := ih hrest
    obtain ⟨start, stop, owner⟩ := layer
    obtain ⟨lower, upper, rfl, rfl⟩ := exists_span hw
    exact ⟨⟨lower, upper, owner⟩ :: instants, rfl⟩

theorem Layered.exists_instants (h : Layered layers b e) :
    ∃ (instants : List (Layer Instant)) (first last : Instant),
      instants.map (Layer.map Instant.time) = layers ∧ first.time = b ∧ last.time = e ∧
        Layered instants first last := by
  obtain ⟨instants, rfl⟩ := Instant.exists_layers h.width
  obtain ⟨_, _, hbegin⟩ := h.begins
  obtain ⟨_, _, hend⟩ := h.ends
  refine ⟨instants, ⟨b, (Numeric.isNaN_of_le hbegin.1).2⟩, ⟨e, (Numeric.isNaN_of_le hend.1).2⟩,
    rfl, rfl, rfl, ?_⟩
  exact (layered_map Instant.embeds_time).mp h

theorem Layered.filter_number (h : Layered layers b e) {time : Float} (hb : b ≤ time)
    (he : time < e) : ∃ layer, layers.filter (·.contains time) = [layer] := by
  obtain ⟨instants, first, last, rfl, rfl, rfl, hinstants⟩ := h.exists_instants
  obtain ⟨instant, rfl⟩ := Instant.exists_time (Numeric.isNaN_of_le hb).2
  obtain ⟨layer, hone⟩ := hinstants.filter_contains Instant.embeds_rank hb he
  exact ⟨_, by rw [Layer.filter_contains_map Instant.embeds_time, hone, List.map_singleton]⟩

namespace Layer

/-- Nobody owns NaN. -/
theorem ownerAt_nan (layers : List (Layer Float)) {time : Float} (h : time.isNaN = true) :
    ownerAt? layers time = none := by
  have hnone : layers.find? (·.contains time) = none := by
    refine List.find?_eq_none.mpr fun layer _ hc => ?_
    simp only [contains, Bool.and_eq_true, decide_eq_true_eq] at hc
    exact Bool.false_ne_true ((Numeric.isNaN_of_le hc.1).2.symm.trans h)
  rw [ownerAt?, hnone]
  rfl

section Brush

variable (h : Layered layers b e) {start stop : Float} (hw : start < stop) (hs : b ≤ start)
  (he : stop ≤ e) {i : Nat}

include h hw hs he

theorem paint_doubles (hfresh : some i ∉ layers.map owner) :
    Layered (paint layers start stop i) b e := by
  obtain ⟨instants, first, last, rfl, rfl, rfl, hinstants⟩ := h.exists_instants
  obtain ⟨lower, upper, rfl, rfl⟩ := Instant.exists_span hw
  rw [paint_map Instant.embeds_time, layered_map Instant.embeds_time]
  rw [List.map_map] at hfresh
  exact paint_layered Instant.embeds_rank hinstants hw hs he hfresh

theorem ownerAt_doubles (time : Float) : ownerAt? (paint layers start stop i) time =
    if start ≤ time ∧ time < stop then some i else ownerAt? layers time := by
  cases hnumber : time.isNaN with
  | true =>
    have hfree : ¬ (start ≤ time ∧ time < stop) := fun hin =>
      Bool.false_ne_true ((Numeric.isNaN_of_le hin.1).2.symm.trans hnumber)
    rw [if_neg hfree, ownerAt_nan _ hnumber, ownerAt_nan _ hnumber]
  | false =>
    obtain ⟨instants, first, last, rfl, rfl, rfl, hinstants⟩ := h.exists_instants
    obtain ⟨lower, upper, rfl, rfl⟩ := Instant.exists_span hw
    obtain ⟨instant, rfl⟩ := Instant.exists_time hnumber
    rw [paint_map Instant.embeds_time, ownerAt_map Instant.embeds_time,
      ownerAt_map Instant.embeds_time]
    exact ownerAt_painted Instant.embeds_rank hinstants hw hs he i instant

/-- Painting layers for someone who owns none of them leaves layers in order, from the same begin to
the same end, of which one holds each instant. Who was painted owns the instants under the brush,
and every other instant belongs to whom it belonged before. -/
theorem paint_repaints (hfresh : some i ∉ layers.map owner) :
    Layered (paint layers start stop i) b e ∧
    (∀ time, b ≤ time → time < e →
      ∃ layer, (paint layers start stop i).filter (·.contains time) = [layer]) ∧
    ∀ time, ownerAt? (paint layers start stop i) time =
      if start ≤ time ∧ time < stop then some i else ownerAt? layers time := by
  have hpainted := paint_doubles h hw hs he hfresh
  exact ⟨hpainted, fun time hb he => hpainted.filter_number hb he,
    ownerAt_doubles h hw hs he⟩

end Brush

/-- Four layers, one without an owner, that begin at the negative zero. -/
def striped : List (Layer Float) :=
  [⟨-0.0, 5, some 0⟩, ⟨5, 10, none⟩, ⟨10, 15, some 1⟩, ⟨15, 20, some 0⟩]

theorem striped_layered : Layered striped 0 20 where
  begins := ⟨_, rfl, by decide, by decide⟩
  ends := ⟨_, rfl, by decide, by decide⟩
  width := by decide
  sorted := by decide
  touch := by decide
  varied := by decide

/-- The brush cuts the first layer, hides the two behind it and ends where the last one begins. -/
theorem striped_repaints : Layered striped 0 20 ∧ some 2 ∉ striped.map owner ∧
    Layered (paint striped 3 15 2) 0 20 ∧
    ∀ time, ownerAt? (paint striped 3 15 2) time =
      if 3 ≤ time ∧ time < 15 then some 2 else ownerAt? striped time := by
  have hw : (3 : Float) < 15 := by decide
  have hs : (0 : Float) ≤ 3 := by decide
  have he : (15 : Float) ≤ 20 := by decide
  have hfresh : some 2 ∉ striped.map owner := by decide
  obtain ⟨hlayered, -, howner⟩ := paint_repaints striped_layered hw hs he hfresh
  exact ⟨striped_layered, hfresh, hlayered, howner⟩

end Layer

end Doubles

end GameRoster.Timeline
