import GameRoster.Proofs.Painting
import GameRoster.Timeline.Fragment
import Mathlib.Order.MinMax

namespace GameRoster.Timeline.Fragment

variable {α : Type}

/-- A fragment as the layer that it is made of. -/
def toLayer (fragment : Fragment α) : Layer α :=
  ⟨fragment.start, fragment.stop, some fragment.index⟩

theorem mapM_ofLayer {layers : List (Layer α)} {fragments : List (Fragment α)}
    (h : layers.mapM ofLayer? = some fragments) : layers = fragments.map toLayer := by
  induction layers generalizing fragments with
  | nil =>
    simp only [List.mapM_nil, Option.pure_def, Option.some.injEq] at h
    subst h
    rfl
  | cons layer rest ih =>
    obtain ⟨start, stop, owner⟩ := layer
    cases owner with
    | none => simp [ofLayer?, List.mapM_cons] at h
    | some i =>
      simp only [List.mapM_cons, ofLayer?, Option.map_some, Option.pure_def, Option.bind_eq_bind,
        Option.bind_some, Option.bind_eq_some_iff, Option.some.injEq] at h
      obtain ⟨others, ho, rfl⟩ := h
      rw [List.map_cons, ← ih ho]
      rfl

section Extremes

variable [LT α] [LE α] [DecidableLT α] [DecidableLE α]

theorem lesser_eq (a b : α) : lesser a b = a ∨ lesser a b = b := by
  unfold lesser
  split
  · exact .inl rfl
  · split
    · exact .inr rfl
    · exact .inl rfl

theorem greater_eq (a b : α) : greater a b = a ∨ greater a b = b := by
  unfold greater
  split
  · exact .inl rfl
  · split
    · exact .inr rfl
    · exact .inl rfl

theorem least_mem (first : α) (rest : List α) : least first rest ∈ first :: rest := by
  refine List.foldlRecOn (first :: rest) _ List.mem_cons_self fun a ha b hb => ?_
  rcases lesser_eq a b with h | h
  · rwa [h]
  · rwa [h]

theorem greatest_mem (first : α) (rest : List α) : greatest first rest ∈ first :: rest := by
  refine List.foldlRecOn (first :: rest) _ List.mem_cons_self fun a ha b hb => ?_
  rcases greater_eq a b with h | h
  · rwa [h]
  · rwa [h]

variable [Infinities α] {first : α}

/-- Numbers are not beyond an infinity, so the first of them takes its place. -/
theorem least_eq (hnumber : first ≤ first)
    (hbelow : ∀ top ∈ (Infinities.positive : Option α), ¬ top < first) (rest : List α) :
    least first rest = rest.foldl lesser first := by
  unfold least
  rw [List.foldl_cons]
  congr 1
  cases htop : (Infinities.positive : Option α) with
  | none => simp [lesser]
  | some top => simp [lesser, hbelow top htop, hnumber]

theorem greatest_eq (hnumber : first ≤ first)
    (habove : ∀ bottom ∈ (Infinities.negative : Option α), ¬ first < bottom) (rest : List α) :
    greatest first rest = rest.foldl greater first := by
  unfold greatest
  rw [List.foldl_cons]
  congr 1
  cases hbottom : (Infinities.negative : Option α) with
  | none => simp [greater]
  | some bottom => simp [greater, habove bottom hbottom, hnumber]

end Extremes

theorem paintRanges_flat [LT α] [LE α] [DecidableLT α] [DecidableLE α] {ranges : List (α × α)}
    (h : ∀ range ∈ ranges, range.1 ≤ range.2 ∧ range.2 ≤ range.1) (i : Nat)
    (layers : List (Layer α)) : Layer.paintRanges i ranges layers = layers := by
  induction ranges generalizing i with
  | nil => rfl
  | cons range rest ih =>
    obtain ⟨hr, hrest⟩ := List.forall_mem_cons.mp h
    simp only [Layer.paintRanges, hr, and_self, if_true]
    exact ih hrest (i + 1)

section Layers

variable [LT α] [LE α] [DecidableLT α] [DecidableLE α] [Infinities α] [OfNat α 0]
  {limits : FragmentLimits α} {loc : Location} {ranges : List (α × α)}
  {fragments : List (Fragment α)}

/-- The fragments are the layers that are left once a blank timeline is painted. -/
theorem partition_layers (h : partition limits loc ranges = .ok fragments) :
    ∃ start stop, Layer.paintRanges 0 ranges [⟨start, stop, none⟩] = fragments.map toLayer := by
  unfold partition at h
  split at h
  · cases h
  · dsimp only at h
    split at h
    · cases h
    · split at h
      · cases h
      · split at h
        · cases h
        · split at h
          · rename_i hfound
            obtain rfl := Except.ok.inj h
            exact ⟨_, _, mapM_ofLayer hfound⟩
          · cases h

/-- Fragments begin and end where ranges of some width do. -/
theorem partition_ends {P : α → Prop}
    (hr : ∀ range ∈ ranges, ¬ (range.1 ≤ range.2 ∧ range.2 ≤ range.1) → P range.1 ∧ P range.2)
    (h : partition limits loc ranges = .ok fragments) :
    ∀ fragment ∈ fragments, P fragment.start ∧ P fragment.stop := by
  obtain ⟨start, stop, hlayers⟩ := partition_layers h
  have hblank : Layer.Ends P (⟨start, stop, none⟩ : Layer α) := fun howner => by cases howner
  have hends := Layer.paintRanges_ends hr 0 (List.forall_mem_singleton.mpr hblank)
  rw [hlayers] at hends
  exact fun fragment hm => hends _ (List.mem_map_of_mem hm) rfl

end Layers

variable [LinearOrder α]

theorem isSame_iff {a b : α} : isSame a b = true ↔ a = b := by
  simp only [isSame, Bool.and_eq_true, decide_eq_true_eq]
  exact ⟨fun ⟨hab, hba⟩ => le_antisymm hab hba, fun h => ⟨h.le, h.ge⟩⟩

theorem contains_iff {fragment : Fragment α} {time : α} :
    fragment.contains time = true ↔ fragment.start ≤ time ∧ time < fragment.stop := by
  simp [contains]

theorem lesser_le_left (a b : α) : lesser a b ≤ a := by
  unfold lesser
  split
  · exact le_rfl
  · rename_i h
    simpa using h

theorem lesser_le_right (a b : α) : lesser a b ≤ b := by
  unfold lesser
  split
  · rename_i h
    exact h.le
  · simp

theorem le_greater_left (a b : α) : a ≤ greater a b := by
  unfold greater
  split
  · exact le_rfl
  · rename_i h
    simpa using h

theorem le_greater_right (a b : α) : b ≤ greater a b := by
  unfold greater
  split
  · rename_i h
    exact h.le
  · simp

theorem le_greatest {first : α} {rest : List α} {a : α} (h : a ∈ first :: rest) :
    a ≤ greatest first rest := by
  rw [greatest_eq le_rfl (by rintro _ ⟨⟩)]
  induction rest generalizing first a with
  | nil => exact (List.mem_singleton.mp h).le
  | cons next rest ih =>
    have hgreater : greater first next ≤ rest.foldl greater (greater first next) :=
      ih List.mem_cons_self
    rw [List.foldl_cons]
    rcases List.mem_cons.mp h with rfl | hm
    · exact le_trans (le_greater_left _ _) hgreater
    · rcases List.mem_cons.mp hm with rfl | hm
      · exact le_trans (le_greater_right _ _) hgreater
      · exact ih (List.mem_cons_of_mem _ hm)

theorem least_le {first : α} {rest : List α} {a : α} (h : a ∈ first :: rest) :
    least first rest ≤ a := by
  rw [least_eq le_rfl (by rintro _ ⟨⟩)]
  induction rest generalizing first a with
  | nil => exact (List.mem_singleton.mp h).ge
  | cons next rest ih =>
    have hlesser : rest.foldl lesser (lesser first next) ≤ lesser first next :=
      ih List.mem_cons_self
    rw [List.foldl_cons]
    rcases List.mem_cons.mp h with rfl | hm
    · exact le_trans hlesser (lesser_le_left _ _)
    · rcases List.mem_cons.mp hm with rfl | hm
      · exact le_trans hlesser (lesser_le_right _ _)
      · exact ih (List.mem_cons_of_mem _ hm)

/-- Fragments of some width that follow one another without a gap, from zero to `stop`, each
instant in exactly one of them, which is that of the last range that covers it. -/
structure Partitions [OfNat α 0] (fragments : List (Fragment α)) (ranges : List (α × α))
    (stop : α) : Prop where
  begins : ∃ fragment, fragments.head? = some fragment ∧ fragment.start = 0
  ends : ∃ fragment, fragments.getLast? = some fragment ∧ fragment.stop = stop
  width : ∀ fragment ∈ fragments, fragment.start < fragment.stop
  touch : ∀ i fragment next, fragments[i]? = some fragment → fragments[i + 1]? = some next →
    fragment.stop = next.start
  inside : ∀ time, 0 ≤ time → time < stop → ∃ fragment,
    fragments.filter (·.contains time) = [fragment] ∧ Topmost ranges time fragment.index
  outside : ∀ time, time < 0 ∨ stop ≤ time → fragments.filter (·.contains time) = []

section Tiled

variable {fragments : List (Fragment α)} {b e : α}

theorem tiles_nil (h : Layer.Tiles b (([] : List (Fragment α)).map toLayer) e) : b = e := by
  cases h
  rfl

theorem tiles_cons {fragment : Fragment α}
    (h : Layer.Tiles b ((fragment :: fragments).map toLayer) e) :
    fragment.start = b ∧ b < fragment.stop ∧
      Layer.Tiles fragment.stop (fragments.map toLayer) e := by
  cases h with
  | cons hb hw h => exact ⟨hb, hw, h⟩

theorem tiles_mem (h : Layer.Tiles b (fragments.map toLayer) e) {fragment : Fragment α}
    (hm : fragment ∈ fragments) :
    b ≤ fragment.start ∧ fragment.start < fragment.stop ∧ fragment.stop ≤ e :=
  h.mem (List.mem_map_of_mem (f := toLayer) hm)

theorem tiles_head (h : Layer.Tiles b (fragments.map toLayer) e) (hbe : b < e) :
    ∃ fragment, fragments.head? = some fragment ∧ fragment.start = b := by
  obtain ⟨layer, hhead, hb⟩ := h.head hbe
  rw [List.head?_map] at hhead
  obtain ⟨fragment, hf, rfl⟩ := Option.map_eq_some_iff.mp hhead
  exact ⟨fragment, hf, hb⟩

theorem tiles_last (h : Layer.Tiles b (fragments.map toLayer) e) (hbe : b < e) :
    ∃ fragment, fragments.getLast? = some fragment ∧ fragment.stop = e := by
  obtain ⟨layer, hlast, he⟩ := h.last hbe
  rw [List.getLast?_map] at hlast
  obtain ⟨fragment, hf, rfl⟩ := Option.map_eq_some_iff.mp hlast
  exact ⟨fragment, hf, he⟩

theorem tiles_touch (h : Layer.Tiles b (fragments.map toLayer) e) {i : Nat}
    {fragment next : Fragment α} (hf : fragments[i]? = some fragment)
    (hn : fragments[i + 1]? = some next) : fragment.stop = next.start := by
  have htouch := h.touch
  rw [List.isChain_map, List.isChain_iff_getElem] at htouch
  obtain ⟨_, rfl⟩ := List.getElem?_eq_some_iff.mp hf
  obtain ⟨hlt, rfl⟩ := List.getElem?_eq_some_iff.mp hn
  exact htouch i hlt

theorem filter_toLayer (fragments : List (Fragment α)) (time : α) :
    (fragments.map toLayer).filter (·.contains time) =
      (fragments.filter (·.contains time)).map toLayer :=
  List.filter_map

theorem filter_outside (h : Layer.Tiles b (fragments.map toLayer) e) {time : α}
    (ht : time < b ∨ e ≤ time) : fragments.filter (·.contains time) = [] := by
  have hnone := h.filter_outside ht
  rwa [filter_toLayer, List.map_eq_nil_iff] at hnone

theorem filter_inside (h : Layer.Tiles b (fragments.map toLayer) e) {time : α} (hb : b ≤ time)
    (he : time < e) : ∃ fragment, fragments.filter (·.contains time) = [fragment] := by
  obtain ⟨layer, hone⟩ := h.filter_inside hb he
  rw [filter_toLayer, List.map_eq_singleton_iff] at hone
  obtain ⟨fragment, hf, _⟩ := hone
  exact ⟨fragment, hf⟩

end Tiled

theorem isBadRange_eq_false [OfNat α 0] {limit : α} {range : α × α} :
    isBadRange limit range = false ↔ 0 ≤ range.1 ∧ range.1 ≤ range.2 ∧ range.2 ≤ limit := by
  simp [isBadRange, and_assoc]

/-- What a partition that succeeds has checked, and what it then painted. -/
theorem partition_ok [OfNat α 0] {limits : FragmentLimits α} {loc : Location}
    {ranges : List (α × α)} {fragments : List (Fragment α)}
    (h : partition limits loc ranges = .ok fragments) :
    ∃ stop, (∃ range ∈ ranges, range.2 = stop) ∧
      (∀ range ∈ ranges, 0 ≤ range.1 ∧ range.1 ≤ range.2 ∧ range.2 ≤ stop) ∧
      endsWell limits stop = true ∧
      Layer.paintRanges 0 ranges [⟨0, stop, none⟩] = fragments.map toLayer := by
  cases ranges with
  | nil => simp [partition] at h
  | cons first rest =>
    have hmax : greatest first.2 (rest.map Prod.snd) ∈ (first :: rest).map Prod.snd :=
      greatest_mem _ _
    obtain ⟨range, hr, hstop⟩ := List.mem_map.mp hmax
    unfold partition at h
    cases hbad : (first :: rest).findIdx? (isBadRange limits.limit) with
    | some i => simp [hbad] at h
    | none =>
      simp only [hbad] at h
      have hgood := List.findIdx?_eq_none_iff.mp hbad
      by_cases hzero : isSame (least first.1 (rest.map Prod.fst)) 0 = true
      · by_cases hend : endsWell limits (greatest first.2 (rest.map Prod.snd)) = true
        · simp only [hzero, hend, Bool.not_true, Bool.false_eq_true, if_false] at h
          refine ⟨_, ⟨range, hr, hstop⟩, ?_, hend, ?_⟩
          · intro range hm
            obtain ⟨h₀, hle, _⟩ := isBadRange_eq_false.mp (hgood range hm)
            exact ⟨h₀, hle, le_greatest (List.mem_map_of_mem (f := Prod.snd) hm)⟩
          · rw [isSame_iff.mp hzero] at h
            split at h
            · rename_i found hfound
              obtain rfl := Except.ok.inj h
              exact mapM_ofLayer hfound
            · cases h
        · simp [hzero, hend] at h
      · simp [hzero] at h

/-- A timeline that is partitioned takes some time: ranges without width paint nothing, and what
nobody painted is no fragment. -/
theorem stop_pos [OfNat α 0] {ranges : List (α × α)} {fragments : List (Fragment α)} {stop : α}
    (hr : ∀ range ∈ ranges, 0 ≤ range.1 ∧ range.1 ≤ range.2 ∧ range.2 ≤ stop)
    (hp : Layer.paintRanges 0 ranges [⟨0, stop, none⟩] = fragments.map toLayer) : 0 < stop := by
  by_contra hneg
  have hflat : ∀ range ∈ ranges, range.1 ≤ range.2 ∧ range.2 ≤ range.1 := by
    intro range hm
    obtain ⟨h₀, hle, hs⟩ := hr range hm
    exact ⟨hle, le_trans hs (le_trans (not_lt.mp hneg) h₀)⟩
  rw [paintRanges_flat hflat] at hp
  cases fragments with
  | nil => cases hp
  | cons fragment others => simp [toLayer] at hp

/-- A partition that succeeds shows, at each instant up to the greatest end of a range, the last
range that covers it. -/
theorem partition_shows_last_cover [OfNat α 0] {limits : FragmentLimits α} {loc : Location}
    {ranges : List (α × α)} {fragments : List (Fragment α)}
    (h : partition limits loc ranges = .ok fragments) :
    ∃ stop, (∃ range ∈ ranges, range.2 = stop) ∧ (∀ range ∈ ranges, range.2 ≤ stop) ∧
      Partitions fragments ranges stop := by
  obtain ⟨stop, hmax, hr, _, hp⟩ := partition_ok h
  have hpos := stop_pos hr hp
  have hblank : Layer.Painted [] 0 stop [⟨0, stop, none⟩] :=
    ⟨.cons rfl hpos (.nil stop), by simp [Layer.Owned, Shows]⟩
  have hpainted : Layer.Painted ranges 0 stop (fragments.map toLayer) :=
    hp ▸ hblank.paintRanges hr
  have htiles := hpainted.tiles
  refine ⟨stop, hmax, fun range hm => (hr range hm).2.2, ?_⟩
  constructor
  case begins => exact tiles_head htiles hpos
  case ends => exact tiles_last htiles hpos
  case width => exact fun fragment hm => (tiles_mem htiles hm).2.1
  case touch => exact fun i fragment next hf hn => tiles_touch htiles hf hn
  case outside => exact fun time ht => filter_outside htiles ht
  case inside =>
    intro time h₀ hlt
    obtain ⟨fragment, hf⟩ := filter_inside htiles h₀ hlt
    obtain ⟨hm, hc⟩ := List.mem_filter.mp (hf ▸ List.mem_singleton_self fragment :
      fragment ∈ fragments.filter (·.contains time))
    obtain ⟨h₁, h₂⟩ := contains_iff.mp hc
    exact ⟨fragment, hf, hpainted.owned _ (List.mem_map_of_mem hm) time h₁ h₂⟩

/-- A short range in the middle of a long one, and one without width that paints nothing. -/
def nested : List (Int × Int) := [(0, 3), (1, 2), (2, 2)]

/-- The limits of a timeline that lasts three units. -/
def three : FragmentLimits Int := { duration := 3 }

theorem nested_shows_last_cover : ∃ fragments,
    partition three (.ofResource "Action.A" "attributes") nested = .ok fragments ∧
    ∃ stop, (∃ range ∈ nested, range.2 = stop) ∧ (∀ range ∈ nested, range.2 ≤ stop) ∧
      Partitions fragments nested stop := by
  have h : partition three (.ofResource "Action.A" "attributes") nested =
      .ok [⟨0, 1, 0⟩, ⟨1, 2, 1⟩, ⟨2, 3, 0⟩] := rfl
  exact ⟨_, h, partition_shows_last_cover h⟩

end GameRoster.Timeline.Fragment
