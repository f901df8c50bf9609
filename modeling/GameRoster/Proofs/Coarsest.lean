import GameRoster.Proofs.Acceptance

namespace GameRoster.Timeline

namespace Layer

section Owners

variable {α : Type} [LinearOrder α] {top : Layer α} {layers : List (Layer α)} {b e : α}

/-- Layers past the top are left alone. -/
theorem paintFrom_past (h : Tiles b layers e) (hs : top.start ≤ b) (hpast : top.stop ≤ b) :
    paintFrom top [] layers = layers := by
  induction h with
  | nil b => rfl
  | @cons b e layer rest hb hw h ih =>
    have hreach : ¬ layer.stop ≤ top.start := not_le.mpr (lt_of_le_of_lt hs hw)
    have hbehind : top.stop ≤ layer.start := hb ▸ hpast
    simp only [paintFrom, hreach, hbehind, if_false, if_true, List.nil_append]
    rw [ih (le_trans hs hw.le) (le_trans hpast hw.le)]

/-- What is left of a layer and those behind it has a last part of their owners. -/
theorem after_owners {layer : Layer α} {rest : List (Layer α)} (h : Tiles layer.stop rest e)
    (hs : top.start ≤ layer.stop)
    (hrest : (paintFrom top [] rest).map owner <:+ rest.map owner) :
    (layer.after top.stop ++ paintFrom top [] rest).map owner <:+ (layer :: rest).map owner := by
  by_cases hleft : top.stop < layer.stop
  · rw [paintFrom_past h hs hleft.le]
    simp [after, hleft]
  · simp only [after, hleft, if_false, List.nil_append]
    exact hrest.trans (List.suffix_cons _ _)

theorem paintFrom_behind_owners (h : Tiles b layers e) (hs : top.start ≤ b) :
    (paintFrom top [] layers).map owner <:+ layers.map owner := by
  induction h with
  | nil b => exact List.suffix_rfl
  | @cons b e layer rest hb hw h ih =>
    have hnext := le_trans hs hw.le
    have hreach : ¬ layer.stop ≤ top.start := not_le.mpr (lt_of_le_of_lt hs hw)
    by_cases hpast : top.stop ≤ layer.start
    · rw [paintFrom_past (.cons hb hw h) hs (hb ▸ hpast)]
    · have hnone : layer.before top.start = [] := by simp [before, hb, hs]
      simp only [paintFrom, hreach, hpast, if_false, hnone, List.nil_append]
      exact after_owners h hnext (ih hnext)

/-- Painting leaves a first part and a last part of the owners, and the owner of the top between
the two. -/
theorem paintFrom_owners (top : Layer α) (h : Tiles b layers e) :
    ∃ left right, (paintFrom top [top] layers).map owner = left ++ top.owner :: right ∧
      left <+: layers.map owner ∧ right <:+ layers.map owner := by
  induction h with
  | nil b => exact ⟨[], [], rfl, List.prefix_rfl, List.suffix_rfl⟩
  | @cons b e layer rest hb hw h ih =>
    by_cases hreach : layer.stop ≤ top.start
    · obtain ⟨left, right, heq, hleft, hright⟩ := ih
      refine ⟨layer.owner :: left, right, ?_, ?_, hright.trans (List.suffix_cons _ _)⟩
      · simp [paintFrom, hreach, heq]
      · exact List.cons_prefix_cons.mpr ⟨rfl, hleft⟩
    · have hnext : top.start ≤ layer.stop := (not_le.mp hreach).le
      by_cases hpast : top.stop ≤ layer.start
      · have hbehind := hpast.trans (hb ▸ hw.le)
        refine ⟨[], (layer :: rest).map owner, ?_, List.nil_prefix, List.suffix_rfl⟩
        simp [paintFrom, hreach, hpast, paintFrom_past h hnext hbehind]
      · refine ⟨(layer.before top.start).map owner,
          (layer.after top.stop ++ paintFrom top [] rest).map owner, ?_, ?_, ?_⟩
        · simp [paintFrom, hreach, hpast]
        · unfold before
          split
          · exact List.cons_prefix_cons.mpr ⟨rfl, List.nil_prefix⟩
          · exact List.nil_prefix
        · exact after_owners h hnext (paintFrom_behind_owners h hnext)

/-- Nobody owns a layer after painting who is neither an owner before nor that of the top. -/
theorem paintFrom_owner (h : Tiles b layers e) {o : Option Nat}
    (ho : o ∈ (paintFrom top [top] layers).map owner) : o = top.owner ∨ o ∈ layers.map owner := by
  obtain ⟨left, right, heq, hleft, hright⟩ := paintFrom_owners top h
  rw [heq] at ho
  rcases List.mem_append.mp ho with hm | hm
  · exact .inr (hleft.subset hm)
  · rcases List.mem_cons.mp hm with rfl | hm
    · exact .inl rfl
    · exact .inr (hright.subset hm)

/-- Neighbours do not belong to the same owner. -/
def Varied (layers : List (Layer α)) : Prop := (layers.map owner).IsChain (· ≠ ·)

theorem paintFrom_varied (h : Tiles b layers e) (hv : Varied layers)
    (hfresh : top.owner ∉ layers.map owner) : Varied (paintFrom top [top] layers) := by
  obtain ⟨left, right, heq, hleft, hright⟩ := paintFrom_owners top h
  have hother : ∀ o ∈ layers.map owner, o ≠ top.owner := fun o ho heq => hfresh (heq ▸ ho)
  have hbefore := List.IsChain.prefix hv hleft
  have hbehind := List.IsChain.suffix hv hright
  unfold Varied
  rw [heq, List.isChain_append]
  refine ⟨hbefore, List.isChain_cons.mpr ⟨?_, hbehind⟩, ?_⟩
  · intro o ho
    exact (hother o (hright.subset (List.mem_of_mem_head? ho))).symm
  · intro o ho last hlast
    obtain rfl := Option.some.inj hlast
    exact hother o (hleft.subset (List.mem_of_mem_getLast? ho))

/-- Ranges are painted for their positions, so none is painted for an owner that is there. -/
theorem paintRanges_varied {ranges : List (α × α)}
    (hr : ∀ range ∈ ranges, b ≤ range.1 ∧ range.1 ≤ range.2 ∧ range.2 ≤ e) (i : Nat)
    (h : Tiles b layers e) (hv : Varied layers)
    (hearlier : ∀ j, some j ∈ layers.map owner → j < i) : Varied (paintRanges i ranges layers) := by
  induction ranges generalizing i layers with
  | nil => exact hv
  | cons range rest ih =>
    obtain ⟨start, stop⟩ := range
    obtain ⟨⟨hs, hle, he⟩, hrest⟩ := List.forall_mem_cons.mp hr
    unfold paintRanges
    split
    · exact ih hrest (i + 1) h hv fun j hj => Nat.lt_succ_of_lt (hearlier j hj)
    · rename_i hwide
      have hw : start < stop := lt_of_le_of_ne hle fun heq => hwide ⟨hle, heq.ge⟩
      have hfresh : some i ∉ layers.map owner := fun hm => Nat.lt_irrefl i (hearlier i hm)
      apply ih hrest (i + 1) (paintFrom_tiles h hw hs he) (paintFrom_varied h hv hfresh)
      intro j hj
      rcases paintFrom_owner h hj with heq | hm
      · obtain rfl := Option.some.inj heq
        exact Nat.lt_succ_self j
      · exact Nat.lt_succ_of_lt (hearlier j hm)

end Owners

end Layer

namespace Fragment

section Linear

variable {α : Type} [LinearOrder α] {fragments : List (Fragment α)} {b e : α}

/-- Where fragments begin and end, each time once, in order. -/
def cuts (first : α) (fragments : List (Fragment α)) : List α := first :: fragments.map stop

theorem tiles_cuts (h : Layer.Tiles b (fragments.map toLayer) e) :
    (cuts b fragments).Pairwise (· < ·) := by
  induction fragments generalizing b with
  | nil => exact List.pairwise_singleton _ b
  | cons fragment rest ih =>
    obtain ⟨_, hw, hrest⟩ := tiles_cons h
    refine List.pairwise_cons.mpr ⟨?_, ih hrest⟩
    intro time hm
    rcases List.mem_cons.mp hm with rfl | hm
    · exact hw
    · obtain ⟨other, ho, rfl⟩ := List.mem_map.mp hm
      obtain ⟨hs, hlt, _⟩ := tiles_mem hrest ho
      exact hw.trans (lt_of_le_of_lt hs hlt)

/-- There are fewer fragments than times where they may begin and end. -/
theorem tiles_length (h : Layer.Tiles b (fragments.map toLayer) e) (hbe : b < e) {times : List α}
    (hmem : ∀ fragment ∈ fragments, fragment.start ∈ times ∧ fragment.stop ∈ times) :
    fragments.length < times.length := by
  have hsubset : cuts b fragments ⊆ times := by
    apply List.cons_subset.mpr
    constructor
    · obtain ⟨first, hhead, rfl⟩ := tiles_head h hbe
      exact (hmem first (List.mem_of_mem_head? hhead)).1
    · intro time htime
      obtain ⟨fragment, hm, rfl⟩ := List.mem_map.mp htime
      exact (hmem fragment hm).2
  have hlength := (tiles_cuts h).nodup.length_le_of_subset hsubset
  rwa [cuts, List.length_cons, List.length_map] at hlength

end Linear

/-- A range of some width. -/
def isWide {α : Type} [LT α] [DecidableLT α] (range : α × α) : Bool := decide (range.1 < range.2)

/-- The times where a range of some width begins or ends. -/
def edges {α : Type} [LT α] [DecidableLT α] (ranges : List (α × α)) : List α :=
  (ranges.filter isWide).flatMap fun range => [range.1, range.2]

theorem edges_length {α : Type} [LT α] [DecidableLT α] (ranges : List (α × α)) :
    (edges ranges).length = 2 * (ranges.filter isWide).length := by
  simp [edges, List.length_flatMap, Nat.mul_comm]

/-- The range that a fragment takes up. -/
def span {α : Type} (fragment : Fragment α) : α × α := (fragment.start, fragment.stop)

/-- Fragments that belong to their own positions. -/
def renumbered {α : Type} (fragments : List (Fragment α)) : List (Fragment α) :=
  fragments.mapIdx fun i fragment => ⟨fragment.start, fragment.stop, i⟩

theorem renumbered_toLayer {α : Type} (fragments : List (Fragment α)) :
    (renumbered fragments).map toLayer =
      fragments.mapIdx fun i fragment => ⟨fragment.start, fragment.stop, some i⟩ := by
  apply List.ext_getElem?
  intro i
  simp [renumbered, toLayer, Function.comp_def]

theorem renumbered_map {α β : Type} (f : α → β) (fragments : List (Fragment α)) :
    renumbered (fragments.map (map f)) = (renumbered fragments).map (map f) := by
  apply List.ext_getElem?
  intro i
  simp [renumbered, map, Function.comp_def]

section Linear

variable {α : Type} [LinearOrder α] [OfNat α 0] {limits : FragmentLimits α} {loc : Location}
  {ranges : List (α × α)} {fragments : List (Fragment α)}

theorem partition_varied (h : partition limits loc ranges = .ok fragments) :
    fragments.IsChain fun a b => a.index ≠ b.index := by
  obtain ⟨stop, _, hr, _, hp⟩ := partition_ok h
  have htiles : Layer.Tiles 0 [⟨0, stop, none⟩] stop := (Layer.Painted.blank (stop_pos hr hp)).tiles
  have hvaried : Layer.Varied (Layer.paintRanges 0 ranges [⟨0, stop, none⟩]) := by
    apply Layer.paintRanges_varied hr 0 htiles (List.isChain_singleton none)
    intro j hj
    cases List.mem_singleton.mp hj
  rw [hp, Layer.Varied, List.map_map, List.isChain_map] at hvaried
  exact hvaried.imp fun a b hne heq => hne (congrArg some heq)

end Linear

/-- No end that is permitted is beyond the limit. -/
theorem le_limit {α : Type} [LinearOrder α] {limits : FragmentLimits α} {stop : α}
    (h : endsWell limits stop = true) : stop ≤ limits.limit := by
  obtain ⟨duration, overDuration, quiet⟩ := limits
  cases overDuration with
  | none => exact (isSame_iff.mp h).le
  | some latest =>
    simp only [endsWell, Bool.and_eq_true, decide_eq_true_eq] at h
    exact h.2

theorem mapM_toLayer {α : Type} (fragments : List (Fragment α)) :
    (fragments.map toLayer).mapM ofLayer? = some fragments := by
  induction fragments with
  | nil => rfl
  | cons fragment rest ih => simp [ih, toLayer, ofLayer?]

section Steps

variable {α : Type} [LT α] [LE α] [DecidableLT α] [DecidableLE α]

theorem partition_of_layers [OfNat α 0] {limits : FragmentLimits α} {loc : Location}
    {first : α × α} {rest : List (α × α)} {fragments : List (Fragment α)}
    (hfit : ∀ range ∈ first :: rest, isBadRange limits.limit range = false)
    (hzero : isSame (least first.1 (rest.map Prod.fst)) 0 = true)
    (hend : endsWell limits (greatest first.2 (rest.map Prod.snd)) = true)
    (hlayers : Layer.paintRanges 0 (first :: rest)
      [⟨least first.1 (rest.map Prod.fst), greatest first.2 (rest.map Prod.snd), none⟩] =
        fragments.map toLayer) :
    partition limits loc (first :: rest) = .ok fragments := by
  have hnone := List.findIdx?_eq_none_iff.mpr hfit
  unfold partition
  simp only [hnone, hzero, hend, hlayers, mapM_toLayer, Bool.not_true, Bool.false_eq_true, if_false]

/-- Layers before the top stay as they are. -/
theorem paintFrom_done {top : Layer α} {pending done layers : List (Layer α)}
    (h : ∀ layer ∈ done, layer.stop ≤ top.start) :
    Layer.paintFrom top pending (done ++ layers) = done ++ Layer.paintFrom top pending layers := by
  induction done with
  | nil => rfl
  | cons layer rest ih =>
    obtain ⟨hl, hr⟩ := List.forall_mem_cons.mp h
    simp only [List.cons_append, Layer.paintFrom, hl, if_true, ih hr]

/-- A top that begins where the last layer does is put in front of what it leaves of the layer. -/
theorem paintFrom_front {top : Layer α} {b e : α} (hreach : ¬ e ≤ top.start)
    (hpast : ¬ top.stop ≤ b) (hs : ¬ b < top.start) :
    Layer.paintFrom top [top] [⟨b, e, none⟩] = top :: Layer.after ⟨b, e, none⟩ top.stop := by
  simp [Layer.paintFrom, Layer.before, hreach, hpast, hs]

end Steps

section Again

variable {α β : Type} [LT α] [LE α] [DecidableLT α] [DecidableLE α] [LinearOrder β] {f : α → β}
  (hf : Embeds f)

include hf

/-- A range that begins where a blank layer does takes the front of the layer, and layers before it
stay as they are. -/
theorem paint_front {done : List (Layer α)} {b e start stop : α} (hstart : f start = f b)
    (hw : f b < f stop) (he : f stop ≤ f e) (hdone : ∀ layer ∈ done, layer.stop ≤ b) (i : Nat) :
    Layer.paint (done ++ [⟨b, e, none⟩]) start stop i =
      (done ++ [⟨start, stop, some i⟩]) ++ Layer.after ⟨stop, e, none⟩ stop := by
  have hkeep : ∀ layer ∈ done, layer.stop ≤ start := by
    intro layer hm
    rw [← hf.le, hstart, hf.le]
    exact hdone layer hm
  have hreach : ¬ e ≤ start := by
    rw [← hf.le, hstart]
    exact not_le.mpr (lt_of_lt_of_le hw he)
  have hpast : ¬ stop ≤ b := by
    rw [← hf.le]
    exact not_le.mpr hw
  have hfront : ¬ b < start := by
    rw [← hf.lt, hstart]
    exact lt_irrefl _
  rw [Layer.paint, paintFrom_done hkeep, paintFrom_front hreach hpast hfront, List.append_assoc]
  rfl

/-- Painting spans from left to right puts them next to each other. -/
theorem paintRanges_spans {fragments : List (Fragment α)} {done : List (Layer α)} {b e : α}
    (h : Layer.Tiles (f b) ((fragments.map (map f)).map toLayer) (f e))
    (hdone : ∀ layer ∈ done, layer.stop ≤ b) (i : Nat) :
    Layer.paintRanges i (fragments.map span) (done ++ Layer.after ⟨b, e, none⟩ b) =
      done ++ (fragments.mapIdx fun k x => ⟨x.start, x.stop, some (i + k)⟩) := by
  induction fragments generalizing done b i with
  | nil =>
    have hend : ¬ b < e := by
      rw [← hf.lt, not_lt]
      exact (tiles_nil h).ge
    simp [Layer.paintRanges, Layer.after, hend]
  | cons fragment rest ih =>
    obtain ⟨start, stop, index⟩ := fragment
    obtain ⟨hstart, hw, hrest⟩ : f start = f b ∧ f b < f stop ∧
      Layer.Tiles (f stop) ((rest.map (map f)).map toLayer) (f e) := tiles_cons h
    have hblank : Layer.after ⟨b, e, none⟩ b = [⟨b, e, none⟩] := by
      simp [Layer.after, (hf.lt b e).mp (lt_of_lt_of_le hw hrest.le)]
    have hwide : ¬ (start ≤ stop ∧ stop ≤ start) := by
      rw [← hf.le stop, hstart]
      exact fun hflat => not_le.mpr hw hflat.2
    have hnext : ∀ layer ∈ done ++ [⟨start, stop, some i⟩], layer.stop ≤ stop := by
      refine List.forall_mem_append.mpr ⟨fun layer hm => ?_, ?_⟩
      · rw [← hf.le]
        exact le_trans ((hf.le _ _).mpr (hdone layer hm)) hw.le
      · exact List.forall_mem_singleton.mpr ((hf.le stop stop).mp le_rfl)
    rw [List.map_cons, span, Layer.paintRanges, if_neg hwide, hblank,
      paint_front hf hstart hw hrest.le hdone, ih hrest hnext (i + 1)]
    simp [List.mapIdx_cons, Nat.add_assoc, Nat.add_comm 1]

section Ends

variable {fragments : List (Fragment α)} {b e : β}
  (h : Layer.Tiles b ((fragments.map (map f)).map toLayer) e) (hbe : b < e)

include h hbe

omit [DecidableLT α] [DecidableLE α] in
theorem startsAt_spans {start : α} (hs : StartsAt (fragments.map span) start) : f start = b := by
  obtain ⟨_, hm, rfl⟩ := hs.attained
  obtain ⟨fragment, hfragment, rfl⟩ := List.mem_map.mp hm
  have hlater := (tiles_mem h (List.mem_map_of_mem (f := map f) hfragment)).1
  obtain ⟨image, hhead, rfl⟩ := tiles_head h hbe
  obtain ⟨first, hfirst, rfl⟩ := List.mem_map.mp (List.mem_of_mem_head? hhead)
  exact le_antisymm ((hf.le _ _).mpr (hs.least _ (List.mem_map_of_mem hfirst))) hlater

omit [DecidableLT α] [DecidableLE α] in
theorem endsAt_spans {stop : α} (he : EndsAt (fragments.map span) stop) : f stop = e := by
  obtain ⟨_, hm, rfl⟩ := he.attained
  obtain ⟨fragment, hfragment, rfl⟩ := List.mem_map.mp hm
  have hearlier := (tiles_mem h (List.mem_map_of_mem (f := map f) hfragment)).2.2
  obtain ⟨image, hlast, rfl⟩ := tiles_last h hbe
  obtain ⟨last, hm, rfl⟩ := List.mem_map.mp (List.mem_of_mem_getLast? hlast)
  exact le_antisymm hearlier ((hf.le _ _).mpr (he.greatest _ (List.mem_map_of_mem hm)))

end Ends

variable [OfNat α 0] [OfNat β 0] (hzero : f 0 = 0) {limits : FragmentLimits α} {loc : Location}
  {ranges : List (α × α)} {fragments : List (Fragment α)}

include hzero

/-- Partitioning what was partitioned finds the same spans. -/
theorem partition_spans (h : partition limits loc ranges = .ok fragments) (loc' : Location) :
    partition limits loc' (fragments.map span) = .ok (renumbered fragments) := by
  have himage := partition_image hf (.of_order f) hzero h
  obtain ⟨stop, _, hpos, hend, hpainted⟩ := partition_painted himage
  have htiles := hpainted.tiles
  cases fragments with
  | nil => exact absurd hpos (by rw [tiles_nil htiles]; exact lt_irrefl _)
  | cons first rest =>
    have hstart := startsAt_spans hf htiles hpos (least_startsAt hf first.span (rest.map span))
    have hstop := endsAt_spans hf htiles hpos (greatest_endsAt hf first.span (rest.map span))
    apply partition_of_layers
    · rw [← List.map_cons]
      refine List.forall_mem_map.mpr fun fragment hm => ?_
      obtain ⟨hs, hw, he⟩ := tiles_mem htiles (List.mem_map_of_mem (f := map f) hm)
      rw [← isBadRange_map hf hzero, isBadRange_eq_false, ← FragmentLimits.limit_map f]
      exact ⟨hs, hw.le, le_trans he (le_limit hend)⟩
    · rw [← isSame_map hf, hstart, hzero]
      exact isSame_iff.mpr rfl
    · rw [← endsWell_map hf, hstop]
      exact hend
    · rw [← hstart, ← hstop] at htiles hpos
      have hpaint := paintRanges_spans hf htiles (List.forall_mem_nil _) 0
      simp only [Layer.after, (hf.lt _ _).mp hpos, if_true, List.nil_append, Nat.zero_add] at hpaint
      rw [renumbered_toLayer]
      exact hpaint

end Again

/-- A partition without a fragment too many. -/
structure Coarsest (ranges : List (Float × Float)) (fragments : List (Fragment Float)) : Prop where
  /-- Neighbours belong to different ranges. -/
  changes : ∀ i fragment next, fragments[i]? = some fragment → fragments[i + 1]? = some next →
    fragment.index ≠ next.index
  starts : ∀ fragment ∈ fragments, fragment.start ∈ edges ranges
  stops : ∀ fragment ∈ fragments, fragment.stop ∈ edges ranges
  count : fragments.length < 2 * (ranges.filter isWide).length

section Doubles

variable {limits : FragmentLimits Float} {loc : Location} {ranges : List (Float × Float)}
  {fragments : List (Fragment Float)}
  (hnumbers : ∀ range ∈ ranges, range.1.isNaN = false ∧ range.2.isNaN = false)
  (h : partition limits loc ranges = .ok fragments)

include hnumbers h

theorem partition_numbers : limits.Numbers := by
  have hverdict : Verdict limits ranges loc (partition limits loc ranges) :=
    partition_verdict hnumbers
  rw [h] at hverdict
  obtain ⟨stop, _, hpermits⟩ := hverdict.ends
  obtain ⟨duration, overDuration, quiet⟩ := limits
  cases overDuration with
  | none => exact ⟨(Numeric.isNaN_of_le hpermits.1).2, by simp⟩
  | some latest =>
    refine ⟨(Numeric.isNaN_of_le hpermits.1).1, fun other ho => ?_⟩
    obtain rfl := Option.some.inj ho
    exact (Numeric.isNaN_of_le hpermits.2).2

theorem partition_edges :
    ∀ fragment ∈ fragments, fragment.start ∈ edges ranges ∧ fragment.stop ∈ edges ranges := by
  have hverdict : Verdict limits ranges loc (partition limits loc ranges) :=
    partition_verdict hnumbers
  rw [h] at hverdict
  apply partition_ends (P := (· ∈ edges ranges)) ?_ h
  intro range hm hwide
  have hlt : range.1 < range.2 := by
    by_contra hge
    rw [Numeric.not_lt_iff_le (hnumbers range hm).1 (hnumbers range hm).2] at hge
    exact hwide ⟨(hverdict.fits range hm).ordered, hge⟩
  have hfilter : range ∈ ranges.filter isWide :=
    List.mem_filter.mpr ⟨hm, decide_eq_true hlt⟩
  exact ⟨List.mem_flatMap.mpr ⟨range, hfilter, by simp⟩,
    List.mem_flatMap.mpr ⟨range, hfilter, by simp⟩⟩

theorem partition_length : fragments.length < 2 * (ranges.filter isWide).length := by
  have hedges := partition_edges hnumbers h
  rw [← edges_length]
  generalize edges ranges = times at hedges ⊢
  obtain ⟨bounds, spans, instants, rfl, rfl, rfl, hp⟩ :=
    partition_instants (partition_numbers hnumbers h) hnumbers h
  have hranks := partition_image Instant.embeds_rank Instant.bounded_rank Instant.rank_zero hp
  obtain ⟨stop, _, hpos, _, hpainted⟩ := partition_painted hranks
  have hmem : ∀ image ∈ instants.map (map Instant.rank),
      image.start ∈ times.map Numeric.rank ∧ image.stop ∈ times.map Numeric.rank := by
    refine List.forall_mem_map.mpr fun x hx => ?_
    obtain ⟨hstart, hstop⟩ := hedges _ (List.mem_map_of_mem hx)
    exact ⟨List.mem_map_of_mem hstart, List.mem_map_of_mem hstop⟩
  have hlength := tiles_length hpainted.tiles hpos hmem
  rw [List.length_map, List.length_map] at hlength
  rwa [List.length_map]

theorem partition_changes {i : Nat} {fragment next : Fragment Float}
    (hf : fragments[i]? = some fragment) (hn : fragments[i + 1]? = some next) :
    fragment.index ≠ next.index := by
  obtain ⟨bounds, spans, instants, rfl, rfl, rfl, hp⟩ :=
    partition_instants (partition_numbers hnumbers h) hnumbers h
  have hranks := partition_image Instant.embeds_rank Instant.bounded_rank Instant.rank_zero hp
  have hchain := partition_varied hranks
  rw [List.isChain_map, List.isChain_iff_getElem] at hchain
  rw [List.getElem?_map, Option.map_eq_some_iff] at hf hn
  obtain ⟨x, hx, rfl⟩ := hf
  obtain ⟨y, hy, rfl⟩ := hn
  obtain ⟨_, rfl⟩ := List.getElem?_eq_some_iff.mp hx
  obtain ⟨hlt, rfl⟩ := List.getElem?_eq_some_iff.mp hy
  exact hchain i hlt

theorem partition_again (other : Location) :
    partition limits other (fragments.map span) = .ok (renumbered fragments) := by
  obtain ⟨bounds, spans, instants, rfl, rfl, rfl, hp⟩ :=
    partition_instants (partition_numbers hnumbers h) hnumbers h
  have hagain := partition_spans Instant.embeds_rank Instant.rank_zero hp other
  have htimes := partition_image Instant.embeds_time Instant.bounded_time rfl hagain
  rw [renumbered_map]
  rw [List.map_map] at htimes ⊢
  exact htimes

theorem partition_fewest : Coarsest ranges fragments := by
  constructor
  case changes => exact fun i fragment next hf hn => partition_changes hnumbers h hf hn
  case starts => exact fun fragment hm => (partition_edges hnumbers h fragment hm).1
  case stops => exact fun fragment hm => (partition_edges hnumbers h fragment hm).2
  case count => exact partition_length hnumbers h

omit hnumbers h

/-- Nothing but numbers is read as times, so what is read of any values is the coarsest partition of
the ranges that they say. -/
theorem readAll_coarsest {raws : List Value}
    (h : (readAll limits loc raws).result = .ok fragments) : ∃ ranges,
    loc.each (fun loc raw => (Field.timeRange (rangeLimits limits) loc raw).result) raws =
      .ok ranges ∧ Coarsest ranges fragments ∧
    ∀ other, partition limits other (fragments.map span) = .ok (renumbered fragments) := by
  obtain ⟨ranges, hranges, hnumbers, hfragments⟩ := readAll_ok h
  exact ⟨ranges, hranges, partition_fewest hnumbers hfragments, partition_again hnumbers hfragments⟩

end Doubles

end Fragment

end GameRoster.Timeline
