import GameRoster.Timeline.Layer
import Mathlib.Data.List.Chain
import Mathlib.Order.Defs.LinearOrder
import Mathlib.Order.Lattice

namespace GameRoster.Timeline

section Ends

variable {α : Type} [LT α] [LE α] [DecidableLT α] [DecidableLE α] {P : α → Prop}

/-- If anyone owns a layer, both its ends are as wanted. -/
def Layer.Ends (P : α → Prop) (layer : Layer α) : Prop :=
  layer.owner.isSome = true → P layer.start ∧ P layer.stop

/-- Painting only cuts layers where the top begins and ends. -/
theorem Layer.paintFrom_ends {top : Layer α} (htop : P top.start ∧ P top.stop)
    {pending layers : List (Layer α)} (hpending : ∀ layer ∈ pending, layer.Ends P)
    (h : ∀ layer ∈ layers, layer.Ends P) :
    ∀ layer ∈ paintFrom top pending layers, layer.Ends P := by
  induction layers generalizing pending with
  | nil => exact hpending
  | cons layer rest ih =>
    obtain ⟨hl, hr⟩ := List.forall_mem_cons.mp h
    have hrest := ih (List.forall_mem_nil _) hr
    unfold paintFrom
    split
    · exact List.forall_mem_cons.mpr ⟨hl, ih hpending hr⟩
    · split
      · exact List.forall_mem_append.mpr ⟨hpending, List.forall_mem_cons.mpr ⟨hl, hrest⟩⟩
      · simp only [List.forall_mem_append]
        refine ⟨⟨⟨?_, hpending⟩, ?_⟩, hrest⟩
        · unfold Layer.before
          split
          · exact List.forall_mem_singleton.mpr fun ho => ⟨(hl ho).1, htop.1⟩
          · exact List.forall_mem_nil _
        · unfold Layer.after
          split
          · exact List.forall_mem_singleton.mpr fun ho => ⟨htop.2, (hl ho).2⟩
          · exact List.forall_mem_nil _

/-- Owned layers begin and end where ranges of some width do. -/
theorem Layer.paintRanges_ends {ranges : List (α × α)}
    (hr : ∀ range ∈ ranges, ¬ (range.1 ≤ range.2 ∧ range.2 ≤ range.1) → P range.1 ∧ P range.2)
    (i : Nat) {layers : List (Layer α)} (h : ∀ layer ∈ layers, layer.Ends P) :
    ∀ layer ∈ paintRanges i ranges layers, layer.Ends P := by
  induction ranges generalizing i layers with
  | nil => exact h
  | cons range rest ih =>
    obtain ⟨start, stop⟩ := range
    obtain ⟨hrange, hrest⟩ := List.forall_mem_cons.mp hr
    unfold paintRanges
    split
    · exact ih hrest (i + 1) h
    · rename_i hwide
      have htop := hrange hwide
      refine ih hrest (i + 1) (paintFrom_ends htop ?_ h)
      exact List.forall_mem_singleton.mpr fun _ => htop

end Ends

variable {α : Type} [LinearOrder α]

/-- An instant lies in a range. -/
def Covers (range : α × α) (time : α) : Prop := range.1 ≤ time ∧ time < range.2

/-- The last range that covers an instant stands at a position. -/
def Topmost (ranges : List (α × α)) (time : α) (i : Nat) : Prop :=
  (∃ range, ranges[i]? = some range ∧ Covers range time) ∧
    ∀ j range, i < j → ranges[j]? = some range → ¬ Covers range time

/-- What an instant should show once some ranges are painted. -/
def Shows (ranges : List (α × α)) (time : α) : Option Nat → Prop
  | some i => Topmost ranges time i
  | none => ∀ range ∈ ranges, ¬ Covers range time

theorem Shows.covered {ranges : List (α × α)} {range : α × α} {time : α} (h : Covers range time) :
    Shows (ranges ++ [range]) time (some ranges.length) := by
  refine ⟨⟨range, by simp, h⟩, ?_⟩
  intro j other hj ho
  have hlt := (List.getElem?_eq_some_iff.mp ho).1
  simp only [List.length_append, List.length_singleton] at hlt
  omega

theorem Shows.uncovered {ranges : List (α × α)} {range : α × α} {time : α} {owner : Option Nat}
    (hc : ¬ Covers range time) (h : Shows ranges time owner) :
    Shows (ranges ++ [range]) time owner := by
  cases owner with
  | none =>
    intro other ho
    rcases List.mem_append.mp ho with hm | hm
    · exact h other hm
    · obtain rfl := List.mem_singleton.mp hm
      exact hc
  | some i =>
    obtain ⟨⟨found, hf, hcov⟩, hlast⟩ := h
    have hi := (List.getElem?_eq_some_iff.mp hf).1
    refine ⟨⟨found, by rw [List.getElem?_append_left hi]; exact hf, hcov⟩, ?_⟩
    intro j other hj ho
    by_cases hlt : j < ranges.length
    · rw [List.getElem?_append_left hlt] at ho
      exact hlast j other hj ho
    · rw [List.getElem?_append_right (Nat.not_lt.mp hlt)] at ho
      obtain rfl := List.mem_singleton.mp (List.mem_of_getElem? ho)
      exact hc

namespace Layer

theorem contains_iff {layer : Layer α} {time : α} :
    layer.contains time = true ↔ layer.start ≤ time ∧ time < layer.stop := by
  simp [contains]

/-- Layers of some width that follow one another without a gap. -/
inductive Tiles : α → List (Layer α) → α → Prop
  | nil (b : α) : Tiles b [] b
  | cons {b e : α} {layer : Layer α} {rest : List (Layer α)} (hb : layer.start = b)
      (hw : b < layer.stop) (h : Tiles layer.stop rest e) : Tiles b (layer :: rest) e

namespace Tiles

theorem le {b e : α} {layers : List (Layer α)} (h : Tiles b layers e) : b ≤ e := by
  induction h with
  | nil b => exact le_refl b
  | cons hb hw h ih => exact le_trans (le_of_lt hw) ih

theorem append {b m e : α} {xs ys : List (Layer α)} (hx : Tiles b xs m) (hy : Tiles m ys e) :
    Tiles b (xs ++ ys) e := by
  induction hx with
  | nil b => exact hy
  | cons hb hw h ih => exact .cons hb hw (ih hy)

theorem single {layer : Layer α} (hw : layer.start < layer.stop) :
    Tiles layer.start [layer] layer.stop :=
  .cons rfl hw (.nil _)

/-- Each layer has some width and stays between the two ends. -/
theorem mem {b e : α} {layers : List (Layer α)} (h : Tiles b layers e) {layer : Layer α}
    (hm : layer ∈ layers) : b ≤ layer.start ∧ layer.start < layer.stop ∧ layer.stop ≤ e := by
  induction h with
  | nil b => simp at hm
  | cons hb hw h ih =>
    rcases List.mem_cons.mp hm with rfl | hm
    · exact ⟨hb.ge, hb.trans_lt hw, h.le⟩
    · obtain ⟨hs, hl, he⟩ := ih hm
      exact ⟨le_trans hw.le hs, hl, he⟩

/-- No instant between the two ends falls between layers. -/
theorem exists_mem {b e : α} {layers : List (Layer α)} (h : Tiles b layers e) {time : α}
    (hb : b ≤ time) (he : time < e) : ∃ layer ∈ layers, layer.start ≤ time ∧ time < layer.stop := by
  induction h with
  | nil b => exact absurd (lt_of_le_of_lt hb he) (lt_irrefl _)
  | @cons b e layer rest hstart hw h ih =>
    by_cases hin : time < layer.stop
    · exact ⟨layer, List.mem_cons_self, hstart.trans_le hb, hin⟩
    · obtain ⟨found, hm, hcontains⟩ := ih (not_lt.mp hin) he
      exact ⟨found, List.mem_cons_of_mem _ hm, hcontains⟩

theorem head {b e : α} {layers : List (Layer α)} (h : Tiles b layers e) (hbe : b < e) :
    ∃ layer, layers.head? = some layer ∧ layer.start = b := by
  cases h with
  | nil b => exact absurd hbe (lt_irrefl _)
  | cons hb hw h => exact ⟨_, rfl, hb⟩

theorem last {b e : α} {layers : List (Layer α)} (h : Tiles b layers e) (hbe : b < e) :
    ∃ layer, layers.getLast? = some layer ∧ layer.stop = e := by
  induction h with
  | nil b => exact absurd hbe (lt_irrefl _)
  | @cons b e layer rest hb hw h ih =>
    cases h with
    | nil => exact ⟨layer, rfl, rfl⟩
    | @cons _ _ next others hstart hnext hrest =>
      obtain ⟨last, hlast, he⟩ := ih (lt_of_lt_of_le hnext hrest.le)
      exact ⟨last, by rw [List.getLast?_cons_cons]; exact hlast, he⟩

theorem touch {b e : α} {layers : List (Layer α)} (h : Tiles b layers e) :
    layers.IsChain fun before after => before.stop = after.start := by
  induction h with
  | nil b => exact .nil
  | cons hb hw h ih =>
    refine List.isChain_cons.mpr ⟨fun next hnext => ?_, ih⟩
    cases h with
    | nil => cases hnext
    | cons hstart _ _ =>
      obtain rfl := Option.some.inj hnext
      exact hstart.symm

theorem sorted {b e : α} {layers : List (Layer α)} (h : Tiles b layers e) :
    layers.Pairwise fun before after => before.stop ≤ after.start := by
  induction h with
  | nil b => exact .nil
  | cons hb hw h ih => exact List.pairwise_cons.mpr ⟨fun later hm => (h.mem hm).1, ih⟩

/-- No layer holds an instant before the first one or after the last one. -/
theorem filter_outside {b e : α} {layers : List (Layer α)} (h : Tiles b layers e) {time : α}
    (ht : time < b ∨ e ≤ time) : layers.filter (·.contains time) = [] := by
  rw [List.filter_eq_nil_iff]
  intro layer hm hc
  obtain ⟨hs, _, he⟩ := h.mem hm
  obtain ⟨h₁, h₂⟩ := contains_iff.mp hc
  rcases ht with hlt | hle
  · exact not_lt.mpr (le_trans hs h₁) hlt
  · exact not_lt.mpr (le_trans he hle) h₂

/-- Between the two ends, one layer holds an instant and no other one does. -/
theorem filter_inside {b e : α} {layers : List (Layer α)} (h : Tiles b layers e) {time : α}
    (hb : b ≤ time) (he : time < e) : ∃ layer, layers.filter (·.contains time) = [layer] := by
  induction h with
  | nil b => exact absurd (lt_of_le_of_lt hb he) (lt_irrefl _)
  | @cons b e layer rest hstart hw h ih =>
    by_cases hin : time < layer.stop
    · have hc : layer.contains time = true := contains_iff.mpr ⟨hstart ▸ hb, hin⟩
      refine ⟨layer, ?_⟩
      simp only [List.filter_cons, hc, if_true, h.filter_outside (.inl hin)]
    · have hc : ¬ layer.contains time = true := fun hc => hin (contains_iff.mp hc).2
      simp only [List.filter_cons, hc]
      exact ih (not_lt.mp hin) he

/-- The part of a layer before a span reaches up to the span. -/
theorem before {layer : Layer α} {start : α} (h : layer.start ≤ start) :
    Tiles layer.start (layer.before start) start := by
  unfold Layer.before
  split
  · rename_i hlt
    exact .cons rfl hlt (.nil start)
  · rename_i hge
    rw [le_antisymm h (not_lt.mp hge)]
    exact .nil start

theorem after {layer : Layer α} {stop : α} :
    Tiles stop (layer.after stop) (max layer.stop stop) := by
  unfold Layer.after
  split
  · rename_i hlt
    rw [max_eq_left (le_of_lt hlt)]
    exact .cons rfl hlt (.nil _)
  · rename_i hge
    rw [max_eq_right (not_lt.mp hge)]
    exact .nil stop

end Tiles

/-- Behind the brush, where the top is in place already, layers are only cut off. -/
theorem paintFrom_behind {top : Layer α} {layers : List (Layer α)} {b e : α}
    (h : Tiles b layers e) (hs : top.start ≤ b) (he : top.stop ≤ e) :
    Tiles (max b top.stop) (paintFrom top [] layers) e := by
  induction h with
  | nil b =>
    rw [max_eq_left he]
    exact .nil b
  | @cons b e layer rest hb hw h ih =>
    have hrest := ih (le_trans hs (le_of_lt hw)) he
    have hreach : ¬ layer.stop ≤ top.start := not_le.mpr (lt_of_le_of_lt hs hw)
    by_cases hpast : top.stop ≤ layer.start
    · simp only [paintFrom, hreach, hpast, if_false, if_true, List.nil_append]
      rw [max_eq_left (hb ▸ hpast)]
      rw [max_eq_left (le_trans hpast (le_of_lt (hb ▸ hw)))] at hrest
      exact .cons hb hw hrest
    · have hnone : layer.before top.start = [] := by
        simp [Layer.before, hb, hs]
      simp only [paintFrom, hreach, hpast, if_false, hnone, List.nil_append]
      rw [max_eq_right (le_of_lt (hb ▸ not_le.mp hpast))]
      exact Tiles.after.append hrest

/-- Painting inside of layers leaves no gap. -/
theorem paintFrom_tiles {top : Layer α} {layers : List (Layer α)} {b e : α}
    (h : Tiles b layers e) (hw : top.start < top.stop) (hs : b ≤ top.start) (he : top.stop ≤ e) :
    Tiles b (paintFrom top [top] layers) e := by
  induction h with
  | nil b => exact absurd (lt_of_lt_of_le hw he) (not_lt.mpr hs)
  | @cons b e layer rest hb hl h ih =>
    by_cases hreach : layer.stop ≤ top.start
    · simp only [paintFrom, hreach, if_true]
      exact .cons hb hl (ih hreach he)
    · have hpast : ¬ top.stop ≤ layer.start :=
        not_le.mpr (lt_of_le_of_lt (hb ▸ hs) hw)
      simp only [paintFrom, hreach, hpast, if_false]
      have hbefore : Tiles b (layer.before top.start) top.start := hb ▸ Tiles.before (hb ▸ hs)
      have hbehind := paintFrom_behind h (le_of_lt (not_le.mp hreach)) he
      exact ((hbefore.append (.single hw)).append .after).append hbehind

/-- Every instant of a layer has a right owner. -/
def Owned (right : α → Option Nat → Prop) (layer : Layer α) : Prop :=
  ∀ time, layer.start ≤ time → time < layer.stop → right time layer.owner

section Owners

variable {was right : α → Option Nat → Prop} {top : Layer α}
  (hkeep : ∀ time owner, ¬ (top.start ≤ time ∧ time < top.stop) → was time owner →
    right time owner)

include hkeep

/-- A part of a layer keeps its owner where the top does not reach. -/
theorem Owned.part {part layer : Layer α} (hl : layer.Owned was)
    (hsame : part.owner = layer.owner) (hstart : layer.start ≤ part.start)
    (hstop : part.stop ≤ layer.stop) (hout : part.stop ≤ top.start ∨ top.stop ≤ part.start) :
    part.Owned right := by
  intro time h₁ h₂
  have hfree : ¬ (top.start ≤ time ∧ time < top.stop) := by
    rintro ⟨hs, ht⟩
    rcases hout with hleft | hright
    · exact not_lt.mpr (le_trans hleft hs) h₂
    · exact not_lt.mpr (le_trans hright h₁) ht
  rw [hsame]
  exact hkeep time _ hfree (hl time (le_trans hstart h₁) (lt_of_lt_of_le h₂ hstop))

theorem paintFrom_owned (htop : top.Owned right) {pending layers : List (Layer α)}
    (hp : ∀ layer ∈ pending, layer = top) (h : ∀ layer ∈ layers, layer.Owned was) :
    ∀ layer ∈ paintFrom top pending layers, layer.Owned right := by
  have hpending : ∀ layer ∈ pending, layer.Owned right := fun layer hm => hp layer hm ▸ htop
  induction layers generalizing pending with
  | nil => exact hpending
  | cons layer rest ih =>
    obtain ⟨hl, hr⟩ := List.forall_mem_cons.mp h
    have hrest := ih (List.forall_mem_nil _) hr (List.forall_mem_nil _)
    unfold paintFrom
    split
    · rename_i hreach
      refine List.forall_mem_cons.mpr ⟨?_, ih hp hr hpending⟩
      exact hl.part hkeep rfl (le_refl _) (le_refl _) (.inl hreach)
    · rename_i hreach
      split
      · rename_i hpast
        refine List.forall_mem_append.mpr ⟨hpending, List.forall_mem_cons.mpr ⟨?_, hrest⟩⟩
        exact hl.part hkeep rfl (le_refl _) (le_refl _) (.inr hpast)
      · rename_i hpast
        simp only [List.forall_mem_append]
        refine ⟨⟨⟨?_, hpending⟩, ?_⟩, hrest⟩
        · unfold Layer.before
          split
          · refine List.forall_mem_singleton.mpr ?_
            exact hl.part hkeep rfl (le_refl _) (le_of_lt (not_le.mp hreach)) (.inl (le_refl _))
          · exact List.forall_mem_nil _
        · unfold Layer.after
          split
          · refine List.forall_mem_singleton.mpr ?_
            exact hl.part hkeep rfl (le_of_lt (not_le.mp hpast)) (le_refl _) (.inr (le_refl _))
          · exact List.forall_mem_nil _

end Owners

/-- Layers from `b` to `e` without a gap that show what the ranges painted so far should show. -/
structure Painted (ranges : List (α × α)) (b e : α) (layers : List (Layer α)) : Prop where
  tiles : Tiles b layers e
  owned : ∀ layer ∈ layers, layer.Owned (Shows ranges)

/-- Before anything is painted there is one layer, which no one owns. -/
theorem Painted.blank {b e : α} (h : b < e) : Painted [] b e [⟨b, e, none⟩] :=
  ⟨.cons rfl h (.nil e), by simp [Owned, Shows]⟩

theorem Painted.skip {done : List (α × α)} {range : α × α} {b e : α} {layers : List (Layer α)}
    (h : Painted done b e layers) (hw : range.2 ≤ range.1) :
    Painted (done ++ [range]) b e layers := by
  refine ⟨h.tiles, ?_⟩
  intro layer hm time h₁ h₂
  have hc : ¬ Covers range time := fun hc => not_lt.mpr (le_trans hw hc.1) hc.2
  exact .uncovered hc (h.owned layer hm time h₁ h₂)

theorem Painted.paint {done : List (α × α)} {range : α × α} {b e : α} {layers : List (Layer α)}
    (h : Painted done b e layers) (hw : range.1 < range.2) (hs : b ≤ range.1)
    (he : range.2 ≤ e) :
    Painted (done ++ [range]) b e (paint layers range.1 range.2 done.length) := by
  refine ⟨paintFrom_tiles h.tiles hw hs he, ?_⟩
  refine paintFrom_owned (fun time owner hc => .uncovered hc) ?_ ?_ h.owned
  · exact fun time h₁ h₂ => .covered ⟨h₁, h₂⟩
  · exact fun layer hm => List.mem_singleton.mp hm

theorem Painted.paintRanges {ranges done : List (α × α)} {b e : α} {layers : List (Layer α)}
    (h : Painted done b e layers)
    (hr : ∀ range ∈ ranges, b ≤ range.1 ∧ range.1 ≤ range.2 ∧ range.2 ≤ e) :
    Painted (done ++ ranges) b e (paintRanges done.length ranges layers) := by
  induction ranges generalizing done layers with
  | nil => simpa [Layer.paintRanges] using h
  | cons range rest ih =>
    obtain ⟨⟨hs, hle, he⟩, hrest⟩ := List.forall_mem_cons.mp hr
    have hlen : done.length + 1 = (done ++ [range]).length := by simp
    rw [List.append_cons]
    unfold Layer.paintRanges
    split
    · rename_i hflat
      rw [hlen]
      exact ih (h.skip hflat.2) hrest
    · rename_i hwide
      rw [hlen]
      have hw : range.1 < range.2 := lt_of_le_of_ne hle fun heq => hwide ⟨hle, heq.ge⟩
      exact ih (h.paint hw hs he) hrest

end Layer

end GameRoster.Timeline
