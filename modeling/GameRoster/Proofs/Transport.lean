import GameRoster.Proofs.Partition

namespace GameRoster.Timeline

/-- Images compare as the times they are images of. -/
structure Embeds {α β : Type} [LT α] [LE α] [LT β] [LE β] (f : α → β) : Prop where
  lt : ∀ a b, f a < f b ↔ a < b
  le : ∀ a b, f a ≤ f b ↔ a ≤ b

/-- Images are numbers, and none of them is beyond an infinity. -/
structure Bounded {α β : Type} [LT β] [LE β] [Infinities β] (f : α → β) : Prop where
  number : ∀ a, f a ≤ f a
  below : ∀ top ∈ (Infinities.positive : Option β), ∀ a, ¬ top < f a
  above : ∀ bottom ∈ (Infinities.negative : Option β), ∀ a, ¬ f a < bottom

/-- Nothing is infinite in an order that is not said to have infinities. -/
theorem Bounded.of_order {α β : Type} [LinearOrder β] (f : α → β) : Bounded f :=
  ⟨fun a => le_refl (f a), by rintro _ ⟨⟩, by rintro _ ⟨⟩⟩

section Map

variable {α β : Type} (f : α → β)

def Layer.map (layer : Layer α) : Layer β := ⟨f layer.start, f layer.stop, layer.owner⟩

def Fragment.map (fragment : Fragment α) : Fragment β :=
  ⟨f fragment.start, f fragment.stop, fragment.index⟩

def FragmentLimits.map (limits : FragmentLimits α) : FragmentLimits β :=
  ⟨f limits.duration, limits.overDuration.map f, limits.quiet⟩

theorem FragmentLimits.limit_map (limits : FragmentLimits α) :
    (limits.map f).limit = f limits.limit :=
  Option.getD_map f limits.duration limits.overDuration

theorem Fragment.mapM_ofLayer_map (layers : List (Layer α)) :
    (layers.map (Layer.map f)).mapM ofLayer? = (layers.mapM ofLayer?).map (List.map (map f)) := by
  induction layers with
  | nil => rfl
  | cons layer rest ih =>
    obtain ⟨start, stop, owner⟩ := layer
    cases owner with
    | none => rfl
    | some i =>
      rw [List.map_cons, List.mapM_cons, List.mapM_cons, ih]
      cases rest.mapM ofLayer? <;> rfl

end Map

variable {α β : Type} [LT α] [LE α] [LT β] [LE β] {f : α → β} (hf : Embeds f)

include hf

section Weak

variable [DecidableLE α] [DecidableLE β]

theorem Fragment.isSame_map (a b : α) : isSame (f a) (f b) = isSame a b := by
  simp only [isSame, hf.le]

theorem Fragment.endsWell_map (limits : FragmentLimits α) (stop : α) :
    endsWell (limits.map f) (f stop) = endsWell limits stop := by
  obtain ⟨duration, overDuration, quiet⟩ := limits
  cases overDuration with
  | none => exact isSame_map hf stop duration
  | some latest => simp only [endsWell, FragmentLimits.map, Option.map_some, hf.le]

end Weak

section Strict

variable [DecidableLT α] [DecidableLT β]

theorem Layer.before_map (layer : Layer α) (start : α) :
    (layer.map f).before (f start) = (layer.before start).map (map f) := by
  simp only [before, map, hf.lt]
  split <;> rfl

theorem Layer.after_map (layer : Layer α) (stop : α) :
    (layer.map f).after (f stop) = (layer.after stop).map (map f) := by
  simp only [after, map, hf.lt]
  split <;> rfl

namespace Fragment

theorem isBadRange_map [OfNat α 0] [OfNat β 0] (hzero : f 0 = 0) (limit : α) (range : α × α) :
    isBadRange (f limit) (Prod.map f f range) = isBadRange limit range := by
  simp only [isBadRange, Prod.map_fst, Prod.map_snd, ← hzero, hf.lt]

end Fragment

end Strict

variable [DecidableLT α] [DecidableLE α] [DecidableLT β] [DecidableLE β]

namespace Layer

theorem paintFrom_map (top : Layer α) (pending layers : List (Layer α)) :
    paintFrom (top.map f) (pending.map (map f)) (layers.map (map f)) =
      (paintFrom top pending layers).map (map f) := by
  induction layers generalizing pending with
  | nil => rfl
  | cons layer rest ih =>
    have hbehind := ih []
    have hbefore := before_map hf layer top.start
    have hafter := after_map hf layer top.stop
    simp only [List.map_cons, List.map_nil, paintFrom, map, hf.le] at *
    split
    · rw [List.map_cons, ih pending]
      rfl
    · split
      · rw [hbehind, List.map_append]
        rfl
      · rw [hbehind, hbefore, hafter]
        simp only [List.map_append]

theorem paintRanges_map (i : Nat) (ranges : List (α × α)) (layers : List (Layer α)) :
    paintRanges i (ranges.map (Prod.map f f)) (layers.map (map f)) =
      (paintRanges i ranges layers).map (map f) := by
  induction ranges generalizing i layers with
  | nil => rfl
  | cons range rest ih =>
    obtain ⟨start, stop⟩ := range
    have hpaint := paintFrom_map hf ⟨start, stop, some i⟩ [⟨start, stop, some i⟩] layers
    simp only [List.map_cons, Prod.map_apply, paintRanges, hf.le]
    split
    · exact ih (i + 1) layers
    · rw [← ih]
      exact congrArg (paintRanges (i + 1) (rest.map (Prod.map f f))) hpaint

end Layer

namespace Fragment

theorem lesser_map (a b : α) : lesser (f a) (f b) = f (lesser a b) := by
  simp only [lesser, hf.lt, hf.le]
  split
  · rfl
  · split <;> rfl

theorem greater_map (a b : α) : greater (f a) (f b) = f (greater a b) := by
  simp only [greater, hf.lt, hf.le]
  split
  · rfl
  · split <;> rfl

theorem contains_map (fragment : Fragment α) (time : α) :
    (fragment.map f).contains (f time) = fragment.contains time := by
  simp only [contains, map, hf.lt, hf.le]

/-- The fragment found among images is the image of the one found. -/
theorem at_map (fragments : List (Fragment α)) (time : α) :
    at? (fragments.map (map f)) (f time) = (at? fragments time).map (map f) := by
  have hc : (fun fragment : Fragment β => fragment.contains (f time)) ∘ map f =
      fun fragment => fragment.contains time := funext fun fragment => contains_map hf fragment time
  rw [at?, List.find?_map, hc]
  rfl

variable [Infinities β] (hb : Bounded f)

include hb

theorem least_map (first : α) (rest : List α) :
    least (f first) (rest.map f) = f (least first rest) := by
  have hnumber : first ≤ first := (hf.le _ _).mp (hb.number first)
  rw [least_eq (hb.number first) (fun top htop => hb.below top htop first),
    least_eq hnumber (by rintro _ ⟨⟩), List.foldl_map]
  exact List.foldl_hom f fun a b => lesser_map hf a b

theorem greatest_map (first : α) (rest : List α) :
    greatest (f first) (rest.map f) = f (greatest first rest) := by
  have hnumber : first ≤ first := (hf.le _ _).mp (hb.number first)
  rw [greatest_eq (hb.number first) (fun bottom hbottom => hb.above bottom hbottom first),
    greatest_eq hnumber (by rintro _ ⟨⟩), List.foldl_map]
  exact List.foldl_hom f fun a b => greater_map hf a b

/-- Partitioning images gives the images of a partition, and fails where it fails. -/
theorem partition_map [OfNat α 0] [OfNat β 0] (hzero : f 0 = 0) (limits : FragmentLimits α)
    (loc : Location) (ranges : List (α × α)) :
    partition (limits.map f) loc (ranges.map (Prod.map f f)) =
      (partition limits loc ranges).map (List.map (map f)) := by
  cases ranges with
  | nil => rfl
  | cons first rest =>
    have hbad : ((first :: rest).map (Prod.map f f)).findIdx? (isBadRange (limits.map f).limit) =
        (first :: rest).findIdx? (isBadRange limits.limit) := by
      have hcomp : isBadRange (limits.map f).limit ∘ Prod.map f f = isBadRange limits.limit :=
        funext fun range => by
          rw [FragmentLimits.limit_map]
          exact isBadRange_map hf hzero limits.limit range
      rw [List.findIdx?_map, hcomp]
    rw [List.map_cons] at hbad
    have hstart : least (Prod.map f f first).1 ((rest.map (Prod.map f f)).map Prod.fst) =
        f (least first.1 (rest.map Prod.fst)) := by
      rw [← least_map hf hb, List.map_map, List.map_map]
      rfl
    have hstop : greatest (Prod.map f f first).2 ((rest.map (Prod.map f f)).map Prod.snd) =
        f (greatest first.2 (rest.map Prod.snd)) := by
      rw [← greatest_map hf hb, List.map_map, List.map_map]
      rfl
    unfold partition
    simp only [List.map_cons, hbad, hstart, hstop]
    generalize least first.1 (rest.map Prod.fst) = start
    generalize greatest first.2 (rest.map Prod.snd) = stop
    have hpaint := Layer.paintRanges_map hf 0 (first :: rest) [⟨start, stop, none⟩]
    have hlayers := mapM_ofLayer_map f (Layer.paintRanges 0 (first :: rest) [⟨start, stop, none⟩])
    rw [← hpaint] at hlayers
    simp only [List.map_cons, List.map_nil, Layer.map] at hlayers
    rw [← hzero, isSame_map hf, endsWell_map hf, hlayers]
    cases (first :: rest).findIdx? (isBadRange limits.limit) with
    | some i => rfl
    | none =>
      dsimp only
      split
      · rfl
      · split
        · rfl
        · cases (Layer.paintRanges 0 (first :: rest) [⟨start, stop, none⟩]).mapM ofLayer? <;> rfl

theorem partition_image [OfNat α 0] [OfNat β 0] (hzero : f 0 = 0) {limits : FragmentLimits α}
    {loc : Location} {ranges : List (α × α)} {fragments : List (Fragment α)}
    (h : partition limits loc ranges = .ok fragments) :
    partition (limits.map f) loc (ranges.map (Prod.map f f)) = .ok (fragments.map (map f)) := by
  rw [partition_map hf hb hzero, h]
  rfl

end Fragment

end GameRoster.Timeline
