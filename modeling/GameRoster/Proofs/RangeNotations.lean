import GameRoster.Proofs.WrittenTimes

namespace GameRoster

/-- The same outcome, and warnings at the same places, whatever these quote. -/
structure Checked.Alike {α : Type} (x y : Checked α) : Prop where
  result : x.result = y.result
  places : x.warnings.map Warning.loc = y.warnings.map Warning.loc

namespace Checked.Alike

variable {α β : Type} {x y : Checked α} {f g : α → Checked β}

theorem refl (x : Checked α) : Alike x x := ⟨rfl, rfl⟩

theorem bind (h : Alike x y) (hf : ∀ a, Alike (f a) (g a)) : Alike (x >>= f) (y >>= g) := by
  cases hx : x.result with
  | error fault =>
    rw [bind_of_error hx, bind_of_error (h.result.symm.trans hx)]
    exact ⟨rfl, h.places⟩
  | ok a =>
    rw [bind_of_ok hx, bind_of_ok (h.result.symm.trans hx)]
    refine ⟨(hf a).result, ?_⟩
    simp only [List.map_append, h.places, (hf a).places]

end Checked.Alike

/-- A check that has passed hands its value on. -/
theorem Checked.ok_bind {α β : Type} (a : α) (f : α → Checked β) :
    (liftM (.ok a : Check α) : Checked α) >>= f = f a :=
  bind_of_ok rfl f

/-- What a value is written as goes into warnings only. -/
theorem Time.check_alike (limits : TimeLimits) (raw other : Value) (loc : Location) (x : Float) :
    Checked.Alike (check limits raw loc x) (check limits other loc x) := by
  unfold check
  refine .bind (.refl _) fun _ => ?_
  split
  · exact .bind ⟨rfl, rfl⟩ fun _ => .refl _
  · exact .refl _

namespace Amount

/-- The unit that a range may leave out is said. -/
def explicit (a : Amount) : Amount :=
  { a with word := if a.word = .bare then .s else a.word }

variable (a b : Amount)

theorem explicit_isTime : a.explicit.IsTime a.explicit.text := by
  refine ⟨?_, rfl⟩
  unfold explicit
  split <;> simp_all

theorem explicit_seconds : a.explicit.seconds = a.seconds := by
  obtain ⟨numeral, word, wellFormed⟩ := a
  cases word <;> rfl

end Amount

namespace Field

variable (limits : TimeLimits) (loc : Location) (a b : Amount)

/-- One text for a range holds the values of its two parts. -/
theorem timePair_text (text : String) (h : Amount.AreRange a b text.toList) :
    timePair limits loc (.string text) = do
      let first ← Time.check limits (.string text) (loc.index 0) a.seconds
      let second ← Time.check limits (.string text) (loc.index 1) b.seconds
      return (first, second) := by
  have hread := Time.rangeOfText?_eq_some.mpr ⟨a, b, h, rfl⟩
  simp only [timePair, hread]

/-- In a list of two, each text is read at its own place. -/
theorem timePair_list (first second : Value) :
    timePair limits loc (.array [first, second]) = do
      let first ← time limits (loc.index 0) first
      let second ← time limits (loc.index 1) second
      return (first, second) := by
  have hlist : list (.exactly 2) loc (.array [first, second]) = .ok [first, second] := rfl
  unfold timePair times
  simp only [hlist, checkOrder, Location.each, Location.eachFrom, Checked.ok_bind, bind_assoc,
    pure_bind]

theorem time_text (text : String) (h : a.IsTime text.toList) :
    time limits loc (.string text) = Time.check limits (.string text) loc a.seconds := by
  have hread := Time.ofText?_eq_some.mpr ⟨a, h, rfl⟩
  simp only [time, Time.source, hread, Checked.ok_bind]

/-- Both notations check the two times in turn, each at its own place, before they compare them. -/
theorem timePair_alike (text : String) (h : Amount.AreRange a b text.toList) :
    Checked.Alike (timePair limits loc (.string text))
      (timePair limits loc (.array [.string (String.ofList a.explicit.text),
        .string (String.ofList b.explicit.text)])) := by
  have hfirst := a.explicit_isTime
  have hsecond := b.explicit_isTime
  rw [← String.toList_ofList (l := a.explicit.text)] at hfirst
  rw [← String.toList_ofList (l := b.explicit.text)] at hsecond
  rw [timePair_text limits loc a b text h, timePair_list, time_text _ _ _ _ hfirst,
    time_text _ _ _ _ hsecond, a.explicit_seconds, b.explicit_seconds]
  refine .bind (Time.check_alike _ _ _ _ _) fun first => ?_
  exact .bind (Time.check_alike _ _ _ _ _) fun second => .refl _

/-- A range in one text is read as the list of its two times in which each unit is said: the same
pair is found, or the same fault at the same place, and as many warnings are given at the same
places. -/
theorem ranges_alike :
    Checked.Alike
      (timeRange limits loc (.string (String.ofList (a.text ++ '-' :: b.text))))
      (timeRange limits loc (.array [.string (String.ofList a.explicit.text),
        .string (String.ofList b.explicit.text)])) := by
  have hrange : Amount.AreRange a b (String.ofList (a.text ++ '-' :: b.text)).toList :=
    String.toList_ofList
  exact .bind (timePair_alike limits loc a b _ hrange) fun _ => .refl _

end Field

end GameRoster
