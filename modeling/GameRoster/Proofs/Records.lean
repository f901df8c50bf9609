import GameRoster.Export
import GameRoster.Proofs.Growth
import GameRoster.Proofs.Printing

namespace GameRoster

namespace Span

/-- The place behind the last byte. -/
def stop (span : Span) : Nat := span.offset + span.length

def Covers (span : Span) (pos : Nat) : Prop := span.offset ≤ pos ∧ pos < span.stop

end Span

namespace Export

/-- Where the last of some spans stops, or `offset` if there are none. -/
def stopOf : Nat → List Span → Nat
  | offset, [] => offset
  | _, span :: rest => stopOf span.stop rest

/-- Bytes that hold records where spans say, with punctuation around them and nothing else. -/
structure Laid (data : ByteArray) (spans : List Span) (records : List String) : Prop where
  count : spans.length = records.length
  record : ∀ (i : Nat) (span : Span) (text : String), spans[i]? = some span →
    records[i]? = some text →
    span.length = text.toUTF8.size ∧ data.extract span.offset span.stop = text.toUTF8
  first : ∀ span ∈ spans.head?, span.offset = 3
  next : ∀ i a b, spans[i]? = some a → spans[i + 1]? = some b → b.offset = a.stop + 3
  disjoint : spans.Pairwise fun a b => a.stop ≤ b.offset
  opening : data.extract 0 3 = "[\r\n".toUTF8
  between : ∀ i a b, spans[i]? = some a → spans[i + 1]? = some b →
    data.extract a.stop b.offset = ",\r\n".toUTF8
  closing : data.size = stopOf 3 spans + 3 ∧
    data.extract (stopOf 3 spans) data.size = "\r\n]".toUTF8
  outside : ∀ pos < data.size, (∀ span ∈ spans, ¬ span.Covers pos) →
    pos < 3 ∨
      (∃ i a b, spans[i]? = some a ∧ spans[i + 1]? = some b ∧ a.stop ≤ pos ∧ pos < b.offset) ∨
      stopOf 3 spans ≤ pos

theorem extract_middle {data before text after : String} (h : data = before ++ text ++ after)
    {start stop : Nat} (hs : start = before.utf8ByteSize) (ht : stop = start + text.utf8ByteSize) :
    data.toUTF8.extract start stop = text.toUTF8 := by
  subst h
  subst hs
  subst ht
  simp only [String.toUTF8_eq_toByteArray, String.toByteArray_append, ← String.size_toByteArray]
  rw [ByteArray.append_assoc]
  have hm := ByteArray.extract_append_size_add (a := before.toByteArray)
    (b := text.toByteArray ++ after.toByteArray) (i := 0) (j := text.toByteArray.size)
  rw [Nat.add_zero] at hm
  rw [hm]
  exact ByteArray.extract_append_eq_left rfl

/-- A record among others: its span, and what follows it. -/
theorem intercalate_split (pre post : String) {records : List String} {i : Nat} {text : String}
    (h : records[i]? = some text) :
    ∃ before after, pre ++ separator.intercalate records ++ post = before ++ text ++ after ∧
      (spansFrom pre.utf8ByteSize records)[i]? =
        some ⟨before.utf8ByteSize, text.utf8ByteSize⟩ ∧
      (i + 1 = records.length ∧ after = post ∨
        i + 1 < records.length ∧ ∃ rest, after = separator ++ rest) := by
  induction records generalizing pre i with
  | nil => simp at h
  | cons first others ih =>
    cases i with
    | zero =>
      simp only [List.getElem?_cons_zero, Option.some.injEq] at h
      subst text
      cases others with
      | nil => exact ⟨pre, post, by simp, by simp [spansFrom], .inl ⟨rfl, rfl⟩⟩
      | cons second others =>
        refine ⟨pre, separator ++ (separator.intercalate (second :: others) ++ post), ?_,
          by simp [spansFrom], .inr ⟨by simp, _, rfl⟩⟩
        simp [String.intercalate_cons_cons, String.append_assoc]
    | succ i =>
      rw [List.getElem?_cons_succ] at h
      have hne : others ≠ [] := by
        rintro rfl
        simp at h
      obtain ⟨before, after, htext, hspan, hafter⟩ := ih (pre ++ first ++ separator) h
      refine ⟨before, after, ?_, ?_, ?_⟩
      · rw [← htext, String.intercalate_cons_of_ne_nil hne]
        simp [String.append_assoc]
      · simpa [spansFrom, String.utf8ByteSize_append] using hspan
      · simpa using hafter

theorem length_spansFrom (offset : Nat) (records : List String) :
    (spansFrom offset records).length = records.length := by
  induction records generalizing offset with
  | nil => rfl
  | cons first others ih => simp [spansFrom, ih]

theorem offset_le_spansFrom {offset : Nat} {records : List String} {span : Span}
    (h : span ∈ spansFrom offset records) : offset ≤ span.offset := by
  induction records generalizing offset with
  | nil => simp [spansFrom] at h
  | cons first others ih =>
    rcases List.mem_cons.mp h with rfl | hm
    · exact Nat.le_refl _
    · have := ih hm
      omega

theorem spansFrom_disjoint (offset : Nat) (records : List String) :
    (spansFrom offset records).Pairwise fun a b => a.stop ≤ b.offset := by
  induction records generalizing offset with
  | nil => exact .nil
  | cons first others ih =>
    refine .cons ?_ (ih _)
    intro span hm
    have := offset_le_spansFrom hm
    simp only [Span.stop]
    omega

theorem spansFrom_next {offset : Nat} {records : List String} {i : Nat} {a b : Span}
    (ha : (spansFrom offset records)[i]? = some a)
    (hb : (spansFrom offset records)[i + 1]? = some b) :
    b.offset = a.stop + separator.utf8ByteSize := by
  induction records generalizing offset i with
  | nil => simp [spansFrom] at ha
  | cons first others ih =>
    cases i with
    | zero =>
      cases others with
      | nil => simp [spansFrom] at hb
      | cons second others =>
        simp only [spansFrom, List.getElem?_cons_zero, List.getElem?_cons_succ,
          Option.some.injEq] at ha hb
        subst a
        subst b
        rfl
    | succ i => exact ih ha hb

/-- From `offset` on, a place that no span covers lies between two of them or behind the last. -/
theorem spansFrom_outside {offset : Nat} {records : List String} {pos : Nat} (hp : offset ≤ pos)
    (h : ∀ span ∈ spansFrom offset records, ¬ span.Covers pos) :
    (∃ i a b, (spansFrom offset records)[i]? = some a ∧
      (spansFrom offset records)[i + 1]? = some b ∧ a.stop ≤ pos ∧ pos < b.offset) ∨
      stopOf offset (spansFrom offset records) ≤ pos := by
  induction records generalizing offset with
  | nil => exact .inr hp
  | cons first others ih =>
    have hout : ¬ (⟨offset, first.utf8ByteSize⟩ : Span).Covers pos := h _ List.mem_cons_self
    have hstop : offset + first.utf8ByteSize ≤ pos := by
      exact Nat.not_lt.mp fun hlt => hout ⟨hp, hlt⟩
    cases others with
    | nil => exact .inr hstop
    | cons second others =>
      by_cases hgap : pos < offset + first.utf8ByteSize + separator.utf8ByteSize
      · exact .inl ⟨0, _, _, rfl, rfl, hstop, hgap⟩
      · rcases ih (Nat.not_lt.mp hgap) fun span hm => h span (List.mem_cons_of_mem _ hm) with
          ⟨i, a, b, ha, hb, hab⟩ | hlast
        · exact .inl ⟨i + 1, a, b, ha, hb, hab⟩
        · exact .inr hlast

theorem stopOf_spansFrom (offset : Nat) (records : List String) :
    stopOf offset (spansFrom offset records) =
      offset + (separator.intercalate records).utf8ByteSize := by
  induction records generalizing offset with
  | nil => simp [spansFrom, stopOf]
  | cons first others ih =>
    cases others with
    | nil => simp [spansFrom, stopOf, Span.stop]
    | cons second others =>
      have hs := ih (offset + first.utf8ByteSize + separator.utf8ByteSize)
      simp only [spansFrom, stopOf] at hs ⊢
      rw [hs, String.intercalate_cons_cons]
      simp only [String.utf8ByteSize_append]
      omega

theorem length_spans (records : List String) : (spans records).length = records.length :=
  length_spansFrom _ _

theorem stopOf_spans (records : List String) :
    stopOf 3 (spans records) = (head ++ separator.intercalate records).utf8ByteSize := by
  rw [String.utf8ByteSize_append]
  exact stopOf_spansFrom 3 records

/-- Data and spans that are made from one list of records fit together. -/
theorem data_laid (records : List String) :
    Laid (data records).toUTF8 (spans records) records := by
  have hsize : (data records).toUTF8.size = stopOf 3 (spans records) + 3 := by
    rw [stopOf_spans]
    simp only [data, String.toUTF8_eq_toByteArray, String.size_toByteArray,
      String.utf8ByteSize_append]
    rfl
  constructor
  case count => exact length_spans records
  case record =>
    intro i span text hspan htext
    obtain ⟨before, after, hd, hs, _⟩ := intercalate_split head tail htext
    obtain rfl := Option.some.inj (hspan.symm.trans hs)
    exact ⟨by simp, extract_middle hd rfl rfl⟩
  case first =>
    intro span hspan
    cases records with
    | nil => simp [spans, spansFrom] at hspan
    | cons first others =>
      obtain rfl := Option.some.inj hspan
      rfl
  case next => exact fun i a b ha hb => spansFrom_next ha hb
  case disjoint => exact spansFrom_disjoint _ _
  case opening =>
    have hd : data records = "" ++ head ++ (separator.intercalate records ++ tail) := by
      simp [data, String.append_assoc]
    exact extract_middle hd rfl rfl
  case between =>
    intro i a b ha hb
    have hnext : i + 1 < records.length := by
      rw [← length_spans]
      exact (List.getElem?_eq_some_iff.mp hb).1
    obtain ⟨before, after, hd, hs, hafter⟩ :=
      intercalate_split head tail (List.getElem?_eq_getElem (Nat.lt_of_succ_lt hnext))
    obtain rfl := Option.some.inj (ha.symm.trans hs)
    rcases hafter with ⟨hlast, _⟩ | ⟨_, rest, rfl⟩
    · omega
    · rw [← String.append_assoc] at hd
      exact extract_middle hd String.utf8ByteSize_append.symm (spansFrom_next ha hb)
  case closing =>
    have hd : data records = head ++ separator.intercalate records ++ tail ++ "" := by
      simp [data]
    exact ⟨hsize, extract_middle hd (stopOf_spans records) hsize⟩
  case outside =>
    intro pos hpos h
    by_cases hp : pos < 3
    · exact .inl hp
    · exact .inr (spansFrom_outside (Nat.not_lt.mp hp) h)

/-- Places are counted in bytes: the first record has one more of them than characters. -/
example : spans ["\"é\"", "1"] = [⟨3, 4⟩, ⟨10, 1⟩] := by decide +kernel

/-- An index and data for values under their ids. The data hold the compact text of each value in
turn, and the index says of each id where that text stands. -/
structure Locates (rows : List (String × Value)) (spans : List Span) (records : List String)
    (index data : String) : Prop where
  printed : List.Forall₂ (fun row (text : String) => row.2.Prints text.toList) rows records
  data : Laid data.toUTF8 spans records
  index : (Value.object ((rows.map Prod.fst).zip
    (spans.map fun span => .array [.nat span.offset, .nat span.length]))).Prints index.toList

end Export

namespace Registry

/-- The spans of the records of all resources. -/
def spans (reg : Registry) : List Span := Export.spans (reg.resources.map Resource.record)

theorem render_ok {reg : Registry} {extra : List String} {artifacts : Artifacts} :
    reg.render extra = .ok artifacts ↔ reg.verify = .ok () ∧ reg.artifacts extra = artifacts := by
  unfold render
  rw [Check.then_ok, Check.pure_ok]

theorem artifacts_locate (reg : Registry) (extra : List String) :
    Export.Locates (reg.resources.map fun r => (r.id, r.toValue)) reg.spans
      (reg.resources.map Resource.record) (reg.artifacts extra).index
      (reg.artifacts extra).data := by
  constructor
  case printed =>
    refine List.forall₂_map_left_iff.mpr (List.forall₂_map_right_iff.mpr ?_)
    exact List.forall₂_same.mpr fun r _ => Value.render_prints r.toValue
  case data => exact Export.data_laid _
  case index =>
    rw [List.map_map]
    exact Value.render_prints _

/-- The index has one entry for each resource in the order of registration, and the span in the
entry is where the data holds the compact text of that resource. In a registry that declarations led
to, no two entries share an id. -/
theorem render_index_locates_records {reg : Registry} {extra : List String}
    {artifacts : Artifacts} (h : reg.render extra = .ok artifacts) :
    (∃ spans records, Export.Locates (reg.resources.map fun r => (r.id, r.toValue)) spans records
      artifacts.index artifacts.data) ∧
    (reg.Reachable → (reg.resources.map Resource.id).Nodup) := by
  obtain ⟨_, rfl⟩ := render_ok.mp h
  exact ⟨⟨_, _, reg.artifacts_locate extra⟩, fun hr => hr.sound.ids⟩

theorem archer_index_locates_records :
    archer.Reachable ∧ archer.render ["Extra"] = .ok (archer.artifacts ["Extra"]) ∧
    (∃ spans records, Export.Locates (archer.resources.map fun r => (r.id, r.toValue)) spans records
      (archer.artifacts ["Extra"]).index (archer.artifacts ["Extra"]).data) ∧
    (archer.resources.map Resource.id).Nodup := by
  have hrender : archer.render ["Extra"] = .ok (archer.artifacts ["Extra"]) :=
    render_ok.mpr ⟨archer_verify, rfl⟩
  obtain ⟨hlocates, hids⟩ := render_index_locates_records hrender
  exact ⟨archer_reachable, hrender, hlocates, hids archer_reachable⟩

end Registry

end GameRoster
