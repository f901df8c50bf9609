import GameRoster.CommandLine
import GameRoster.Proofs.Directories
import GameRoster.Proofs.Larger
import GameRoster.Proofs.Records

namespace GameRoster

namespace Roster

/-- Both tools find out the same about a roster, and an export goes on to render it. -/
theorem artifacts_result (extra : List String) (roster : Roster) :
    (roster.artifacts extra).result = roster.buildRegistry.result.map fun reg =>
      (reg.artifacts extra, .of reg extra (reg.artifacts extra)) := by
  unfold artifacts buildRegistry Registry.render
  simp only [Checked.result_bind]
  cases (roster.register .empty).checked.result with
  | error fault => rfl
  | ok reg =>
    change ((reg.verify >>= fun _ => pure (reg.artifacts extra)) >>= _) =
      Except.map _ (reg.verify >>= _)
    cases reg.verify with
    | error fault => rfl
    | ok done => rfl

theorem loadThen_artifacts (readers : Readers) (path : String) (contents : Option String)
    (extra : List String) :
    (loadThen readers path contents (artifacts extra)).result =
      (loadThen readers path contents buildRegistry).result.map fun reg =>
        (reg.artifacts extra, .of reg extra (reg.artifacts extra)) := by
  unfold loadThen
  cases load readers path contents with
  | error failure => rfl
  | ok roster =>
    change (roster.artifacts extra).result.mapError _ =
      Except.map _ (roster.buildRegistry.result.mapError _)
    rw [artifacts_result]
    cases roster.buildRegistry.result with
    | error fault => rfl
    | ok reg => rfl

end Roster

/-- What is exported of a registry: its symbols behind the extra ones, an index and the data of all
its resources, and how many there are of each. -/
structure Registry.Exports (reg : Registry) (extra : List String) (artifacts : Artifacts)
    (summary : ExportSummary) : Prop where
  rendered : reg.render extra = .ok artifacts
  symbols : (Value.array ((extra ++ reg.symbols).map .string)).Prints artifacts.symbols.toList
  located : ∃ spans records, Export.Locates (reg.resources.map fun r => (r.id, r.toValue)) spans
    records artifacts.index artifacts.data
  ids : (reg.resources.map Resource.id).Nodup
  counts : summary =
    ⟨reg.resources.length, (extra ++ reg.symbols).length, artifacts.data.toUTF8.size⟩

theorem Registry.Reachable.exports {reg : Registry} (h : reg.Reachable) (hv : reg.verify = .ok ())
    (extra : List String) :
    reg.Exports extra (reg.artifacts extra) (.of reg extra (reg.artifacts extra)) := by
  constructor
  case rendered => exact Registry.render_ok.mpr ⟨hv, rfl⟩
  case symbols => exact Value.render_prints _
  case located => exact ⟨_, _, reg.artifacts_locate extra⟩
  case ids => exact h.sound.ids
  case counts =>
    rw [List.length_append, String.toUTF8_eq_toByteArray, String.size_toByteArray]
    rfl

/-- The exit code of a tool: zero for an answer and one for a failure. -/
structure Report.Exits {α : Type} (report : Report α) (code : Nat) : Prop where
  success : code = 0 ↔ ∃ answer, report.result = .ok answer
  failure : code = 1 ↔ ∃ failure, report.result = .error failure

theorem Report.code_exits {α : Type} (report : Report α) : report.Exits report.code := by
  obtain ⟨result, warnings⟩ := report
  cases result with
  | error failure => exact ⟨by simp [code], by simp [code]⟩
  | ok answer => exact ⟨by simp [code], by simp [code]⟩

namespace Disk

/-- An export wrote its three files into a directory. Nothing else is in there if the path leads to
the directory, and the files elsewhere are the same as before. -/
structure Exported (disk written : Disk) (out : Route) (artifacts : Artifacts) : Prop where
  directory : written.at? (out.place disk.home) = some .directory
  symbols : written.at? (out.place disk.home ++ ["symbol.json"]) = some (.file artifacts.symbols)
  index : written.at? (out.place disk.home ++ ["index.json"]) = some (.file artifacts.index)
  data : written.at? (out.place disk.home ++ ["data.json"]) = some (.file artifacts.data)
  only : disk.Leads out → ∀ inner, inner ≠ [] → written.at? (out.place disk.home ++ inner) ≠ none →
    inner = ["symbol.json"] ∨ inner = ["index.json"] ∨ inner = ["data.json"]
  outside : ∀ other, ¬ out.place disk.home <+: other → written.read? other = disk.read? other

theorem entryIn_files {artifacts : Artifacts} {inner : Place} (hne : inner ≠ [])
    (h : entryIn artifacts.files inner ≠ none) :
    inner = ["symbol.json"] ∨ inner = ["index.json"] ∨ inner = ["data.json"] := by
  match inner with
  | [] => exact absurd rfl hne
  | [name] =>
    obtain ⟨entry, hentry⟩ := Option.ne_none_iff_exists'.mp h
    obtain ⟨contents, hcontents, -⟩ := Option.map_eq_some_iff.mp hentry
    obtain ⟨before, after, hfiles, -⟩ := List.lookup_eq_some_iff.mp hcontents
    have hm : (name, contents) ∈ artifacts.files := by simp [hfiles]
    simpa [Artifacts.files] using (List.mem_map_of_mem hm : _ ∈ artifacts.files.map Prod.fst)
  | _ :: _ :: _ => exact absurd rfl h

theorem exported {disk written : Disk} {out : Route} {artifacts : Artifacts}
    (h : replaceDirectory out artifacts.files disk = .ok () written) :
    disk.Exported written out artifacts := by
  have hn : (artifacts.files.map Prod.fst).Nodup := by
    change ["symbol.json", "index.json", "data.json"].Nodup
    decide
  have hup : ".." ∉ artifacts.files.map Prod.fst := by
    change ".." ∉ ["symbol.json", "index.json", "data.json"]
    decide
  have hreplaced := replaceDirectory_ok hn hup (List.cons_ne_nil _ _) h
  constructor
  case directory => exact hreplaced.directory
  case symbols => exact hreplaced.inside _ _ rfl
  case index => exact hreplaced.inside _ _ rfl
  case data => exact hreplaced.inside _ _ rfl
  case only =>
    intro hleads inner hinner hsome
    rw [hreplaced.only hleads] at hsome
    exact entryIn_files hinner hsome
  case outside => exact hreplaced.outside

variable {disk : Disk} {path out : String} {extra : List String} {readers : Roster.Readers}

theorem validateRoster_ok {reg : Registry}
    (h : (disk.validateRoster path readers).result = .ok reg) :
    reg.Reachable ∧ reg.verify = .ok () := by
  unfold validateRoster Roster.loadThen at h
  cases hl : Roster.load readers path (disk.contents? path) with
  | error failure =>
    rw [hl] at h
    cases h
  | ok roster =>
    rw [hl] at h
    change roster.buildRegistry.result.mapError _ = .ok reg at h
    cases hb : roster.buildRegistry.result with
    | error fault =>
      rw [hb] at h
      cases h
    | ok built =>
      rw [hb] at h
      obtain rfl : built = reg := Except.ok.inj h
      obtain ⟨-, hv, rfl⟩ := Roster.buildRegistry_ok.mp hb
      exact ⟨.run _ .empty, hv⟩

/-- A check writes nothing. -/
theorem validateRoster_writable :
    (disk.validateRoster path readers).result ≠ .error .unwritable := by
  unfold validateRoster Roster.loadThen
  cases hl : Roster.load readers path (disk.contents? path) with
  | error failure =>
    rintro ⟨⟩
    unfold Roster.load at hl
    split at hl
    · cases hl
    · split at hl
      · cases hl
      · cases hl
  | ok roster =>
    change roster.buildRegistry.result.mapError _ ≠ _
    cases roster.buildRegistry.result with
    | error fault => exact nofun
    | ok reg => exact nofun

theorem exportRoster_of_error {failure : Failure}
    (h : (disk.validateRoster path readers).result = .error failure) :
    (disk.exportRoster path out extra readers).1 = disk ∧
      (disk.exportRoster path out extra readers).2.result = .error failure := by
  have hrendered := Roster.loadThen_artifacts readers path (disk.contents? path) extra
  unfold validateRoster at h
  rw [h] at hrendered
  change _ = Except.error failure at hrendered
  unfold exportRoster
  simp [hrendered]

/-- A roster that validates is exported, unless the disk refuses. -/
theorem exportRoster_of_ok {reg : Registry}
    (h : (disk.validateRoster path readers).result = .ok reg)
    (hwritten : (disk.exportRoster path out extra readers).2.result ≠ .error .unwritable) :
    replaceDirectory (.ofText out) (reg.artifacts extra).files disk =
        .ok () (disk.exportRoster path out extra readers).1 ∧
      (disk.exportRoster path out extra readers).2.result =
        .ok (.of reg extra (reg.artifacts extra)) := by
  have hrendered := Roster.loadThen_artifacts readers path (disk.contents? path) extra
  unfold validateRoster at h
  rw [h] at hrendered
  change _ = Except.ok _ at hrendered
  unfold exportRoster at hwritten ⊢
  simp only [hrendered] at hwritten ⊢
  cases hw : (replaceDirectory (.ofText out) (reg.artifacts extra).files).run disk with
  | ok done written => exact ⟨hw, rfl⟩
  | error obstacle left =>
    rw [hw] at hwritten
    exact absurd rfl hwritten

theorem exportRoster_error_iff {failure : Failure}
    (hwritten : (disk.exportRoster path out extra readers).2.result ≠ .error .unwritable) :
    (disk.validateRoster path readers).result = .error failure ↔
      (disk.exportRoster path out extra readers).2.result = .error failure := by
  constructor
  · exact fun h => (exportRoster_of_error h).2
  · intro h
    cases hv : (disk.validateRoster path readers).result with
    | error other =>
      rw [(exportRoster_of_error hv).2] at h
      exact congrArg _ (Except.error.inj h)
    | ok reg =>
      rw [(exportRoster_of_ok hv hwritten).2] at h
      cases h

theorem exportRoster_exports {summary : ExportSummary}
    (h : (disk.exportRoster path out extra readers).2.result = .ok summary) :
    ∃ reg artifacts, (disk.validateRoster path readers).result = .ok reg ∧
      reg.Exports extra artifacts summary ∧
      disk.Exported (disk.exportRoster path out extra readers).1 (.ofText out) artifacts := by
  have hwritten : (disk.exportRoster path out extra readers).2.result ≠ .error .unwritable := by
    rw [h]
    exact nofun
  cases hv : (disk.validateRoster path readers).result with
  | error failure =>
    rw [(exportRoster_error_iff hwritten).mp hv] at h
    cases h
  | ok reg =>
    obtain ⟨hreplaced, hsummary⟩ := exportRoster_of_ok hv hwritten
    obtain ⟨hreach, hverify⟩ := validateRoster_ok hv
    rw [hsummary] at h
    obtain rfl := Except.ok.inj h
    exact ⟨reg, _, rfl, hreach.exports hverify extra, exported hreplaced⟩

/-- Unless the disk refuses, both tools fail with the same failure or not at all. A failed export
changes nothing, and one that succeeds leaves what a registry that validates renders to. On a
command line the exit code tells which of the two happened. -/
theorem tools_agree (disk : Disk) (path out : String) (extra : List String)
    (readers : Roster.Readers)
    (hwritten : (disk.exportRoster path out extra readers).2.result ≠ .error .unwritable) :
    (∀ failure, (disk.validateRoster path readers).result = .error failure ↔
      (disk.exportRoster path out extra readers).2.result = .error failure) ∧
    (∀ failure, (disk.exportRoster path out extra readers).2.result = .error failure →
      (disk.exportRoster path out extra readers).1 = disk) ∧
    (∀ summary, (disk.exportRoster path out extra readers).2.result = .ok summary →
      ∃ reg artifacts, (disk.validateRoster path readers).result = .ok reg ∧
        reg.Exports extra artifacts summary ∧
        disk.Exported (disk.exportRoster path out extra readers).1 (.ofText out) artifacts) ∧
    ∀ (read : CommandLine.Reader) (environment : Option String) (arguments : List String),
      (read environment arguments = .ok (.validateRoster path) →
        (disk.run environment arguments read readers).1 = disk ∧
        (disk.validateRoster path readers).Exits
          (disk.run environment arguments read readers).2) ∧
      (read environment arguments = .ok (.exportRoster path out extra) →
        (disk.run environment arguments read readers).1 =
          (disk.exportRoster path out extra readers).1 ∧
        (disk.exportRoster path out extra readers).2.Exits
          (disk.run environment arguments read readers).2) := by
  refine ⟨fun _ => exportRoster_error_iff hwritten, ?_, fun _ => exportRoster_exports, ?_⟩
  · intro failure h
    exact (exportRoster_of_error ((exportRoster_error_iff hwritten).mpr h)).1
  · intro read environment arguments
    refine ⟨fun h => ?_, fun h => ?_⟩
    · unfold run
      rw [h]
      exact ⟨rfl, Report.code_exits _⟩
    · unfold run
      rw [h]
      exact ⟨rfl, Report.code_exits _⟩

/-- A roster file with one zone, a file that is no roster, and a directory with a stale file. -/
def hall : Disk := ⟨[
  (["hall.json"], .file ("\x7b\"zones\": \x7b\"Zone.Hall\": \x7b\"name\": \"Hall\", " ++
    "\"zone_file\": \"hall.json\", \"view_zone_file\": \"hall.tscn\"\x7d\x7d\x7d")),
  (["plan.json"], .file "a hall"),
  (["out"], .directory),
  (["out", "stale.json"], .file "[]")], []⟩

theorem hall_exported :
    (∃ failure, (hall.exportRoster "plan.json" "./out" []).2.result = .error failure ∧
      (hall.exportRoster "plan.json" "./out" []).1 = hall) ∧
    (∃ (summary : ExportSummary) (reg : Registry) (artifacts : Artifacts),
      (hall.exportRoster "hall.json" "./out" ["Door"]).2.result = .ok summary ∧
      reg.Exports ["Door"] artifacts summary ∧ hall.Leads (.ofText "./out") ∧
      hall.Exported (hall.exportRoster "hall.json" "./out" ["Door"]).1 (.ofText "./out")
        artifacts) ∧
    (hall.run none ["export", "hall.json", "--symbol", "Door"]).2 = 0 := by
  refine ⟨?_, ?_⟩
  · obtain ⟨failure, hv⟩ :=
      Check.error_of_isOk (x := (hall.validateRoster "plan.json").result) (by decide +kernel)
    have hfailed : (hall.exportRoster "plan.json" "./out" []).2.result = .error failure :=
      (exportRoster_of_error hv).2
    have hwritten : (hall.exportRoster "plan.json" "./out" []).2.result ≠ .error .unwritable := by
      rw [hfailed]
      rintro ⟨⟩
      exact validateRoster_writable hv
    obtain ⟨-, hunchanged, -⟩ := tools_agree hall "plan.json" "./out" [] .standard hwritten
    exact ⟨failure, hfailed, hunchanged failure hfailed⟩
  · obtain ⟨summary, he⟩ := Check.exists_of_isOk
      (x := (hall.exportRoster "hall.json" "./out" ["Door"]).2.result) (by decide +kernel)
    have hwritten : (hall.exportRoster "hall.json" "./out" ["Door"]).2.result ≠
        .error .unwritable := by
      rw [he]
      exact nofun
    obtain ⟨-, -, hsuccess, hrun⟩ :=
      tools_agree hall "hall.json" "./out" ["Door"] .standard hwritten
    obtain ⟨reg, artifacts, -, hexports, hexported⟩ := hsuccess summary he
    have hleads : hall.Leads (.ofText "./out") :=
      .of_names (by decide +kernel) (by decide +kernel) (by decide +kernel) (by decide +kernel)
    have hparsed : CommandLine.parse none ["export", "hall.json", "--symbol", "Door"] =
        .ok (.exportRoster "hall.json" "./out" ["Door"]) := by decide +kernel
    obtain ⟨-, hexits⟩ := (hrun _ none _).2 hparsed
    exact ⟨⟨summary, reg, artifacts, he, hexports, hleads, hexported⟩,
      hexits.success.mpr ⟨summary, he⟩⟩

/-- A stale file is left in a directory if a missing step is on the way to it. There is nothing to
remove before that step is made. -/
theorem hall_left_stale : ¬ ∀ (disk : Disk) (path out : String) (extra : List String)
    (summary : ExportSummary), disk.Sound →
    (disk.exportRoster path out extra).2.result = .ok summary → ∀ inner, inner ≠ [] →
      (disk.exportRoster path out extra).1.at?
        ((Route.ofText out).place disk.home ++ inner) ≠ none →
      inner = ["symbol.json"] ∨ inner = ["index.json"] ∨ inner = ["data.json"] := by
  intro h
  obtain ⟨summary, he⟩ := Check.exists_of_isOk
    (x := (hall.exportRoster "hall.json" "build/../out" []).2.result) (by decide +kernel)
  have hstale := h hall "hall.json" "build/../out" [] summary (by decide +kernel) he ["stale.json"]
    (by decide) (by decide +kernel)
  revert hstale
  decide

end Disk

end GameRoster
