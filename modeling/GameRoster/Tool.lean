import GameRoster.Disk
import GameRoster.Export
import GameRoster.Roster

namespace GameRoster

/-- Why a tool gives up. -/
inductive Failure
  | unreadable
  | malformed
  | fault (fault : Fault)
  | unwritable

/-- What a tool answers, and the warnings it met on the way. -/
structure Report (α : Type) where
  result : Except Failure α
  warnings : List Warning

namespace Report

def fail {α : Type} (failure : Failure) : Report α := ⟨.error failure, []⟩

def ofChecked {α : Type} (checked : Checked α) : Report α :=
  ⟨checked.result.mapError .fault, checked.warnings⟩

end Report

namespace Roster

/-- Whether the name of a file ends in `.json`, with something before it. -/
def namesJson (place : Place) : Bool :=
  match place.getLast? with
  | some name => ".json".toList.isSuffixOf name.toList && name != ".json"
  | none => false

/-- How a roster is read from what a file holds. -/
structure Readers where
  json : String → Option Roster
  ron : String → Option Roster

def Readers.standard : Readers := ⟨ofJson?, ofRon?⟩

/-- Reads what a file holds. Only files named so are written in JSON, all others in RON. -/
def load (readers : Readers) (path : String) : Option String → Except Failure Roster
  | none => .error .unreadable
  | some text =>
    match if namesJson (.ofText path) then readers.json text else readers.ron text with
    | some roster => .ok roster
    | none => .error .malformed

/-- Loads a roster and goes on with it. -/
def loadThen {α : Type} (readers : Readers) (path : String) (contents : Option String)
    (next : Roster → Checked α) : Report α :=
  match load readers path contents with
  | .error failure => .fail failure
  | .ok roster => .ofChecked (next roster)

/-- What an export of the roster writes, and the counts it reports. -/
def artifacts (extra : List String) (roster : Roster) : Checked (Artifacts × ExportSummary) := do
  let reg ← (roster.register .empty).checked
  let artifacts ← reg.render extra
  return (artifacts, .of reg extra artifacts)

end Roster

namespace Artifacts

/-- The files that an export writes. -/
def files (artifacts : Artifacts) : List (String × String) := [
  ("symbol.json", artifacts.symbols),
  ("index.json", artifacts.index),
  ("data.json", artifacts.data)]

end Artifacts

namespace Disk

def contents? (disk : Disk) (path : String) : Option String :=
  match disk.follow (.ofText path) with
  | .ok place => if Place.namesFile path then disk.read? place else none
  | .error _ => none

/-- Loads a roster file. -/
def loadRoster (disk : Disk) (path : String) (readers : Roster.Readers := .standard) :
    Except Failure Roster :=
  Roster.load readers path (disk.contents? path)

/-- Checks a roster file. -/
def validateRoster (disk : Disk) (path : String) (readers : Roster.Readers := .standard) :
    Report Registry :=
  Roster.loadThen readers path (disk.contents? path) Roster.buildRegistry

/-- Exports a roster file into a directory, which is replaced. Nothing is touched unless there is
something to write. -/
def exportRoster (disk : Disk) (path out : String) (extra : List String)
    (readers : Roster.Readers := .standard) : Disk × Report ExportSummary :=
  let rendered := Roster.loadThen readers path (disk.contents? path) (Roster.artifacts extra)
  match rendered.result with
  | .error failure => (disk, ⟨.error failure, rendered.warnings⟩)
  | .ok (artifacts, summary) =>
    match (replaceDirectory (.ofText out) artifacts.files).run disk with
    | .ok _ written => (written, ⟨.ok summary, rendered.warnings⟩)
    | .error _ left => (left, ⟨.error .unwritable, rendered.warnings⟩)

end Disk

end GameRoster
