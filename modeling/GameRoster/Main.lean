import GameRoster.CommandLine

namespace GameRoster.Program

/-- The text of a file, where it can be read. -/
def contents? (path : String) : IO (Option String) := do
  try
    return some (← IO.FS.readFile path)
  catch _ =>
    return none

def removeDirectory (path : String) : IO Unit := do
  try
    IO.FS.removeDirAll path
  catch
    | .noFileOrDirectory .. => return ()
    | error => throw error

def replaceDirectory (path : String) (files : List (String × String)) : IO Bool := do
  try
    removeDirectory path
    IO.FS.createDirAll path
    for (name, text) in files do
      IO.FS.writeFile (path ++ "/" ++ name) text
    return true
  catch _ =>
    return false

def describe : Failure → String
  | .unreadable => "the roster cannot be read"
  | .malformed => "the roster cannot be parsed"
  | .fault fault => fault.message
  | .unwritable => "the output directory cannot be written"

def warn (warnings : List Warning) : IO Unit := do
  for warning in warnings do
    IO.eprintln (warning.loc.render ++ ": time is not aligned to a logic tick: "
      ++ warning.raw.render)

def fail (failure : Failure) : IO UInt32 := do
  IO.eprintln ("Failed: " ++ describe failure)
  return 1

def validate (path : String) : IO UInt32 := do
  let report := Roster.loadThen .standard path (← contents? path) Roster.buildRegistry
  warn report.warnings
  match report.result with
  | .ok _ => return 0
  | .error failure => fail failure

def writeExport (path out : String) (symbols : List String) : IO UInt32 := do
  let report := Roster.loadThen .standard path (← contents? path) (Roster.artifacts symbols)
  warn report.warnings
  match report.result with
  | .ok (artifacts, _) =>
    if ← replaceDirectory out artifacts.files then return 0 else fail .unwritable
  | .error failure => fail failure

def usage : String :=
  "validate ROSTER\nexport ROSTER [--out DIR] [--symbol TEXT]..."

def run (arguments : List String) : IO UInt32 := do
  match CommandLine.parse (← IO.getEnv "OUTPUT_ASSET") arguments with
  | .ok (.validateRoster path) => validate path
  | .ok (.exportRoster path out symbols) => writeExport path out symbols
  | .error .help =>
    IO.println usage
    return 0
  | .error .usage =>
    IO.eprintln usage
    return 2

end GameRoster.Program

def main (arguments : List String) : IO UInt32 := GameRoster.Program.run arguments
