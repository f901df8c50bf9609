import GameRoster.Tool

namespace GameRoster

inductive Command
  | validateRoster (path : String)
  | exportRoster (path out : String) (symbols : List String)
deriving Repr, DecidableEq

namespace CommandLine

/-- Why nothing is run: help was asked for, or the command line makes no sense. -/
inductive Stop
  | help
  | usage
deriving Repr, DecidableEq

def Stop.code : Stop → Nat
  | .help => 0
  | .usage => 2

/-- What an argument looks like. -/
inductive Shape
  | escape
  | long (name : String) (value : Option String)
  | short (letters : List Char)
  | plain
deriving Repr, DecidableEq

/-- A long option may carry its value after an equals sign. A lone dash is no option. -/
def shape (argument : String) : Shape :=
  match argument.toList with
  | ['-', '-'] => .escape
  | '-' :: '-' :: rest =>
    let name := rest.takeWhile (· != '=')
    let value := (rest.drop name.length).tail?
    .long (String.ofList name) (value.map String.ofList)
  | '-' :: c :: rest => .short (c :: rest)
  | _ => .plain

/-- What was read so far after the name of a command. -/
structure Given where
  roster : Option String
  out : Option String
  symbols : List String
deriving Repr, DecidableEq

namespace Given

def nothing : Given := ⟨none, none, []⟩

/-- There is one roster, and its path is not empty. -/
def setRoster (given : Given) (path : String) : Except Stop Given :=
  if given.roster.isSome || path.isEmpty then .error .usage
  else .ok { given with roster := some path }

/-- There is at most one output directory, and its path is not empty. -/
def setOut (given : Given) (path : String) : Except Stop Given :=
  if given.out.isSome || path.isEmpty then .error .usage
  else .ok { given with out := some path }

def addSymbol (given : Given) (text : String) : Except Stop Given :=
  .ok { given with symbols := given.symbols ++ [text] }

end Given

/-- The options that take a value. -/
abbrev Options := List (String × (Given → String → Except Stop Given))

def exportOptions : Options := [("out", Given.setOut), ("symbol", Given.addSymbol)]

/-- Reads the arguments of a command. What goes wrong first decides, and help counts as going
wrong. -/
def read (options : Options) : Given → List String → Except Stop Given
  | given, [] => .ok given
  | given, argument :: rest =>
    match shape argument with
    | .escape => rest.foldlM Given.setRoster given
    | .plain => do
      let given ← given.setRoster argument
      read options given rest
    | .short letters => .error (if letters.head? == some 'h' then .help else .usage)
    | .long name attached =>
      match options.lookup name, attached, rest with
      | some set, some value, rest => do
        let given ← set given value
        read options given rest
      | some set, none, value :: rest =>
        if shape value == .plain then do
          let given ← set given value
          read options given rest
        else .error .usage
      | some _, none, [] => .error .usage
      | none, none, _ => .error (if name == "help" then .help else .usage)
      | none, some _, _ => .error .usage

def defaultOut : String := "./out"

/-- Where to write to, unless the command line says so. -/
def chooseOut (environment : Option String) (given : Given) : Except Stop String :=
  match given.out, environment with
  | some out, _ => .ok out
  | none, some out => if out.isEmpty then .error .usage else .ok out
  | none, none => .ok defaultOut

def requireRoster (given : Given) : Except Stop String :=
  match given.roster with
  | some path => .ok path
  | none => .error .usage

/-- Help may name a command. -/
def helpOn : List String → Stop
  | [] => .help
  | [name] => if ["validate", "export", "help"].contains name then .help else .usage
  | _ => .usage

/-- How a command line is read. The environment may name the output directory. -/
abbrev Reader := Option String → List String → Except Stop Command

def parse (environment : Option String) : List String → Except Stop Command
  | [] => .error .usage
  | name :: arguments =>
    if name == "validate" then do
      let given ← read [] .nothing arguments
      return .validateRoster (← requireRoster given)
    else if name == "export" then do
      let given ← read exportOptions .nothing arguments
      let path ← requireRoster given
      return .exportRoster path (← chooseOut environment given) given.symbols
    else if name == "help" then .error (helpOn arguments)
    else
      match shape name with
      | .short ('h' :: _) => .error .help
      | .long "help" none => .error .help
      | _ => .error .usage

end CommandLine

/-- Success is zero and failure is one. -/
def Report.code {α : Type} (report : Report α) : Nat :=
  match report.result with
  | .ok _ => 0
  | .error _ => 1

namespace Disk

/-- Runs a command and gives its exit code. -/
def runCommand (disk : Disk) (readers : Roster.Readers) : Command → Disk × Nat
  | .validateRoster path => (disk, (disk.validateRoster path readers).code)
  | .exportRoster path out symbols =>
    let (written, report) := disk.exportRoster path out symbols readers
    (written, report.code)

/-- Runs a command line and gives the exit code. -/
def run (disk : Disk) (environment : Option String) (arguments : List String)
    (read : CommandLine.Reader := CommandLine.parse) (readers : Roster.Readers := .standard) :
    Disk × Nat :=
  match read environment arguments with
  | .error stop => (disk, stop.code)
  | .ok command => disk.runCommand readers command

end Disk

end GameRoster
