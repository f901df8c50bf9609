import GameRoster.Text.Piece

namespace GameRoster

/-- The names on the way from the root to a file or directory. -/
abbrev Place := List String

namespace Place

/-- A path names its steps between slashes. Empty steps and single points lead nowhere. -/
def ofText (path : String) : Place :=
  ((Text.split '/' path.toList).map String.ofList).filter fun name => name != "" && name != "."

/-- Whether a path can name a file: one that ends in an empty step or a point names a directory. -/
def namesFile (path : String) : Bool :=
  match (Text.split '/' path.toList).getLast? with
  | none | some [] | some ['.'] => false
  | some _ => true

/-- One step further. Two points lead up, and from the root they lead nowhere. -/
def step (place : Place) (name : String) : Place :=
  if name == ".." then place.dropLast else place ++ [name]

end Place

/-- A path from the root, or from the directory that a tool runs in. -/
structure Route where
  rooted : Bool
  steps : List String
  /-- Whether the path ends in a single point. -/
  still : Bool
deriving Repr, DecidableEq

namespace Route

def ofText (path : String) : Route where
  rooted := path.toList.head? == some '/'
  steps := Place.ofText path
  still := ((Text.split '/' path.toList).filter fun name => !name.isEmpty).getLast? == some ['.']

def isEmpty (route : Route) : Bool := !route.rooted && route.steps.isEmpty && !route.still

/-- Whether a path ends in the name of what it leads to, so that this can be made and removed. -/
def isNamed (route : Route) : Bool :=
  !route.still && route.steps.getLast?.any (· != "..")

/-- Where a path leads. There are no links, so that steps lead to the same place on every disk. -/
def place (home : Place) (route : Route) : Place :=
  route.steps.foldl Place.step (if route.rooted then [] else home)

/-- The paths to the steps before the last one, the shortest first. -/
def ancestors (route : Route) : List Route :=
  (List.range' 1 (route.steps.length - 1)).map fun n => ⟨route.rooted, route.steps.take n, false⟩

/-- The places where there must be directories for a path to lead on. -/
def way (home : Place) (route : Route) : List Place :=
  (if route.still then route.ancestors ++ [route] else route.ancestors).map (place home)

def join (route : Route) (name : String) : Route := ⟨route.rooted, route.steps ++ [name], false⟩

end Route

inductive DiskEntry
  | directory
  | file (contents : String)
deriving Repr, DecidableEq

structure Disk where
  entries : List (Place × DiskEntry)
  /-- The directory that tools run in. -/
  home : Place := []
deriving Repr, DecidableEq

/-- Why a disk refuses what it is asked for. -/
inductive Obstacle
  | missing
  | blocked
  | taken
  | unnamed
deriving Repr, DecidableEq

namespace Disk

def empty : Disk := ⟨[], []⟩

def at? (disk : Disk) (place : Place) : Option DiskEntry :=
  if place.isEmpty then some .directory else disk.entries.lookup place

def read? (disk : Disk) (place : Place) : Option String :=
  match disk.at? place with
  | some (.file contents) => some contents
  | _ => none

def put (disk : Disk) (place : Place) (entry : DiskEntry) : Disk :=
  { disk with
    entries := disk.entries.filter (fun (other, _) => other != place) ++ [(place, entry)] }

def write (disk : Disk) (place : Place) (contents : String) : Disk :=
  disk.put place (.file contents)

def makeDirectory (disk : Disk) (place : Place) : Disk := disk.put place .directory

/-- Takes away all that lies in a directory. -/
def clear (disk : Disk) (place : Place) : Disk :=
  { disk with
    entries := disk.entries.filter fun (other, _) => other == place || !place.isPrefixOf other }

/-- Takes away a directory and all that lies in it. -/
def remove (disk : Disk) (place : Place) : Disk :=
  { disk with entries := disk.entries.filter fun (other, _) => !place.isPrefixOf other }

/-- What is in the way of those who go on from a place. -/
def obstacle? (disk : Disk) (place : Place) : Option Obstacle :=
  match disk.at? place with
  | some .directory => none
  | some (.file _) => some .blocked
  | none => some .missing

/-- Follows a path. Every step but the last one must lead to a directory. -/
def follow (disk : Disk) (route : Route) : Except Obstacle Place :=
  if route.isEmpty then .error .missing
  else
    match (route.way disk.home).findSome? disk.obstacle? with
    | some obstacle => .error obstacle
    | none => .ok (route.place disk.home)

/-- Follows a path to a place for something new in a directory that is there. -/
def followToNew (disk : Disk) (route : Route) : Except Obstacle Place := do
  let place ← disk.follow route
  if !route.isNamed then .error .taken
  else
    match disk.obstacle? place.dropLast with
    | some obstacle => .error obstacle
    | none => return place

def isDirectory (disk : Disk) (route : Route) : Bool :=
  match disk.follow route with
  | .ok place => disk.at? place == some .directory
  | .error _ => false

/-- Makes the last directory of a path. -/
def createDirectory (route : Route) (disk : Disk) : Except Obstacle Disk := do
  let place ← disk.followToNew route
  if (disk.at? place).isSome then .error .taken
  else return disk.makeDirectory place

/-- Writes a file, and overwrites one that is there. -/
def writeFile (route : Route) (contents : String) (disk : Disk) : Except Obstacle Disk := do
  let place ← disk.followToNew route
  if disk.at? place == some .directory then .error .taken
  else return disk.write place contents

/-- What is done to a disk, which may stop halfway. -/
abbrev Job := EStateM Obstacle Disk

def attempt (call : Disk → Except Obstacle Disk) : Job Unit := fun disk =>
  match call disk with
  | .ok next => .ok () next
  | .error obstacle => .error obstacle disk

def createUnlessThere (route : Route) : Job Unit := fun disk =>
  match createDirectory route disk with
  | .ok next => .ok () next
  | .error obstacle =>
    if route.isEmpty || disk.isDirectory route then .ok () disk else .error obstacle disk

/-- Makes all the directories of a path that are not there. -/
def createDirectories (route : Route) : Job Unit :=
  (route.ancestors ++ [route]).forM createUnlessThere

/-- Removes a directory with all that lies in it. A path that leads nowhere is left alone. -/
def removeDirectory (route : Route) : Job Unit := fun disk =>
  match disk.follow route with
  | .error .missing => .ok () disk
  | .error obstacle => .error obstacle disk
  | .ok place =>
    match disk.at? place with
    | none => .ok () disk
    | some (.file _) => .error .blocked disk
    | some .directory =>
      if route.isNamed then .ok () (disk.remove place) else .error .unnamed (disk.clear place)

def writeFiles (route : Route) (files : List (String × String)) : Job Unit :=
  files.forM fun (name, contents) => attempt (writeFile (route.join name) contents)

/-- Puts files into a directory that is removed and made anew first. -/
def replaceDirectory (route : Route) (files : List (String × String)) : Job Unit := do
  removeDirectory route
  createDirectories route
  writeFiles route files

/-- The files of a directory, sorted by name, where there is such a directory. -/
def files? (disk : Disk) (place : Place) : Option (List (String × String)) :=
  match disk.at? place with
  | some .directory =>
    let found := disk.entries.filterMap fun (other, entry) =>
      match entry with
      | .file contents => if other.dropLast = place then other.getLast?.map (·, contents) else none
      | .directory => none
    some (found.mergeSort fun a b => decide (a.1 ≤ b.1))
  | _ => none

end Disk

end GameRoster
