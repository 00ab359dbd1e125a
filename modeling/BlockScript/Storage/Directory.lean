import BlockScript.Storage.Basic
import BlockScript.Storage.Path

/-!
# A directory in memory

A `Directory` holds files and directories under their places, which are the names that lead to
them. It is a storage whose writes are seen in the state that they leave.

A path is walked part by part, and every part but the last must lead to a directory: `a/../b`
finds nothing unless there is a directory `a`.
-/

namespace BlockScript

/-- What stands at a place. -/
inductive Node
  | directory
  | file (content : ByteArray)
  deriving Inhabited

/-- The text of what stands at a place, if it is a file that holds one. -/
def Node.text : Option Node → Except StorageFault String
  | none => .error .missing
  | some .directory => .error .isDirectory
  | some (.file content) =>
      match String.fromUTF8? content with
      | none => .error .notText
      | some text => .ok text

/-- The names that lead from the directory to something below it. -/
abbrev Place := List (List Char)

/-- What a path leads to. -/
inductive Location
  /-- The place, at which there may be nothing. -/
  | inside (place : Place)
  /-- Some directory that is not below the one at hand. -/
  | outside
  deriving DecidableEq, Repr, Inhabited

/-- A directory and everything below it, the latest entry for a place first. -/
structure Directory where
  entries : List (Place × Node)
  deriving Inhabited

namespace Directory

/-- The directory that holds nothing. -/
def empty : Directory := ⟨[]⟩

/-- What stands at a place, if anything does. The directory itself always does. -/
def find? (directory : Directory) (place : Place) : Option Node :=
  if place.isEmpty then some .directory
  else (directory.entries.find? (·.1 == place)).map (·.2)

/-- The directory with this at a place. -/
def insert (directory : Directory) (place : Place) (node : Node) : Directory :=
  ⟨(place, node) :: directory.entries.filter (·.1 != place)⟩

/-- The place that a part of a path leads to from a place where a directory stands. Nothing
leads up from the directory itself. -/
def next (place : Place) (part : List Char) : Place :=
  if isIdlePart part then place
  else if isParentPart part then place.dropLast
  else place ++ [part]

/-- The place that a path leads to if directories stand all along it. -/
def placeOf (path : String) : Place := (pathParts path.toList).foldl next []

/-- The directory with a directory at a place, if nothing stands there. -/
def makeDirectory (directory : Directory) (place : Place) : Directory :=
  if (directory.find? place).isSome then directory else directory.insert place .directory

/-- The directory with directories wherever the parts of a path lead and nothing stands. -/
def makeDirectories (directory : Directory) (parts : List (List Char)) : Directory :=
  (parts.foldl
    (fun (made, place) part => (made.makeDirectory (next place part), next place part))
    (directory, [])).1

/-- One part further along a path. There must be a directory at the location reached so far;
what stands at the next one is left open. Of the outside nothing is known but its directories
around this one, so that no name is found there. -/
def step (directory : Directory) (location : Location) (part : List Char) :
    Except StorageFault Location :=
  let named := !isIdlePart part && !isParentPart part
  let overlong := nameLimit < (String.ofList part).utf8ByteSize
  match location with
  | .outside =>
      if !named then .ok .outside
      else if overlong then .error .nameTooLong
      else .error .missing
  | .inside place =>
      match directory.find? place with
      | none => .error .missing
      | some (.file _) => .error .notDirectory
      | some .directory =>
          if named && overlong then .error .nameTooLong
          else if isParentPart part && place.isEmpty then .ok .outside
          else .ok (.inside (next place part))

/-- Where a path starts, if it can be one at all. -/
def start (path : String) : Except StorageFault Location :=
  if path.toList.contains '\x00' then .error .nullInName
  else if path.isEmpty then .error .missing
  else if pathLimit < path.utf8ByteSize then .error .nameTooLong
  else .ok (if startsAtRoot path then .outside else .inside [])

/-- The location that a path leads to, at which nothing may stand. -/
def locate (directory : Directory) (path : String) : Except StorageFault Location := do
  (pathParts path.toList).foldlM directory.step (← start path)

/-- What stands at a location, if anything does: outside there are only directories. -/
def node? (directory : Directory) : Location → Option Node
  | .outside => some .directory
  | .inside place => directory.find? place

/-- Reads the file at a path. -/
def read (directory : Directory) (path : String) : Except StorageFault String := do
  Node.text (directory.node? (← directory.locate path))

/-- Writes the file at a path, whose directory must exist. -/
def write (directory : Directory) (path text : String) : Except StorageFault Directory := do
  match ← directory.locate path with
  | .outside => .error .isDirectory
  | .inside place =>
      match directory.find? place with
      | some .directory => .error .isDirectory
      | _ => .ok (directory.insert place (.file text.toUTF8))

/-- Access to a directory in memory. -/
def storage : Storage (StateM Directory) where
  read path := fun directory => (directory.read path, directory)
  write path text := fun directory =>
    match directory.write path text with
    | .ok changed => (.ok (), changed)
    | .error fault => (.error fault, directory)

/-- The files in the directory, with their places. -/
def files (directory : Directory) : List (Place × ByteArray) :=
  directory.entries.filterMap fun (place, node) =>
    match node with
    | .directory => none
    | .file content => some (place, content)

end Directory

end BlockScript
