/-!
# Paths

Paths are texts with `/` between their parts. A dump is written next to its script, under the
script's name without its last extension. The directory part of the path stays as it was given,
but for empty parts and single dots at its end. A path that ends with no name of a file, as a root
or `..` does, has its dumps behind it.
-/

namespace BlockScript

/-- The parts of a path: the texts between its slashes. -/
def pathParts : List Char → List (List Char)
  | [] => [[]]
  | c :: rest =>
      match pathParts rest with
      | [] => [[c]]
      | part :: others => if c = '/' then [] :: part :: others else (c :: part) :: others

/-- Whether a part of a path stays at the directory before it. -/
def isIdlePart (part : List Char) : Bool := part == [] || part == ['.']

/-- Whether a part of a path goes up to the directory around the one before it. -/
def isParentPart (part : List Char) : Bool := part == ['.', '.']

/-- Whether a path starts at the root. -/
def startsAtRoot (path : String) : Bool := path.toList.head? == some '/'

/-- The most bytes that a name in a directory can have. -/
def nameLimit : Nat := 255

/-- The most bytes that a path can have. -/
def pathLimit : Nat := 4095

/-- The directory parts of a path without idle parts at the end. The first part is kept: empty,
it stands for the root. -/
def trimDirectory : List (List Char) → List (List Char)
  | [] => []
  | first :: rest => first :: (rest.reverse.dropWhile isIdlePart).reverse

/-- A file name without its last extension. A dot at the front opens no extension. -/
def nameStem (name : List Char) : List Char :=
  let stem := (name.reverse.dropWhile (· != '.')).tail.reverse
  if stem.isEmpty then name else stem

/-- The directory parts of a path and the name of its file. Idle parts behind the name are left
out, and a path that ends by going up names no file. -/
def splitFile? (path : List Char) : Option (List (List Char) × List Char) :=
  match (pathParts path).reverse.dropWhile isIdlePart with
  | [] => none
  | name :: before => if isParentPart name then none else some (before.reverse, name)

/-- The path with one more name behind it. -/
def joinName (path name : List Char) : List Char :=
  if path.isEmpty || path.getLast? == some '/' then path ++ name else path ++ '/' :: name

/-- The name of a dump of this kind for a script whose name has this stem. -/
def dumpName (kind : String) (stem : List Char) : List Char :=
  stem ++ '.' :: kind.toList ++ ".json".toList

/-- The path of the dump of a kind that belongs to the script at `path`. -/
def dumpPath (kind path : String) : String :=
  String.ofList <|
    match splitFile? path.toList with
    | some (directory, name) =>
        (trimDirectory directory).flatMap (· ++ ['/']) ++ dumpName kind (nameStem name)
    | none => joinName path.toList (dumpName kind "program".toList)

end BlockScript
