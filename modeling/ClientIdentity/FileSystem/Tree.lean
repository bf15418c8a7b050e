import ClientIdentity.FileSystem.Basic

namespace ClientIdentity

/-- What stands at a place of a tree. -/
inductive Node where
  | file (contents : Bytes)
  | directory
  deriving DecidableEq, Repr

/-- The names on the way from the root to a place. -/
abbrev Place := List Bytes

/-- The files and directories below the root. -/
structure Tree where
  home : Place
  entries : List (Place × Node)
  deriving Repr

namespace Tree

/-- The byte between the names of a path. -/
def slash : UInt8 := 0x2F

/-- The longest name. -/
def maxName : Nat := 255

/-- The longest path. -/
def maxPath : Nat := 4095

/-- The tree that holds nothing but its working directory. -/
def empty : Tree where
  home := [Utf8.encode "home"]
  entries := [([Utf8.encode "home"], .directory)]

/-- What stands at a place. The root is a directory. -/
def node? (tree : Tree) (place : Place) : Option Node :=
  if place = [] then some .directory else tree.entries.lookup place

/-- The names of a path; there is an empty one in front of a slash that begins it, behind one that
ends it and between two in a row. -/
def names (path : Bytes) : List Bytes :=
  path.splitOnP (· == slash)

/-- Whether a name leads to where it begins. -/
def isStay (name : Bytes) : Bool :=
  name == [] || name == Utf8.encode "."

/-- Whether a name leads one place up. -/
def isUp (name : Bytes) : Bool :=
  name == Utf8.encode ".."

/-- Where a name leads from a place. -/
def step (tree : Tree) (place : Place) (name : Bytes) : Except SystemFault Place :=
  match tree.node? place with
  | none => .error .notFound
  | some (.file _) => .error .notDirectory
  | some .directory =>
    if isStay name then .ok place
    else if isUp name then .ok place.dropLast
    else if maxName < name.length then .error .nameTooLong
    else if (tree.node? (place ++ [name])).isNone then .error .notFound
    else .ok (place ++ [name])

/-- The place that a path begins at. -/
def start (tree : Tree) (path : Bytes) : Place :=
  if path.head? = some slash then [] else tree.home

/-- The place that a path leads to, and what stands there. -/
def resolve (tree : Tree) (path : Bytes) : Except SystemFault (Place × Node) :=
  if path.contains 0 then .error .zeroInPath
  else if path = [] then .error .notFound
  else if maxPath < path.length then .error .nameTooLong
  else
    match (names path).foldlM tree.step (tree.start path) with
    | .error fault => .error fault
    | .ok place =>
      match tree.node? place with
      | none => .error .notFound
      | some node => .ok (place, node)

/-- The contents of a file. -/
def read (tree : Tree) (path : Bytes) : Except SystemFault Bytes :=
  match tree.resolve path with
  | .error fault => .error fault
  | .ok (_, .directory) => .error .isDirectory
  | .ok (_, .file contents) => .ok contents

/-- The names of the files in a directory. -/
def list (tree : Tree) (path : Bytes) : Except SystemFault (List Bytes) :=
  match tree.resolve path with
  | .error fault => .error fault
  | .ok (_, .file _) => .error .notDirectory
  | .ok (place, .directory) =>
    .ok (tree.entries.filterMap fun
      | (entry, .file _) => if entry.dropLast = place then entry.getLast? else none
      | (_, .directory) => none)

/-- The tree with a node at a place, whatever stood there before. -/
def put (tree : Tree) (place : Place) (node : Node) : Tree :=
  { tree with entries := (place, node) :: tree.entries.filter fun entry => entry.1 ≠ place }

/-- Goes to the directory that a name leads to, and makes it if nothing stands there yet. -/
def makeStep (tree : Tree) (place : Place) (name : Bytes) : Except SystemFault (Tree × Place) :=
  match tree.step place name with
  | .ok next =>
    if tree.node? next = some .directory then .ok (tree, next) else .error .notDirectory
  | .error .notFound => .ok (tree.put (place ++ [name]) .directory, place ++ [name])
  | .error fault => .error fault

/-- Goes where names lead, and makes the directories that are missing on the way. Where this fails,
what has been made so far stays. -/
def makeSteps (tree : Tree) (place : Place) : List Bytes → Tree × Option Place
  | [] => (tree, some place)
  | name :: rest =>
    match tree.makeStep place name with
    | .ok (made, next) => made.makeSteps next rest
    | .error _ => (tree, none)

/-- Whether the system looks at a path that consists of these names. -/
def isPath (names : List Bytes) : Bool :=
  let path := [slash].intercalate names
  !path.contains 0 && path.length ≤ maxPath

/-- Goes from the beginning of a path along some of its names, and makes the directories that are
missing. -/
def makeAll (tree : Tree) (path : Bytes) (names : List Bytes) : Tree × Option Place :=
  if isPath names then tree.makeSteps (tree.start path) names else (tree, none)

/-- The names without those at the end that lead nowhere else. -/
def trimStays (names : List Bytes) : List Bytes :=
  (names.reverse.dropWhile isStay).reverse

/-- The names on the way to the directory of a path: the last one that leads anywhere is left out,
with what stands behind it. -/
def parentNames (path : Bytes) : List Bytes :=
  trimStays (trimStays (names path)).dropLast

/-- Whether a path ends in a dot, with slashes behind it or not. -/
def endsInDot (path : Bytes) : Bool :=
  ((names path).filter (· != [])).getLast? == some (Utf8.encode ".")

/-- Makes a directory, and those on the way to it. What cannot be made is not, and a dot at the end
stands for a directory that must be there already. -/
def makeDirectory (tree : Tree) (path : Bytes) : Tree :=
  if isPath (names path) then
    (tree.makeAll path (if endsInDot path then parentNames path else names path)).1
  else
    tree

/-- Puts a file under a name, unless a directory stands there. -/
def putFile (tree : Tree) (place : Place) (name contents : Bytes) : Tree :=
  if isStay name ∨ isUp name ∨ maxName < name.length ∨
      tree.node? (place ++ [name]) = some .directory then
    tree
  else
    tree.put (place ++ [name]) (.file contents)

/-- Writes a file, and makes the directories on the way to it. What cannot be written is not. -/
def write (tree : Tree) (path contents : Bytes) : Tree :=
  match tree.makeAll path (parentNames path) with
  | (made, none) => made
  | (made, some place) =>
    if isPath (names path) then made.putFile place ((names path).getLastD []) contents else made

/-- Removes a file. Directories stay. -/
def remove (tree : Tree) (path : Bytes) : Tree :=
  match tree.resolve path with
  | .ok (place, .file _) =>
    { tree with entries := tree.entries.filter fun entry => entry.1 ≠ place }
  | _ => tree

/-- The tree as a file system. -/
def fileSystem (tree : Tree) : FileSystem where
  read := tree.read
  list := tree.list

end Tree

end ClientIdentity
