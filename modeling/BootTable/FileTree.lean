import BootTable.FileTree.Fault
import BootTable.FileTree.Path

/-!
# BootTable — the file tree

Directories and files by their places, and the directory that relative paths start from. A path is
followed name by name, and every name but the last must lead to a directory. Replacing a file
changes the one place that its path leads to, or nothing at all.
-/

namespace BootTable

abbrev Location := List String

/-- The first way is the second one or comes before it. Ways are compared name by name, and a way
comes before those that lead on from it. -/
def Location.isUpTo : Location → Location → Bool
  | [], _ => true
  | _ :: _, [] => false
  | a :: as, b :: bs => a < b || (a = b && isUpTo as bs)

def Location.path (place : Location) : String :=
  "/" ++ "/".intercalate place

/-- What stands at a place. -/
inductive Node where
  | directory
  | file (content : ByteArray)

/-- Directories and files, and the directory that relative paths start from. -/
structure FileTree where
  origin : Location
  /-- What stands at each place below the root. -/
  nodes : List (Location × Node)

namespace FileTree

/-! ## Places -/

/-- What stands at a place. The root is always a directory. -/
def node? (tree : FileTree) (place : Location) : Option Node :=
  if place = [] then some .directory else tree.nodes.lookup place

def put (place : Location) (node : Node) (tree : FileTree) : FileTree :=
  { tree with nodes := (place, node) :: tree.nodes.filter fun entry => entry.1 ≠ place }

def clear (place : Location) (tree : FileTree) : FileTree :=
  { tree with nodes := tree.nodes.filter fun entry => entry.1 ≠ place }

/-- The tree that holds one directory and those above it; relative paths start there. -/
def fresh (origin : Location) : FileTree :=
  { origin, nodes := (List.range origin.length).map fun n => (origin.take (n + 1), .directory) }

/-! ## Following paths -/

def nameLimit : Nat := 255

def pathLimit : Nat := 4095

/-- The place of a directory, and a fault if no directory stands there. -/
def enter (tree : FileTree) (place : Location) : Except FileFault Location :=
  match tree.node? place with
  | none => .error .notFound
  | some (.file _) => .error .notADirectory
  | some .directory => .ok place

/-- The place that a segment leads to from a directory. -/
def follow (tree : FileTree) (place : Location) (segment : String) : Except FileFault Location := do
  let here ← tree.enter place
  if Path.isIdle segment then return here
  else if segment = Path.above then return here.dropLast
  else if segment.utf8ByteSize > nameLimit then throw .nameTooLong
  else return here ++ [segment]

def start (tree : FileTree) (path : String) : Location :=
  if Path.isAbsolute path then [] else tree.origin

def textFault? (path : String) : Option FileFault :=
  if path.contains '\x00' then some .nulCharacter
  else if path = "" then some .notFound
  else if path.utf8ByteSize > pathLimit then some .nameTooLong
  else none

/-- The place that a path leads to; nothing need stand there. -/
def locate (tree : FileTree) (path : String) : Except FileFault Location :=
  match textFault? path with
  | some fault => .error fault
  | none => (Path.segments path).foldlM tree.follow (tree.start path)

/-! ## Reading -/

def isDirectory (tree : FileTree) (path : String) : Bool :=
  match tree.locate path with
  | .error _ => false
  | .ok place =>
    match tree.node? place with
    | some .directory => true
    | _ => false

def textAt (tree : FileTree) (place : Location) : Except FileFault String :=
  match tree.node? place with
  | none => .error .notFound
  | some .directory => .error .isADirectory
  | some (.file content) =>
    match String.fromUTF8? content with
    | none => .error .notUtf8
    | some text => .ok text

def read (tree : FileTree) (path : String) : Except FileFault String :=
  (tree.locate path).bind tree.textAt

/-- The places below a directory, as names from there on, with what stands there. -/
def below (tree : FileTree) (place : Location) : List (Location × Node) :=
  tree.nodes.filterMap fun entry =>
    if place.isPrefixOf entry.1 ∧ entry.1 ≠ place then some (entry.1.drop place.length, entry.2)
    else none

/-- Every path below the directory that relative paths start from: what is in a directory comes
after it, sorted by name; directories end in a slash. -/
def listing (tree : FileTree) : List String :=
  ((tree.below tree.origin).mergeSort fun a b => Location.isUpTo a.1 b.1).map fun entry =>
    "/".intercalate entry.1 ++
      match entry.2 with
      | .directory => "/"
      | .file _ => ""

/-! ## Changing -/

/-- The place where a file with the given path can be put in one step. -/
def target (tree : FileTree) (path : String) : Except FileFault Location := do
  if let some fault := textFault? path then throw fault
  let segments := Path.segments path
  let named := (segments.reverse.dropWhile (· = "")).reverse
  match named.getLast? with
  | none => throw .busy
  | some last =>
    let directory ← named.dropLast.foldlM tree.follow (tree.start path)
    let place ← tree.follow directory last
    if last = Path.self ∨ last = Path.above then throw .busy
    if named ≠ segments then throw .notADirectory
    match tree.node? place with
    | some .directory => throw .isADirectory
    | _ => return place

/-- The place of the draft of a file. Nothing else has its mark. -/
def draft (tree : FileTree) (path : String) : Except FileFault Location :=
  tree.locate (Path.draft tree.origin.path path "XXXXXX")

/-- Replaces the file with the given path in one step. A draft is made beside it and then takes its
place, so the directory must be there, and the path of the draft must not be too long either. -/
def replace (tree : FileTree) (path text : String) : Except FileFault FileTree := do
  let _ ← tree.draft path
  let place ← tree.target path
  return tree.put place (.file text.toUTF8)

/-- Follows a segment and makes a directory on the way where nothing stands. -/
def followMaking (state : FileTree × Location) (segment : String) :
    Except FileFault (FileTree × Location) := do
  let tree :=
    match state.1.node? state.2 with
    | none => state.1.put state.2 .directory
    | some _ => state.1
  return (tree, ← tree.follow state.2 segment)

/-- Makes a file, or a directory if there are no bytes, and the directories on the way. -/
def create (tree : FileTree) (path : String) (content : Option ByteArray) :
    Except FileFault FileTree := do
  let (made, place) ← (Path.segments path).foldlM followMaking (tree, tree.start path)
  match content, made.node? place with
  | none, none => return made.put place .directory
  | none, some _ => return made
  | some _, some .directory => throw .isADirectory
  | some bytes, _ => return made.put place (.file bytes)

def remove (tree : FileTree) (path : String) : Except FileFault FileTree := do
  let place ← tree.locate path
  match tree.node? place with
  | none => throw .notFound
  | some .directory => throw .isADirectory
  | some (.file _) => return tree.clear place

end FileTree

end BootTable
