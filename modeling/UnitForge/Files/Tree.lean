import UnitForge.Artifact
import UnitForge.Files.Path

/-! # File trees

The files and directories of a file system, one directory of which is the working directory. A
location is the list of names that leads to a node from the root; paths are followed one piece at
a time, as the operating system does it, so that every piece has to start from a directory. A
relative path starts from the working directory, an absolute one from the root. What is neither a
file nor a directory can be found, but not opened, and of some directories the entries cannot be
read although each of them can be found by its name. -/
set_option autoImplicit false
namespace UnitForge

/-- What can stand at a location; a special node is a socket, say. -/
inductive FileNode where
  | directory
  | file (bytes : Bytes)
  | special
  deriving DecidableEq, Repr

inductive FileFault where
  | notFound
  | notDirectory
  | isDirectory
  | invalidPath
  | unreadable
  deriving DecidableEq, Repr

abbrev FileLocation := List String

/-- Every node below the root, and the location that relative paths start from; for a location
listed twice the first entry counts. The entries of a sealed directory cannot be read. -/
structure FileTree where
  entries : List (FileLocation × FileNode)
  workingDirectory : FileLocation
  sealed : List FileLocation := []
  deriving DecidableEq, Repr

namespace FileTree

def empty : FileTree :=
  { entries := [(["work"], .directory)], workingDirectory := ["work"] }

/-- The root itself is always there. -/
def node? (tree : FileTree) (location : FileLocation) : Option FileNode :=
  if location = [] then some .directory else tree.entries.lookup location

def set (tree : FileTree) (location : FileLocation) (node : FileNode) : FileTree :=
  { tree with entries := (location, node) :: tree.entries.filter (·.1 ≠ location) }

/-- No file system accepts a name with a zero character or one of more than 255 bytes. -/
def isValidPiece (piece : String) : Bool :=
  piece.utf8ByteSize ≤ 255 && !piece.toList.contains '\x00'

/-- The location that pieces lead to from a location; the last of them need not exist, and there is
nothing above the root. -/
def follow (tree : FileTree) : FileLocation → List String → Except FileFault FileLocation
  | location, [] => .ok location
  | location, piece :: rest =>
    match tree.node? location with
    | none => .error .notFound
    | some (.file _) | some .special => .error .notDirectory
    | some .directory =>
      if piece = "" ∨ piece = "." then follow tree location rest
      else if piece = ".." then follow tree location.dropLast rest
      else follow tree (location ++ [piece]) rest

def startOf (tree : FileTree) (path : Path) : FileLocation :=
  if path.isAbsolute then [] else tree.workingDirectory

/-- Where a path leads, one name after the other. -/
def resolve (tree : FileTree) (path : Path) : Except FileFault FileLocation :=
  if !path.pieces.all isValidPiece then .error .invalidPath
  else if path.text.isEmpty then .error .notFound
  else tree.follow (tree.startOf path) path.pieces

/-- The number of bytes that no path reaches which is handed to the system as a whole. -/
def pathLimit : Nat := 4096

def isShort (path : Path) : Bool :=
  path.text.utf8ByteSize < pathLimit

def locate (tree : FileTree) (path : Path) : Except FileFault FileLocation :=
  if isShort path then tree.resolve path else .error .invalidPath

/-- The location that a path leads to if something is there, however long the path is. -/
def canonical? (tree : FileTree) (path : Path) : Option FileLocation :=
  match tree.resolve path with
  | .error _ => none
  | .ok location => if (tree.node? location).isSome then some location else none

def nodeAt? (tree : FileTree) (path : Path) : Option FileNode :=
  match tree.locate path with
  | .error _ => none
  | .ok location => tree.node? location

def isDirectory (tree : FileTree) (path : Path) : Bool :=
  tree.nodeAt? path = some .directory

def isFile (tree : FileTree) (path : Path) : Bool :=
  match tree.nodeAt? path with
  | some (.file _) => true
  | _ => false

def read (tree : FileTree) (path : Path) : Except FileFault Bytes :=
  match tree.locate path with
  | .error fault => .error fault
  | .ok location =>
    match tree.node? location with
    | some (.file bytes) => .ok bytes
    | some .directory => .error .isDirectory
    | some .special => .error .unreadable
    | none => .error .notFound

def names (tree : FileTree) (location : FileLocation) : List String :=
  let inside := tree.entries.filterMap fun (place, _) =>
    match place.getLast? with
    | some name => if place.dropLast = location then some name else none
    | none => none
  inside.mergeSort fun a b => !(b < a)

def readDirectory (tree : FileTree) (path : Path) : Except FileFault (List String) :=
  match tree.locate path with
  | .error fault => .error fault
  | .ok location =>
    if tree.node? location ≠ some .directory then .error .notDirectory
    else if location ∈ tree.sealed then .error .unreadable
    else .ok (tree.names location)

def makeAlong (tree : FileTree) : FileLocation → List String → Except FileFault FileTree
  | location, pieces =>
    match pieces with
    | [] => .ok tree
    | piece :: rest =>
      if piece = "" ∨ piece = "." then makeAlong tree location rest
      else if piece = ".." then makeAlong tree location.dropLast rest
      else
        let next := location ++ [piece]
        match tree.node? next with
        | some .directory => makeAlong tree next rest
        | some (.file _) | some .special => .error .notDirectory
        | none => makeAlong (tree.set next .directory) next rest

def trimEnd (pieces : List String) : List String :=
  (pieces.reverse.dropWhile fun piece => piece = "" ∨ piece = ".").reverse

def parentPieces (path : Path) : List String :=
  (trimEnd path.pieces).dropLast

def isAccepted (pieces : List String) : Bool :=
  isShort ⟨"/".intercalate pieces⟩ && pieces.all isValidPiece

def makeDirectory (tree : FileTree) (path : Path) : Except FileFault FileTree :=
  if isAccepted path.pieces then tree.makeAlong (tree.startOf path) path.pieces
  else .error .invalidPath

def makeParent (tree : FileTree) (path : Path) : Except FileFault FileTree :=
  if isAccepted (trimEnd (parentPieces path)) then
    tree.makeAlong (tree.startOf path) (parentPieces path)
  else .error .invalidPath

/-- Makes an empty file where a path leads, in place of a file that is there, and gives its
location. -/
def create (tree : FileTree) (path : Path) : Except FileFault (FileLocation × FileTree) :=
  match tree.locate path with
  | .error fault => .error fault
  | .ok location =>
    match tree.node? location with
    | some .directory => .error .isDirectory
    | some .special => .error .unreadable
    | _ => .ok (location, tree.set location (.file []))

def append (tree : FileTree) (location : FileLocation) (chunk : Bytes) : FileTree :=
  match tree.node? location with
  | some (.file bytes) => tree.set location (.file (bytes ++ chunk))
  | _ => tree

def write (tree : FileTree) (path : Path) (bytes : Bytes) : Except FileFault FileTree :=
  match tree.makeParent path with
  | .error fault => .error fault
  | .ok withParent =>
    match withParent.create path with
    | .error fault => .error fault
    | .ok (location, created) => .ok (created.append location bytes)

def filesBelow (tree : FileTree) (location : FileLocation) : List (FileLocation × Bytes) :=
  tree.entries.filterMap fun (place, node) =>
    match node with
    | .directory | .special => none
    | .file bytes =>
      if location.isPrefixOf place then some (place.drop location.length, bytes) else none

/-- Every file below a directory, by its path from there, in the order of the paths as texts. -/
def listing (tree : FileTree) (directory : Path) : List (String × Bytes) :=
  match tree.canonical? directory with
  | none => []
  | some location =>
    let found := (tree.filesBelow location).map fun (rest, bytes) =>
      ((directory.join ⟨"/".intercalate rest⟩).text, bytes)
    found.mergeSort fun a b => !(b.1 < a.1)

def writeArtifacts (directory : Path) (artifacts : List OutputUnit) (tree : FileTree) :
    Except FileFault FileTree :=
  artifacts.foldlM (fun tree output =>
    tree.write (directory.join ⟨Name.toPathText output.name ++ ArtifactKind.unit.extension⟩)
      output.bytes) tree

end FileTree

end UnitForge
