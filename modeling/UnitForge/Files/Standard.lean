import UnitForge.ClassPath
import UnitForge.Files.Tree
import UnitForge.Files.Manager

/-! # The standard file manager

Finds units below the directories of a class path and writes outputs below an output directory, if
one is given. -/
set_option autoImplicit false
namespace UnitForge

def outputDirFlag : String := "-d"

structure StandardFiles where
  classPath : List Path
  outputDir : Option Path
  tree : FileTree
  deriving DecidableEq, Repr

namespace StandardFiles

def ofTree (tree : FileTree) : StandardFiles :=
  { classPath := [], outputDir := none, tree }

def roots (files : StandardFiles) : Location → List Path
  | .classPath => files.classPath
  | .classOutput => files.outputDir.toList
  | .sourcePath => []

def relativePath (name : String) (kind : ArtifactKind) : Path :=
  ⟨Name.toPathText name ++ kind.extension⟩

def addEntry (classPath : List Path) (entry : Path) : List Path :=
  if classPath.any (·.same entry) then classPath else classPath ++ [entry]

def handleOption (option : String) (values : List String) : FileOp StandardFiles Bool := do
  match values with
  | [] => throw (.explained s!"option `{option}` requires a value")
  | value :: _ =>
    if option ∈ ClassPath.flags then
      let entries := (ClassPath.entries value).map Path.mk
      modify fun files => { files with classPath := entries.foldl addEntry files.classPath }
      return true
    else if option = outputDirFlag then
      modify fun files => { files with outputDir := some ⟨value⟩ }
      return true
    else return false

/-- The entries of some kinds in a directory, and below it if asked for; whatever is no directory
counts. The depth of the tree is bounded by the number of its nodes. -/
def filesIn (tree : FileTree) (root : Path) (kinds : List ArtifactKind) (recurse : Bool) :
    Nat → Path → Except FileFault (List FileObject)
  | 0, _ => .ok []
  | depth + 1, directory => do
    let names ← tree.readDirectory directory
    let found ← names.mapM fun name =>
      let path := directory.join ⟨name⟩
      if tree.isDirectory path then
        if recurse then filesIn tree root kinds recurse depth path else .ok []
      else
        let kind := ArtifactKind.ofFileName name
        .ok (if kinds.contains kind then [{ kind, path, root }] else [])
    return found.flatten

def packageDir (root : Path) (package : String) : Path :=
  if package.isEmpty then root else root.join ⟨Name.toPathText package⟩

def filesBelowRoot (tree : FileTree) (package : String) (kinds : List ArtifactKind)
    (recurse : Bool) (root : Path) : Except FileFault (List FileObject) :=
  let directory := packageDir root package
  if tree.isDirectory directory then
    filesIn tree root kinds recurse (tree.entries.length + 1) directory
  else .ok []

def list (files : StandardFiles) (location : Location) (package : String)
    (kinds : List ArtifactKind) (recurse : Bool) : Except FileFault (List FileObject) := do
  let found ← (files.roots location).mapM (filesBelowRoot files.tree package kinds recurse)
  return found.flatten.mergeSort fun a b => a.path.isAtMost b.path

def inferName? (files : StandardFiles) (location : Location) (file : FileObject) :
    Option String := do
  guard ((files.roots location).any (·.same file.root))
  let relative ← file.path.stripBase? file.root
  let stem ← Text.stripSuffix? file.kind.extension relative
  return Text.replaceChar '\\' "." (Text.replaceChar '/' "." stem)

/-- Whether two file objects lead to the same file, or have the same path if one leads nowhere. -/
def isSameFile (files : StandardFiles) (a b : FileObject) : Bool :=
  match files.tree.canonical? a.path, files.tree.canonical? b.path with
  | some x, some y => x = y
  | _, _ => a.path.same b.path

def input (files : StandardFiles) (location : Location) (name : String) (kind : ArtifactKind) :
    Option FileObject :=
  (files.roots location).findSome? fun root =>
    let path := root.join (relativePath name kind)
    if files.tree.isFile path then some { kind, path, root } else none

def onTree {α : Type} (op : FileTree → Except FileFault (α × FileTree)) :
    FileOp StandardFiles α := do
  let files ← get
  match op files.tree with
  | .ok (result, tree) =>
    set { files with tree }
    return result
  | .error _ => throw .system

def output (location : Location) (name : String) (kind : ArtifactKind) :
    FileOp StandardFiles (Sink StandardFiles) := do
  match location, (← get).outputDir with
  | .classOutput, some directory =>
    let path := directory.join (relativePath name kind)
    onTree fun tree => (tree.makeParent path).map fun tree => ((), tree)
    let place ← onTree fun tree => tree.create path
    return {
      write := fun chunk => modify fun files => { files with tree := files.tree.append place chunk }
      flush := pure () }
  | _, _ =>
    throw (.explained
      s!"no {location.label} configured for `{name}`; pass {outputDirFlag} <dir>")

def manager : FileManager StandardFiles where
  arityOf option :=
    return if option ∈ ClassPath.flags ∨ option = outputDirFlag then some 1 else none
  handleOption := handleOption
  offers location := return !((← get).roots location).isEmpty
  list location package kinds recurse := do
    match (← get).list location package kinds recurse with
    | .ok found => return found
    | .error _ => throw .system
  nameOf location file := return (← get).inferName? location file
  isSame a b := return (← get).isSameFile a b
  input location name kind := do
    return (← get).input location name kind
  read file := onTree fun tree => (tree.read file.path).map fun bytes => (bytes, tree)
  output location name kind _ := output location name kind
  flush := pure ()
  close := pure ()

end StandardFiles

end UnitForge
