import UnitForge.Files.Path
import UnitForge.Artifact

/-! # File managers

What stands between a toolchain and its files. A manager has a state of any kind; an operation may
change it and may fail, and what it changed before it failed stays changed. There are questions that
a manager always answers, but even they may change its state. -/
set_option autoImplicit false
namespace UnitForge

inductive FileError where
  | system
  | explained (message : String)
  deriving DecidableEq, Repr

def FileError.message : FileError → String
  | system => "system error"
  | explained message => message

inductive Location where
  | sourcePath
  | classPath
  | classOutput
  deriving DecidableEq, Repr

def Location.label : Location → String
  | sourcePath => "source path"
  | classPath => "class path"
  | classOutput => "class output"

structure FileObject where
  kind : ArtifactKind
  path : Path
  root : Path
  deriving DecidableEq, Repr

namespace FileObject

def uri (file : FileObject) : String :=
  "file://" ++ file.path.text

def isNamed (file : FileObject) (simpleName : String) (kind : ArtifactKind) : Bool :=
  kind = file.kind &&
    match file.path.fileName? with
    | some name => Text.stripSuffix? kind.extension name = some simpleName
    | none => false

end FileObject

abbrev FileOp (σ : Type) := ExceptT FileError (StateM σ)

abbrev FileQuery (σ : Type) := StateM σ

structure Sink (σ : Type) where
  write : Bytes → FileOp σ Unit
  flush : FileOp σ Unit

/-- Writes a whole chunk; an empty one does not reach the sink. -/
def Sink.writeAll {σ : Type} (sink : Sink σ) (chunk : Bytes) : FileOp σ Unit :=
  if chunk.isEmpty then pure () else sink.write chunk

structure FileManager (σ : Type) where
  /-- The number of values that an option takes, if it is known. -/
  arityOf : String → FileQuery σ (Option Nat)
  /-- Takes an option with its values; tells whether it was accepted. -/
  handleOption : String → List String → FileOp σ Bool
  offers : Location → FileQuery σ Bool
  /-- The files of some kinds in a package, and in those inside it if asked for. -/
  list : Location → String → List ArtifactKind → Bool → FileOp σ (List FileObject)
  /-- The name of the unit that a file is taken for. -/
  nameOf : Location → FileObject → FileQuery σ (Option String)
  isSame : FileObject → FileObject → FileQuery σ Bool
  /-- The file of a unit, if there is one. -/
  input : Location → String → ArtifactKind → FileOp σ (Option FileObject)
  read : FileObject → FileOp σ Bytes
  output : Location → String → ArtifactKind → Option SourceUnit → FileOp σ (Sink σ)
  flush : FileOp σ Unit
  close : FileOp σ Unit

namespace FileManager

variable {σ : Type} (manager : FileManager σ) (files : σ)

/-! The answers to questions, apart from what asking changes. -/

def arity? (option : String) : Option Nat :=
  (manager.arityOf option files).1

def hasLocation (location : Location) : Bool :=
  (manager.offers location files).1

def inferName? (location : Location) (file : FileObject) : Option String :=
  (manager.nameOf location file files).1

def isSameFile (a b : FileObject) : Bool :=
  (manager.isSame a b files).1

end FileManager

section Within
variable {σ τ α : Type} (get : τ → σ) (set : σ → τ → τ)

def FileQuery.within (query : FileQuery σ α) : FileQuery τ α := fun whole =>
  let (answer, part) := query (get whole)
  (answer, set part whole)

def FileOp.within (op : FileOp σ α) : FileOp τ α :=
  FileQuery.within get set op

end Within

end UnitForge
