import UnitForge.Name

/-! # Artifacts

What a compilation reads and writes: source units, the output units that a toolchain fills with
bytes, and the table of the outputs of one attempt, kept in the order of their names. -/
set_option autoImplicit false
namespace UnitForge

abbrev Bytes := List UInt8

inductive ArtifactKind where
  | source
  | unit
  | other
  deriving DecidableEq, Repr, Inhabited

namespace ArtifactKind

def extension : ArtifactKind → String
  | source => ".rs"
  | unit => ".unit"
  | other => ""

def ofFileName (name : String) : ArtifactKind :=
  if Text.endsWith source.extension name then source
  else if Text.endsWith unit.extension name then unit
  else other

def label : ArtifactKind → String
  | source => "Source"
  | unit => "Unit"
  | other => "Other"

end ArtifactKind

/-- The scheme of the URIs of units that exist in memory only. -/
def memoryScheme : String := "memo"

/-- The URI under which an artifact in memory is known, such as `memo:///demo/Counter.unit`. -/
def memoryUri (name : String) (kind : ArtifactKind) : String :=
  memoryScheme ++ ":///" ++ Name.toPathText name ++ kind.extension

structure SourceUnit where
  name : String
  text : String
  deriving DecidableEq, Repr

namespace SourceUnit

def uri (unit : SourceUnit) : String :=
  memoryUri unit.name .source

def package (unit : SourceUnit) : String :=
  Name.package unit.name

def simpleName (unit : SourceUnit) : String :=
  Name.simple unit.name

end SourceUnit

/-- One artifact, with the bytes written to it so far. -/
structure OutputUnit where
  name : String
  kind : ArtifactKind
  bytes : Bytes
  deriving DecidableEq, Repr

namespace OutputUnit

def empty (name : String) (kind : ArtifactKind) : OutputUnit :=
  { name, kind, bytes := [] }

def uri (output : OutputUnit) : String :=
  memoryUri output.name output.kind

def append (output : OutputUnit) (chunk : Bytes) : OutputUnit :=
  { output with bytes := output.bytes ++ chunk }

end OutputUnit

/-- The artifacts of one compilation attempt: at most one for each name, sorted by name. -/
structure ArtifactTable where
  outputs : List OutputUnit
  deriving DecidableEq, Repr

namespace ArtifactTable

def empty : ArtifactTable := ⟨[]⟩

def get? (table : ArtifactTable) (name : String) : Option OutputUnit :=
  table.outputs.find? (·.name = name)

def contains (table : ArtifactTable) (name : String) : Bool :=
  (table.get? name).isSome

/-- Places an artifact before the first one with a later name. -/
def place (output : OutputUnit) : List OutputUnit → List OutputUnit
  | [] => [output]
  | first :: rest =>
    if output.name < first.name then output :: first :: rest
    else first :: place output rest

def erase (table : ArtifactTable) (name : String) : ArtifactTable :=
  ⟨table.outputs.filter (·.name ≠ name)⟩

/-- The table with an artifact in the place of the one of the same name, if there is one. -/
def insert (table : ArtifactTable) (output : OutputUnit) : ArtifactTable :=
  ⟨place output (table.erase output.name).outputs⟩

def append (table : ArtifactTable) (name : String) (chunk : Bytes) : ArtifactTable :=
  ⟨table.outputs.map fun output => if output.name = name then output.append chunk else output⟩

def names (table : ArtifactTable) : List String :=
  table.outputs.map (·.name)

def size (table : ArtifactTable) : Nat :=
  table.outputs.length

def totalBytes (table : ArtifactTable) : Nat :=
  table.outputs.foldl (fun total output => total + output.bytes.length) 0

end ArtifactTable

end UnitForge
