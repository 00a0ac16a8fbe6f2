import UnitForge.Config
import UnitForge.Compilation.Toolchain
import UnitForge.Error
import UnitForge.Files.Memory
import UnitForge.Value

/-! # Compilation attempts

One compilation of one source, in memory. Every attempt has a memory store of its own over a new
standard file manager of the toolchain, and ends the use of it whatever the outcome. -/
set_option autoImplicit false
namespace UnitForge

/-- What a successful compilation gives: every artifact that was written, and what was reported
along the way. -/
structure CompiledUnit where
  name : String
  artifacts : ArtifactTable
  diagnostics : List Diagnostic
  deriving DecidableEq, Repr

namespace Compilation

/-- Only dotted sequences of identifiers name units. -/
def validateName (name : String) : Except Error Unit :=
  if Name.isLogical name then .ok () else .error (.invalidArgument (.malformedName name))

def origins : List String → List UnitType → Except Error (List String)
  | known, [] => .ok known
  | known, unit :: rest =>
    match unit.origin with
    | none => .error (.invalidArgument (.noOrigin unit.name))
    | some path =>
      origins (if known.contains path.text then known else known ++ [path.text]) rest

def optionsFor (config : CompilerConfig) (dependencies : List UnitType) :
    Except Error (List String) := do
  return ClassPath.merge config.options (← origins [] dependencies)

/-- The outcome of an attempt: its result, the warnings that were logged, and the state of the
toolchain's file manager at the end. -/
structure Attempt (σ : Type) where
  result : Except Error CompiledUnit
  log : List String
  files : σ

variable {σ : Type}

def runToolchain (toolchain : Toolchain σ) (logDiagnostics : Bool) (options : List String)
    (unit : SourceUnit) (files : σ) : Attempt σ :=
  let task : CompilationTask := { options, units := [unit] }
  let (verdict, store) :=
    toolchain.compile (MemoryStore.manager toolchain.files) task (.ofInner files)
  let artifacts := store.artifacts
  let (released, store) := store.drop toolchain.files
  if verdict.succeeded then
    let diagnostics := verdict.diagnostics
    let told := if logDiagnostics then diagnostics.map Diagnostic.line else []
    { result := .ok { name := unit.name, artifacts, diagnostics }, log := released ++ told,
      files := store.inner }
  else
    { result := .error (.compilationFailed unit.name verdict.diagnostics), log := released,
      files := store.inner }

def compile (toolchain : Toolchain σ) (config : CompilerConfig) (tree : FileTree)
    (name source : String) (dependencies : List UnitType) : Attempt σ :=
  let files := toolchain.openFiles tree
  match do validateName name; optionsFor config dependencies with
  | .error error => { result := .error error, log := [], files }
  | .ok options =>
    runToolchain toolchain config.logDiagnostics options { name, text := source } files

end Compilation

end UnitForge
