import UnitForge.Compilation.Prepared
import UnitForge.Evaluation.Construct
import UnitForge.Compilation.Attempt
import UnitForge.Dialect.Compiler

/-! # Compilers at run time

Compiling sources and loading the results into a running process. A workspace is all that this
works on: the loaders, the files, the warnings logged so far, and what prepared toolchains were
asked for. -/
set_option autoImplicit false
namespace UnitForge

/-- What a prepared toolchain or its file manager was asked for. -/
inductive ToolchainCall where
  | compile (options : List String) (unit : SourceUnit)
  | file (call : FileCall)
  deriving DecidableEq, Repr

/-- A process in which units are compiled and loaded. -/
structure Workspace where
  world : World
  tree : FileTree
  log : List String
  calls : List ToolchainCall
  deriving Repr

/-- A step in a workspace, which may fail; what it changed before it failed stays. -/
abbrev Work := ExceptT Error (StateM Workspace)

namespace Workspace

def start (tree : FileTree) : Workspace :=
  { world := .start, tree, log := [], calls := [] }

def onWorld {α : Type} (action : Action α) : Work α := fun workspace =>
  let (result, world) := action workspace.world
  (result, { workspace with world })

end Workspace

/-- The toolchains that a compiler can have. -/
inductive ToolchainChoice where
  | unitCompiler
  | prepared (answer : PreparedAnswer)
  deriving Repr

def ToolchainChoice.name : ToolchainChoice → String
  | unitCompiler => UnitForge.unitCompiler.name
  | prepared answer => answer.toolchain.name

/-- A compiler that loads what it compiles. Its loaders leave unknown names to `parent`. -/
structure RuntimeCompiler where
  toolchain : ToolchainChoice
  config : CompilerConfig
  parent : LoaderId
  deriving Repr

namespace RuntimeCompiler

open Workspace

def ofConfig (config : CompilerConfig) : RuntimeCompiler :=
  { toolchain := .unitCompiler, config, parent := World.systemHost }

def optionsFor (compiler : RuntimeCompiler) (dependencies : List UnitType) :
    Except Error (List String) :=
  Compilation.optionsFor compiler.config dependencies

def compile (compiler : RuntimeCompiler) (name source : String) (dependencies : List UnitType) :
    Work CompiledUnit := fun workspace =>
  let { config, .. } := compiler
  match compiler.toolchain with
  | .unitCompiler =>
    let attempt :=
      Compilation.compile unitCompiler config workspace.tree name source dependencies
    (attempt.result, { workspace with
      tree := unitCompiler.tree attempt.files
      log := workspace.log ++ attempt.log })
  | .prepared answer =>
    let toolchain := answer.toolchain
    let attempt := Compilation.compile toolchain config workspace.tree name source dependencies
    let asked := match do Compilation.validateName name; compiler.optionsFor dependencies with
      | .ok options => [ToolchainCall.compile options { name, text := source }]
      | .error _ => []
    (attempt.result, { workspace with
      tree := toolchain.tree attempt.files
      log := workspace.log ++ attempt.log
      calls := workspace.calls ++ asked ++ attempt.files.calls.map .file })

def load (compiled : CompiledUnit) (parent : LoaderId) : Action UnitType := do
  let loader ← Action.newLoader parent compiled.artifacts
  Action.resolve loader compiled.name

def compileToType (compiler : RuntimeCompiler) (name source : String)
    (dependencies : List UnitType) : Work UnitType := do
  let compiled ← compiler.compile name source dependencies
  onWorld (load compiled compiler.parent)

/-- Compiles, loads and constructs with the constructor whose parameters take the arguments. None
of them may be null, which is found out first. -/
def compileToInstance (compiler : RuntimeCompiler) (name source : String)
    (dependencies : List UnitType) (args : List Value) : Work Instance := do
  match args.findIdx? Value.isNull with
  | some index => throw (.invalidArgument (.nullArgument index))
  | none =>
    let unit ← compiler.compileToType name source dependencies
    onWorld (Evaluation.construct Evaluation.maxConstructDepth unit args)

def inspect (compiler : RuntimeCompiler) : String :=
  let options := ", ".intercalate (compiler.config.options.map Text.quoted)
  s!"RuntimeCompiler \x7b toolchain: {Text.quoted compiler.toolchain.name}, " ++
    s!"config: CompilerConfig \x7b options: [{options}], " ++
    s!"log_diagnostics: {compiler.config.logDiagnostics} \x7d \x7d"

end RuntimeCompiler

end UnitForge
