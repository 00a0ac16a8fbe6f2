import UnitForge.Files.Tree
import UnitForge.Files.Manager
import UnitForge.Diagnostic

/-! # Toolchains

A toolchain turns source units into artifacts. It sees files only through a file manager, of which
it brings a standard one with states `σ`, and it answers with a verdict and its diagnostics. -/
set_option autoImplicit false
namespace UnitForge

structure CompilationTask where
  options : List String
  units : List SourceUnit
  deriving DecidableEq, Repr

/-- The outcome of a task: whether it succeeded, and the diagnostics in the order of delivery. -/
structure Verdict where
  succeeded : Bool
  diagnostics : List Diagnostic
  deriving DecidableEq, Repr

structure Toolchain (σ : Type) where
  name : String
  version : String
  arity? : String → Option Nat
  files : FileManager σ
  openFiles : FileTree → σ
  tree : σ → FileTree
  compile : {τ : Type} → FileManager τ → CompilationTask → StateM τ Verdict

end UnitForge
