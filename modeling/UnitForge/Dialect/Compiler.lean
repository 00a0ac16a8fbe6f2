import UnitForge.Config
import UnitForge.Compilation.Toolchain
import UnitForge.Dialect.Lowering
import UnitForge.Files.Standard
import UnitForge.Source.Grammar.Items

/-! # The unit compiler

Compiles sources to the images of their structs. Nothing is written before all sources are known to
be free of errors; then the images are written in the order of the sources and their structs. -/
set_option autoImplicit false
namespace UnitForge

open Source

namespace UnitCompiler

variable {σ : Type} (manager : FileManager σ)

def arity? (option : String) : Option Nat :=
  if option = noWarningsFlag ∨ option = denyWarningsFlag then some 0 else none

/-! ## Options -/

def complain (problem : Problem) : Check σ Unit :=
  Session.report (problem.diagnostic none none)

def handOver (option : String) (values : List String) : Check σ Bool := do
  match ← Session.onFiles (manager.handleOption option values) with
  | .ok true => return true
  | .ok false =>
    complain (.refusedOption option)
    return false
  | .error fault =>
    complain (.invalidValue option fault.message)
    return false

/-- Takes options from the front; tells whether all were accepted. An option without its values
ends the search. -/
def applyOptions : List String → Check σ Bool
  | [] => return true
  | option :: rest => do
    if option = noWarningsFlag then
      modify fun session => { session with policy := { session.policy with suppress := true } }
      applyOptions rest
    else if option = denyWarningsFlag then
      modify fun session => { session with policy := { session.policy with deny := true } }
      applyOptions rest
    else
      match ← Session.ask (manager.arityOf option) with
      | none =>
        complain (.unknownOption option)
        let _ ← applyOptions rest
        return false
      | some count =>
        if rest.length < count then
          complain (.missingValues option count)
          return false
        else
          let accepted ← handOver manager option (rest.take count)
          let others ← applyOptions (rest.drop count)
          return accepted && others
  termination_by options => options.length
  decreasing_by all_goals (simp only [List.length_cons, List.length_drop]; omega)

/-! ## Sources -/

def analyse (unit : SourceUnit) : Check σ (Option (List UnitImage)) := do
  match File.parse? unit.text with
  | .error pos =>
    Session.complain unit.uri pos .malformedSource
    return none
  | .ok file =>
    let before := (← get).errors
    let decls ← Declarations.collect manager file unit
    let sigs ← UnitSig.ofDeclarations manager decls
    let images ← UnitSig.lowerAll manager decls sigs
    return if (← get).errors = before then images else none

def emit (unit : SourceUnit) (image : UnitImage) : Check σ Unit := do
  let written ← Session.onFiles do
    let sink ← manager.output .classOutput image.name .unit (some unit)
    sink.writeAll image.encode
    sink.flush
  match written with
  | .ok () => return ()
  | .error fault =>
    let problem := Problem.unwritten image.name fault.message
    Session.report (problem.diagnostic (some unit.uri) none)

def emitAll (analysed : List (SourceUnit × List UnitImage)) : Check σ Unit := do
  analysed.forM fun (unit, images) => images.forM (emit manager unit)
  match ← Session.onFiles manager.flush with
  | .ok () => return ()
  | .error fault => complain (.unflushed fault.message)

def analyseAll (units : List SourceUnit) : Check σ (List (SourceUnit × List UnitImage)) :=
  units.filterMapM fun unit => do
    return (← analyse manager unit).map fun images => (unit, images)

def carryOut (task : CompilationTask) : Check σ Bool := do
  if !(← applyOptions manager task.options) then return false
  let analysed ← analyseAll manager task.units
  if (← get).errors > 0 then return false
  emitAll manager analysed
  return (← get).errors = 0

def compile (task : CompilationTask) : StateM σ Verdict := fun files =>
  let (succeeded, session) := carryOut manager task (.start files)
  ({ succeeded, diagnostics := session.delivered }, session.files)

end UnitCompiler

def unitCompiler : Toolchain StandardFiles where
  name := "unitc"
  version := "0.1.0"
  arity? := UnitCompiler.arity?
  files := StandardFiles.manager
  openFiles := .ofTree
  tree := StandardFiles.tree
  compile manager task := UnitCompiler.compile manager task

end UnitForge
