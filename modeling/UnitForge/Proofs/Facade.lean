import UnitForge.Workspace
import UnitForge.Proofs.Files.Memory
import UnitForge.Proofs.Image.RoundTrip
import UnitForge.Proofs.Loading.Fresh

/-! # Compiling and loading

What a compiler that loads its results gives for the name that it was asked for. If the source
declares a struct of that full name, it is a unit that a new loader has defined from the image of
that struct. If it does not, whatever the parent has under the name is given instead. -/
set_option autoImplicit false
namespace UnitForge

open Step

namespace Compilation

theorem runToolchain_run {σ : Type} {toolchain : Toolchain σ} {options : List String}
    {unit : SourceUnit} {files : σ} {verdict : Verdict} {store : MemoryStore σ}
    (ran : toolchain.compile (MemoryStore.manager toolchain.files) { options, units := [unit] }
      (.ofInner files) = (verdict, store)) (logDiagnostics : Bool) :
    let attempt := runToolchain toolchain logDiagnostics options unit files
    attempt.files = (store.drop toolchain.files).2.inner ∧
      attempt.result = if verdict.succeeded then
          .ok { name := unit.name, artifacts := store.artifacts, diagnostics := verdict.diagnostics }
        else .error (.compilationFailed unit.name verdict.diagnostics) := by
  simp only [runToolchain, ran]
  cases verdict.succeeded with
  | true => exact ⟨rfl, rfl⟩
  | false => exact ⟨rfl, rfl⟩

/-- A successful attempt leaves the image of every struct of the source, and nothing else. -/
theorem compile_run {config : CompilerConfig} {tree : FileTree} {name source : String}
    {dependencies : List UnitType} {compiled : CompiledUnit}
    (run : (compile unitCompiler config tree name source dependencies).result = .ok compiled) :
    compiled.name = name ∧ ∃ images last,
      Nonempty (UnitCompiler.Analysed (MemoryStore.manager StandardFiles.manager)
        { name, text := source } images last) ∧
      (∀ image ∈ images,
        compiled.artifacts.get? image.name = some (MemoryStore.artifactOf image)) ∧
      ∀ other, other ∉ images.map UnitImage.name → compiled.artifacts.get? other = none := by
  unfold compile at run
  dsimp only at run
  split at run
  · cases run
  · rename_i options _
    have ran := run_eta (unitCompiler.compile (MemoryStore.manager StandardFiles.manager)
      { options, units := [{ name, text := source }] }) (.ofInner (.ofTree tree))
    change (runToolchain unitCompiler config.logDiagnostics options { name, text := source }
      (.ofTree tree)).result = .ok compiled at run
    rw [(runToolchain_run ran config.logDiagnostics).2] at run
    split at run
    · rename_i succeeded
      obtain ⟨images, last, analysed, written, others⟩ :=
        MemoryStore.compile_artifacts ran succeeded
      cases run
      exact ⟨rfl, images, last, analysed, written, others⟩
    · cases run

end Compilation

namespace RuntimeCompiler

open UnitForge.Action

variable {compiler : RuntimeCompiler} {workspace : Workspace} {name source : String}
  {dependencies : List UnitType}

theorem compile_run (choice : compiler.toolchain = .unitCompiler)
    {answer : Except Error CompiledUnit} {after : Workspace}
    (run : compiler.compile name source dependencies workspace = (answer, after)) :
    after.world = workspace.world ∧ answer = (Compilation.compile unitCompiler compiler.config
      workspace.tree name source dependencies).result := by
  simp only [compile, choice] at run
  cases run
  exact ⟨rfl, rfl⟩

def hosting (unit : UnitType) : Workspace :=
  { Workspace.start .empty with
    world := { loaders := [.host [(unit.name, unit)]], nextUnit := unit.id + 1, nextInstance := 0 } }

end RuntimeCompiler

end UnitForge
