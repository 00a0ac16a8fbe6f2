import UnitForge.Proofs.Compiler.Layout
import UnitForge.Proofs.Dialect.Reordering
import UnitForge.Proofs.Source.Equality

/-! # Compiling declarations in another order

A source and another one with the same items in another order compile alike, as long as the impl
blocks of each struct keep their order: both fail, or both give the same artifacts and the same
diagnostics, which differ in their places and their order alone. -/
set_option autoImplicit false
namespace UnitForge

open Source Step

variable {σ : Type}

/-- The same artifacts under each name, and diagnostics that differ in their places and their order
alone. -/
structure SameResults (artifacts artifacts' : ArtifactTable)
    (diagnostics diagnostics' : List Diagnostic) : Prop where
  found : ∀ name, artifacts.get? name = artifacts'.get? name
  outputs : artifacts.outputs.Perm artifacts'.outputs
  told : (diagnostics.map Diagnostic.unplaced).Perm (diagnostics'.map Diagnostic.unplaced)

namespace UnitCompiler

open Session

section Images
variable {manager : FileManager σ} {files : σ} {policy : WarningPolicy}
  {answers : ClassPathAnswers manager files policy} {file other : File} {session : Session σ}

theorem wellDeclared_of_clean {unit : SourceUnit}
    (clean : (images manager file unit session).2.Clean) : file.WellDeclared := by
  obtain ⟨decls, first, collects, run⟩ := bind_run (run_eta (images manager file unit) session)
  obtain ⟨sigs, second, signs, lowers⟩ := bind_run run
  have signed : first.Extends manager second := (UnitSig.ofDeclarations_run signs).1
  have lowered := (UnitSig.lowerAll_run lowers).1
  exact Declarations.collect_clean collects (signed.clean (lowered.clean clean))

theorem images_reordered (ready : session.Ready answers)
    (reordered : file.unplaced.Reordered other.unplaced) {unit : SourceUnit}
    (clean : (images manager file unit session).2.Clean) :
    Option.Rel List.Perm (images manager file unit session).1
        (images manager other unit session).1 ∧
      ((images manager file unit session).2.delivered.map Diagnostic.unplaced).Perm
        ((images manager other unit session).2.delivered.map Diagnostic.unplaced) := by
  have start : (session.relocate .erase).Ready answers := { ready with }
  have here := images_unplaced manager file unit session
  have there := images_unplaced manager other unit session
  have still : (images manager file.unplaced unit (session.relocate .erase)).2.Clean := by
    rw [here]
    exact (clean_relocate _ _).mpr clean
  have balanced := (images_balanced (wellDeclared_of_clean still) reordered unit).run start
  rwa [here, there] at balanced

end Images

section Standard
variable {files : StandardFiles} {options : List String} {unit unit' : SourceUnit}
  {file other : File} {images : List UnitImage} {prepared : Session StandardFiles}
  (named : unit'.name = unit.name) (parsed : File.parse? unit.text = .ok file)
  (parsed' : File.parse? unit'.text = .ok other)
  (reordered : file.unplaced.Reordered other.unplaced)
include named parsed parsed' reordered

theorem PreparedOnDisk.reorder (prepares : PreparedOnDisk options unit files images prepared) :
    ∃ images' prepared', PreparedOnDisk options unit' files images' prepared' ∧
      images.Perm images' ∧ (prepared.delivered.map Diagnostic.unplaced).Perm
        (prepared'.delivered.map Diagnostic.unplaced) := by
  apply prepares.exchange (T := fun told told' =>
    (told.map Diagnostic.unplaced).Perm (told'.map Diagnostic.unplaced)) named parsed parsed'
  intro opened accepted here there clean
  obtain ⟨answers, ready⟩ := exists_ready accepted
  obtain ⟨same, perm⟩ := images_reordered ready reordered clean
  exact ⟨same, perm, clean_of_unplaced perm clean⟩

variable (unit unit') in
/-- A source that compiles in memory does so in another order, with the same artifacts and the same
diagnostics. -/
theorem compile_reorder
    (succeeded : (compile (MemoryStore.manager StandardFiles.manager)
      { options, units := [unit] } (.ofInner files)).1.succeeded = true) :
    let outcome := compile (MemoryStore.manager StandardFiles.manager)
      { options, units := [unit] } (.ofInner files)
    let outcome' := compile (MemoryStore.manager StandardFiles.manager)
      { options, units := [unit'] } (.ofInner files)
    outcome'.1.succeeded = true ∧ SameResults outcome.2.artifacts outcome'.2.artifacts
      outcome.1.diagnostics outcome'.1.diagnostics := by
  obtain ⟨images, prepared, source⟩ := preparedOnDisk_of_captured succeeded
  obtain ⟨images', prepared', source', perm, told⟩ :=
    source.reorder named parsed parsed' reordered
  refine ⟨source'.captured_succeeded, ?_⟩
  rw [source.captured_artifacts, source'.captured_artifacts, source.captured_diagnostics,
    source'.captured_diagnostics]
  refine ⟨?_, ?_, told⟩
  · intro name
    have last : MemoryStore.lastNamed name images = MemoryStore.lastNamed name images' := by
      have back : images'.reverse.Perm images.reverse :=
        images'.reverse_perm.trans (perm.symm.trans images.reverse_perm.symm)
      refine find?_of_perm back ?_ name
      rw [List.map_reverse, List.nodup_reverse]
      exact source'.distinct
    rw [MemoryStore.get?_foldl_putImage, MemoryStore.get?_foldl_putImage, last]
  · have first : (images.foldl MemoryStore.putImage .empty).outputs.Perm
        (images.map MemoryStore.artifactOf) :=
      MemoryStore.foldl_putImage_perm source.distinct
    have second : (images'.foldl MemoryStore.putImage .empty).outputs.Perm
        (images'.map MemoryStore.artifactOf) :=
      MemoryStore.foldl_putImage_perm source'.distinct
    exact first.trans ((perm.map _).trans second.symm)

end Standard

end UnitCompiler

/-! ## Attempts -/

namespace Compilation

variable {config : CompilerConfig} {tree : FileTree} {name source other : String}
  {dependencies : List UnitType} {file twin : File}

theorem compile_chosen {options : List String}
    (chosen : (do validateName name; optionsFor config dependencies) = .ok options)
    (text : String) : (compile unitCompiler config tree name text dependencies).result =
      let outcome := UnitCompiler.compile (MemoryStore.manager StandardFiles.manager)
        { options, units := [{ name, text }] } (.ofInner (.ofTree tree))
      if outcome.1.succeeded then
        .ok { name, artifacts := outcome.2.artifacts, diagnostics := outcome.1.diagnostics }
      else .error (.compilationFailed name outcome.1.diagnostics) := by
  have ran := run_eta (unitCompiler.compile (MemoryStore.manager StandardFiles.manager)
    { options, units := [{ name, text }] }) (.ofInner (.ofTree tree))
  unfold compile
  rw [chosen]
  exact (runToolchain_run ran config.logDiagnostics).2

theorem compile_ok_reorder (parsed : File.parse? source = .ok file)
    (parsed' : File.parse? other = .ok twin) (reordered : file.unplaced.Reordered twin.unplaced)
    {compiled : CompiledUnit}
    (run : (compile unitCompiler config tree name source dependencies).result = .ok compiled) :
    ∃ compiled', (compile unitCompiler config tree name other dependencies).result =
        .ok compiled' ∧
      SameResults compiled.artifacts compiled'.artifacts compiled.diagnostics
        compiled'.diagnostics := by
  cases chosen : (do validateName name; optionsFor config dependencies : Except Error _) with
  | error fault =>
      unfold compile at run
      rw [chosen] at run
      cases run
  | ok options =>
      rw [compile_chosen chosen] at run
      dsimp only at run
      split at run
      · rename_i succeeded
        cases run
        obtain ⟨succeeded', same⟩ := UnitCompiler.compile_reorder { name, text := source }
          { name, text := other } rfl parsed parsed' reordered succeeded
        exact ⟨_, (compile_chosen chosen other).trans (if_pos succeeded'), same⟩
      · cases run

/-- The order of the items of a source does not matter, apart from the order of the impl blocks of
each struct. -/
theorem compile_reordered (config : CompilerConfig) (tree : FileTree) (name : String)
    (dependencies : List UnitType) (parsed : File.parse? source = .ok file)
    (parsed' : File.parse? other = .ok twin)
    (reordered : file.unplaced.Reordered twin.unplaced) :
    let first := (compile unitCompiler config tree name source dependencies).result
    let second := (compile unitCompiler config tree name other dependencies).result
    first.toBool = second.toBool ∧
      ∀ compiled compiled', first = .ok compiled → second = .ok compiled' →
        SameResults compiled.artifacts compiled'.artifacts compiled.diagnostics
          compiled'.diagnostics := by
  intro first second
  cases run : first with
  | error fault =>
      cases run' : second with
      | error fault => exact ⟨rfl, nofun⟩
      | ok compiled =>
          obtain ⟨_, absurd, -⟩ := compile_ok_reorder parsed' parsed reordered.symm run'
          cases run.symm.trans absurd
  | ok compiled =>
      obtain ⟨compiled', run', same⟩ := compile_ok_reorder parsed parsed' reordered run
      change second = .ok compiled' at run'
      rw [run']
      refine ⟨rfl, ?_⟩
      rintro _ _ ⟨⟩ ⟨⟩
      exact same

/-- A struct that is used before it is declared, and a parameter that nothing refers to. -/
def usesFirst : String :=
  "struct A\x7bb:C\x7d impl A\x7bfn new(b:C,n:i8)->A\x7bA\x7bb\x7d\x7d\x7d use d::B as C;struct B;"

def usesLast : String :=
  "struct B;use d::B as C;impl A\x7bfn new(b:C,n:i8)->A\x7bA\x7bb\x7d\x7d\x7d struct A\x7bb:C\x7d"

theorem usesLast_reordered : ∃ file twin, File.parse? usesFirst = .ok file ∧
    File.parse? usesLast = .ok twin ∧ file.unplaced.Reordered twin.unplaced := by
  have reversed : ((File.parse? usesFirst).toOption.bind fun file =>
      (File.parse? usesLast).toOption.map fun twin =>
        decide (file.unplaced.items = twin.unplaced.items.reverse ∧
          file.unplaced.blocks = twin.unplaced.blocks)) = some true := by
    decide +kernel
  cases parsed : File.parse? usesFirst with
  | error pos =>
      rw [parsed] at reversed
      cases reversed
  | ok file =>
      cases parsed' : File.parse? usesLast with
      | error pos =>
          rw [parsed, parsed'] at reversed
          cases reversed
      | ok twin =>
          rw [parsed, parsed'] at reversed
          obtain ⟨items, blocks⟩ := of_decide_eq_true (Option.some.inj reversed)
          refine ⟨file, twin, rfl, rfl, ?_, fun name => congrArg (List.filter _) blocks⟩
          rw [items]
          exact List.reverse_perm _

theorem compile_reordered_reverse :
    let compiles (source : String) := (compile unitCompiler .default .empty "d.A" source []).result
    ∃ compiled compiled', compiles usesFirst = .ok compiled ∧ compiles usesLast = .ok compiled' ∧
      compiled.diagnostics.map Diagnostic.severity = [.warning] ∧
      SameResults compiled.artifacts compiled'.artifacts compiled.diagnostics
        compiled'.diagnostics := by
  intro compiles
  obtain ⟨file, twin, parsed, parsed', reordered⟩ := usesLast_reordered
  have ⟨succeeded, same⟩ := compile_reordered .default .empty "d.A" [] parsed parsed' reordered
  have warned : (compiles usesFirst).map (·.diagnostics.map Diagnostic.severity) =
      .ok [.warning] := by
    decide +kernel
  change (compiles usesFirst).toBool = (compiles usesLast).toBool at succeeded
  cases first : compiles usesFirst with
  | error fault =>
      rw [first] at warned
      cases warned
  | ok compiled =>
      rw [first] at warned succeeded
      cases second : compiles usesLast with
      | error fault =>
          rw [second] at succeeded
          cases succeeded
      | ok compiled' =>
          exact ⟨compiled, compiled', rfl, rfl, Except.ok.inj warned,
            same compiled compiled' first second⟩

end Compilation

end UnitForge
