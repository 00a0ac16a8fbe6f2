import UnitForge.Proofs.Facade

/-! # Files under a compilation in memory

A memory store takes all outputs to itself and hands everything else down. What no look, no option
and no ending of the manager below changes is therefore the same after a compilation as it was
before, whatever comes of the compilation. For a compiler over the standard manager that is the
whole tree of files, an output directory among the options or not. -/
set_option autoImplicit false
namespace UnitForge

open Step

variable {σ : Type}

/-- A relation between the states of a manager that holds around all of its operations but
outputs. -/
structure FileManager.Keeps (manager : FileManager σ) (Q : σ → σ → Prop) : Prop where
  option : ∀ option values files, Q files (manager.handleOption option values files).2
  look : ∀ {before after}, manager.Looks before after → Q before after
  flush : ∀ files, Q files (manager.flush files).2
  close : ∀ files, Q files (manager.close files).2

namespace MemoryStore

open Session

variable {manager : FileManager σ} {Q : σ → σ → Prop}

def Below (Q : σ → σ → Prop) (before after : MemoryStore σ) : Prop :=
  Q before.inner after.inner

section Preorder
variable [IsPreorder σ Q]

instance : IsPreorder (MemoryStore σ) (Below Q) where
  refl _ := Std.Refl.refl (r := Q) _
  trans _ _ _ h k := IsTrans.trans (r := Q) _ _ _ h k

theorem below_of_looks (keeps : manager.Keeps Q) {before after : MemoryStore σ}
    (looks : Relation.ReflTransGen (MemoryStore.manager manager).Looks before after) :
    Below Q before after := by
  induction looks with
  | refl => exact Std.Refl.refl _
  | tail _ last ih =>
      apply IsTrans.trans _ _ _ ih
      cases last with
      | list => exact keeps.look (.list ..)
      | input => exact keeps.look (.input ..)
      | read => exact keeps.look (.read ..)
      | arity => exact keeps.look (.arity ..)
      | name => exact keeps.look (.name ..)

theorem applyOptions_below (keeps : manager.Keeps Q) (options : List String) :
    Within (Moves (Below Q)) (UnitCompiler.applyOptions (MemoryStore.manager manager) options) :=
  UnitCompiler.applyOptions_moves
    (fun option (store : MemoryStore σ) => keeps.look (.arity option store.inner))
    (fun option values (store : MemoryStore σ) => keeps.option option values store.inner) options

theorem analyseAll_below (keeps : manager.Keeps Q) (units : List SourceUnit) :
    Within (Moves (Below Q)) (UnitCompiler.analyseAll (MemoryStore.manager manager) units) := by
  intro before
  have run := run_eta (UnitCompiler.analyseAll (MemoryStore.manager manager) units) before
  have grown := (UnitCompiler.analyseAll_run run).1
  exact ⟨grown.delivered, below_of_looks keeps grown.files⟩

theorem emit_below (unit : SourceUnit) (image : UnitImage) :
    Within (Moves (Below Q)) (UnitCompiler.emit (MemoryStore.manager manager) unit image) := by
  intro before
  rw [emit_run]
  exact ⟨List.prefix_rfl, Std.Refl.refl (r := Q) _⟩

theorem emitAll_below (keeps : manager.Keeps Q) (answers : List (SourceUnit × List UnitImage)) :
    Within (Moves (Below Q)) (UnitCompiler.emitAll (MemoryStore.manager manager) answers) := by
  have flushes (store : MemoryStore σ) :
      Below Q store ((MemoryStore.manager manager).flush store).2 :=
    keeps.flush store.inner
  exact UnitCompiler.emitAll_within emit_below (onFiles_moves flushes) report_moves answers

theorem carryOut_below (keeps : manager.Keeps Q) (task : CompilationTask) :
    Within (Moves (Below Q)) (UnitCompiler.carryOut (MemoryStore.manager manager) task) := by
  apply (applyOptions_below keeps task.options).bind
  intro accepted
  refine .ite (.pure _) ?_
  apply (analyseAll_below keeps task.units).bind
  intro answers
  refine .bind .get ?_
  intro session
  exact .ite (.pure _) (.bind (emitAll_below keeps answers) fun _ => .bind .get fun _ => .pure _)

theorem drop_below (keeps : manager.Keeps Q) (store : MemoryStore σ) :
    Below Q store (store.drop manager).2 := by
  have closes : Below Q store (close manager store).2 := by
    cases closed : store.closed with
    | true =>
        have same : close manager store = (.ok (), store) := by
          simp only [close, except_get_run, closed]
          rfl
        rw [same]
        exact Std.Refl.refl _
    | false =>
        have asks : (close manager store).2.inner = (manager.close store.inner).2 := by
          simp only [close, except_get_run, closed]
          rfl
        unfold Below
        rw [asks]
        exact keeps.close store.inner
  unfold drop
  split
  · rename_i closed
    rwa [closed] at closes
  · rename_i closed
    rwa [closed] at closes

end Preorder

end MemoryStore

/-! ## The standard manager -/

namespace StandardFiles

/-- A later state of the manager over the same files and directories. -/
def SameTree (before after : StandardFiles) : Prop :=
  after.tree = before.tree

instance : IsPreorder StandardFiles SameTree where
  refl _ := rfl
  trans _ _ _ h k := k.trans h

theorem handleOption_sameTree (option : String) (values : List String) (files : StandardFiles) :
    SameTree files (handleOption option values files).2 := by
  unfold handleOption
  cases values with
  | nil => rfl
  | cons value _ =>
      dsimp only
      split
      · rfl
      · split
        · rfl
        · rfl

theorem eq_of_looks {before after : StandardFiles} (looks : manager.Looks before after) :
    after = before := by
  cases looks with
  | arity => rfl
  | list location package kinds recurse =>
      simp only [manager, except_get_run]
      cases before.list location package kinds recurse with
      | error fault => rfl
      | ok found => rfl
  | input => rfl
  | name => rfl
  | read file =>
      change (onTree _ before).2 = before
      simp only [onTree, except_get_run]
      cases before.tree.read file.path with
      | error fault => rfl
      | ok bytes => rfl

theorem eq_of_reflTransGen_looks {before after : StandardFiles}
    (looks : Relation.ReflTransGen manager.Looks before after) : after = before := by
  induction looks with
  | refl => rfl
  | tail _ last ih => exact (eq_of_looks last).trans ih

theorem keeps_sameTree : manager.Keeps SameTree where
  option := handleOption_sameTree
  look looks := congrArg tree (eq_of_looks looks)
  flush _ := rfl
  close _ := rfl

end StandardFiles

namespace Compilation

open MemoryStore StandardFiles

variable {config : CompilerConfig} {tree : FileTree} {name source : String}
  {dependencies : List UnitType}

theorem runToolchain_sameTree (logDiagnostics : Bool) (options : List String) (unit : SourceUnit)
    (files : StandardFiles) :
    SameTree files (runToolchain unitCompiler logDiagnostics options unit files).files := by
  have carried := (carryOut_below keeps_sameTree { options, units := [unit] }
    (.start (.ofInner files))).files
  have dropped := drop_below keeps_sameTree
    (UnitCompiler.compile (MemoryStore.manager manager) { options, units := [unit] }
      (.ofInner files)).2
  have ran := run_eta (unitCompiler.compile (MemoryStore.manager manager)
    { options, units := [unit] }) (.ofInner files)
  unfold SameTree
  rw [(runToolchain_run ran logDiagnostics).1]
  exact IsTrans.trans (r := Below SameTree) _ _ _ carried dropped

theorem compile_prepared {compiled : CompiledUnit}
    (run : (compile unitCompiler config tree name source dependencies).result = .ok compiled) :
    compiled.name = name ∧
      (∀ diagnostic ∈ compiled.diagnostics, diagnostic.severity ≠ .error) ∧
      ∃ options images last, optionsFor config dependencies = .ok options ∧
        UnitCompiler.prepare (MemoryStore.manager StandardFiles.manager)
          { options, units := [{ name, text := source }] } (.start (.ofInner (.ofTree tree))) =
            (some [({ name, text := source }, images)], last) ∧
        Nonempty (UnitCompiler.Analysed (MemoryStore.manager StandardFiles.manager)
          { name, text := source } images last) ∧
        compiled.artifacts.outputs.Perm (images.map artifactOf) := by
  unfold compile at run
  dsimp only at run
  split at run
  · cases run
  · rename_i options chosen
    have ran := run_eta (unitCompiler.compile (MemoryStore.manager StandardFiles.manager)
      { options, units := [{ name, text := source }] }) (.ofInner (.ofTree tree))
    change (runToolchain unitCompiler config.logDiagnostics options { name, text := source }
      (.ofTree tree)).result = .ok compiled at run
    rw [(runToolchain_run ran config.logDiagnostics).2] at run
    split at run
    · rename_i succeeded
      obtain ⟨answers, last, preparing, all, artifacts⟩ := compile_puts ran succeeded
      have clean := (UnitCompiler.compile_succeeded_iff _ _ _).mp succeeded
      cases run
      cases all with
      | cons first none =>
          cases none
          rename_i answer
          obtain ⟨unit, images⟩ := answer
          obtain ⟨rfl, ⟨analysed⟩⟩ := first
          refine ⟨rfl, clean, options, images, last, ?_, preparing, ⟨analysed⟩, ?_⟩
          · cases valid : validateName name with
            | error fault => rw [valid] at chosen; cases chosen
            | ok _ => rwa [valid] at chosen
          · rw [artifacts, List.flatMap_singleton]
            exact foldl_putImage_perm analysed.nodup
    · cases run

/-- Compiling in memory leaves every file and directory as it is, whatever the options say and
whatever comes of it. A compiled unit has the artifacts of the images that its source was lowered
to, each once and no other, and no error was reported for it. -/
theorem compile_untouched (config : CompilerConfig) (tree : FileTree) (name source : String)
    (dependencies : List UnitType) :
    (compile unitCompiler config tree name source dependencies).files.tree = tree ∧
    ∀ compiled, (compile unitCompiler config tree name source dependencies).result = .ok compiled →
      (∀ diagnostic ∈ compiled.diagnostics, diagnostic.severity ≠ .error) ∧
      ∃ options images last, optionsFor config dependencies = .ok options ∧
        UnitCompiler.prepare (MemoryStore.manager StandardFiles.manager)
          { options, units := [{ name, text := source }] } (.start (.ofInner (.ofTree tree))) =
            (some [({ name, text := source }, images)], last) ∧
        Nonempty (UnitCompiler.Analysed (MemoryStore.manager StandardFiles.manager)
          { name, text := source } images last) ∧
        images.map UnitImage.name = UnitCompiler.structNames { name, text := source } ∧
        compiled.artifacts.outputs.Perm (images.map artifactOf) ∧
        ∀ image ∈ images, image.Fits →
          UnitImage.decode image.name (artifactOf image).bytes = .ok image := by
  constructor
  · unfold compile
    dsimp only
    split
    · rfl
    · exact runToolchain_sameTree ..
  · intro compiled run
    obtain ⟨-, clean, options, images, last, chosen, preparing, analysed, written⟩ :=
      compile_prepared run
    refine ⟨clean, options, images, last, chosen, preparing, analysed, ?_, written, ?_⟩
    · exact analysed.some.structNames_eq
    · exact fun image _ fits => UnitImage.decode_encode fits

/-- An output directory among the options is taken, and nothing is written to it. -/
example :
    let config := { CompilerConfig.default with options := ["-d", "out"] }
    let attempt := compile unitCompiler config .empty "demo.Counter" "pub struct Counter;" []
    attempt.result.toBool = true ∧ attempt.files.outputDir = some ⟨"out"⟩ ∧
      attempt.files.tree = .empty := by decide +kernel

end Compilation

end UnitForge
