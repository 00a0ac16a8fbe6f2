import UnitForge.Proofs.Compiler.Mirror
import UnitForge.Proofs.Dialect.Consultations
import UnitForge.Proofs.Lowering.Composition

/-! # One view of the class path

A compilation takes its file manager's first answer about a unit or a package for good. Over all of
its sources the manager is asked for the file of each unit once at most and for the files of each
package once at most, whatever it answers; each later reference is answered alike; and the file of
each unit is reported once at most. -/
set_option autoImplicit false
namespace UnitForge

open Step Session FileManager

variable {σ : Type}

namespace UnitCompiler

variable {manager : FileManager σ}

/-! ## What a compilation is made of -/

section Composition
open Check

theorem complain_composed {problem : Problem} (other : problem.isOfUnitFile = false) :
    Composed manager (complain problem) :=
  .plain (.report other none none)

theorem refuse_composed {problem : Problem} (other : problem.isOfUnitFile = false) :
    Composed manager (do complain problem; return false) :=
  .bind (complain_composed other) fun _ => .pure false

theorem handOver_composed (option : String) (values : List String) :
    Composed manager (handOver manager option values) := by
  refine .bind (.plain (.option option values)) ?_
  intro answer
  rcases answer with fault | _ | _
  · exact refuse_composed rfl
  · exact refuse_composed rfl
  · exact .pure true

theorem applyOptions_composed [Nonempty σ] (options : List String) :
    Composed manager (applyOptions manager options) := by
  match options with
  | [] =>
      rw [applyOptions]
      exact .pure true
  | option :: rest =>
      have ih := applyOptions_composed rest
      have set (change : WarningPolicy → WarningPolicy) : Composed manager (do
          modify fun session => { session with policy := change session.policy }
          applyOptions manager rest) :=
        .bind (.plain (.policy change)) fun _ => ih
      rw [applyOptions]
      refine .ite (set fun policy => { policy with suppress := true })
        (.ite (set fun policy => { policy with deny := true }) ?_)
      refine .bind (.plain (.arity option)) ?_
      intro arity
      cases arity with
      | none => exact .bind (complain_composed rfl) fun _ => .bind ih fun _ => .pure false
      | some count =>
          have others := applyOptions_composed (rest.drop count)
          exact .ite (refuse_composed rfl)
            (.bind (handOver_composed _ _) fun _ => .bind others fun _ => .pure _)
  termination_by options.length
  decreasing_by all_goals simp; try omega

theorem analyse_composed [Nonempty σ] (unit : SourceUnit) :
    Composed manager (analyse manager unit) := by
  unfold analyse
  split
  · exact .bind (.complain _ _ rfl) fun _ => .pure _
  · refine .look .errors (fun _ _ same => by simp only [same]) ?_
    intro _
    apply (Declarations.collect_composed _ unit).bind
    intro decls
    apply (UnitSig.ofDeclarations_composed decls).bind
    intro sigs
    apply (UnitSig.lowerAll_composed manager decls sigs).bind
    intro images
    exact .look .errors (fun _ _ same => by simp only [same]) fun _ => .pure _

theorem analyseAll_composed [Nonempty σ] (units : List SourceUnit) :
    Composed manager (analyseAll manager units) :=
  .filterMapM (fun unit => .bind (analyse_composed unit) fun _ => .pure _) units

theorem emitAll_composed (answers : List (SourceUnit × List UnitImage)) :
    Composed manager (emitAll manager answers) := by
  have emits (unit : SourceUnit) (image : UnitImage) :
      Composed manager (emit manager unit image) := by
    refine .bind (.plain (.write image.name unit image.encode)) ?_
    intro written
    split
    · exact .pure _
    · exact .plain (.report rfl _ _)
  have each (answer : SourceUnit × List UnitImage) :
      Composed manager (answer.2.forM (emit manager answer.1)) :=
    .forM (emits answer.1) answer.2
  refine .bind (.forM each answers) ?_
  intro _
  refine .bind (.plain .flush) ?_
  intro completed
  split
  · exact .pure _
  · exact complain_composed rfl

theorem carryOut_composed [Nonempty σ] (task : CompilationTask) :
    Composed manager (carryOut manager task) := by
  apply (applyOptions_composed task.options).bind
  intro accepted
  refine .ite (.pure false) ?_
  apply (analyseAll_composed task.units).bind
  intro analysed
  refine .look .errors (fun _ _ same => by simp only [same]) ?_
  intro _
  refine .ite (.pure false) ?_
  apply (emitAll_composed analysed).bind
  intro _
  exact .look .errors (fun _ _ same => by simp only [same]) fun _ => .pure _

end Composition

/-! ## Whole compilations -/

theorem compile_overheard (manager : FileManager σ) (task : CompilationTask) (files : σ)
    (record : List (FileAnswer σ)) :
    (compile manager.overheard task (files, record)).1 = (compile manager task files).1 ∧
      (compile manager.overheard task (files, record)).2.1 = (compile manager task files).2 := by
  have writes (unit : SourceUnit) (image : UnitImage) : FileOp.Beneath Prod.fst
      (written manager unit image) (written manager.overheard unit image) := by
    unfold written
    rw [overheard_write]
    exact fun _ => rfl
  have same : compile manager task files = _ :=
    compile_beneath (overheard_beneath manager) writes (fun _ => rfl) task (files, record)
  rw [same]
  exact ⟨rfl, rfl⟩

/-- A compilation has one view of the class path, however the answers of its file manager change
from call to call. It is put together from plain steps, which see nothing of what is known of the
class path, and from questions. Over all sources, the file of each unit and the files of each
package that there is a question about are asked for once, and no others. Every question is answered
by that one look, be it that the look failed or found nothing, and the file of each unit is reported
once at most. The looks are on the record of the overheard manager, which makes no difference to the
compilation. -/
theorem compile_consults_once (manager : FileManager σ) (task : CompilationTask) (files : σ) :
    let overheard := compile manager.overheard task (files, [])
    (overheard.1 = (compile manager task files).1 ∧
      overheard.2.1 = (compile manager task files).2) ∧
    (∃ consultations, Consults manager (carryOut manager.overheard task) (.start (files, []))
      consultations) ∧
    ∀ consultations, Consults manager (carryOut manager.overheard task) (.start (files, []))
      consultations → OneView manager overheard.2.2 (compile manager task files).1.diagnostics
        consultations := by
  have same := compile_overheard manager task files []
  have : Nonempty (σ × List (FileAnswer σ)) := ⟨(files, [])⟩
  refine ⟨same, consults_of_composed (carryOut_composed task) _, ?_⟩
  intro consultations consults
  rw [← same.1]
  exact consults.oneView

/-- A unit whose file is spoiled is looked at and reported for the first of two sources only. -/
example :
    let manager : FileManager StandardFiles := { StandardFiles.manager with
      input := fun _ _ _ => pure (some { kind := .unit, path := ⟨"lib"⟩, root := ⟨"lib"⟩ })
      read := fun _ => pure [] }
    let units : List SourceUnit :=
      ["demo.First", "demo.Second"].map ({ name := ·, text := "use lib::Spoiled;" })
    let compiled := compile manager.overheard { options := [], units } (.ofTree .empty, [])
    compiled.1.diagnostics.map Diagnostic.code = ["E0786", "E0432", "E0432"] ∧
      compiled.2.2.length = 2 := by
  decide +kernel

end UnitCompiler

end UnitForge
