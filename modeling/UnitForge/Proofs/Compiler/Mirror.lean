import UnitForge.Files.Memory
import UnitForge.Proofs.Compiler.Reports
import UnitForge.Proofs.Dialect.Lockstep
import UnitForge.Proofs.Lowering.Agreement

/-! # Compilations over a manager and over one that keeps more

A compilation over a manager that keeps something besides the files does to the files what it does
without that: it accepts the same options and finds the same images, with the same diagnostics. Of a
manager that is watched this holds to the end. Of a memory store it holds until the first output,
since the store hands everything down but outputs. -/
set_option autoImplicit false
namespace UnitForge

open Step Session

namespace UnitCompiler

variable {σ τ : Type} {R : Session σ → Session τ → Prop} {manager : FileManager σ}
  {other : FileManager τ}

/-! ## Related sessions -/

section Options
variable (policy : ∀ change : WarningPolicy → WarningPolicy, Alike R
    (modify fun session => { session with policy := change session.policy })
    (modify fun session => { session with policy := change session.policy }))
  (reports : ∀ diagnostic, Alike R (report diagnostic) (report diagnostic))
  (asks : ∀ option, Alike R (ask (manager.arityOf option)) (ask (other.arityOf option)))
  (handles : ∀ option values, Alike R (onFiles (manager.handleOption option values))
    (onFiles (other.handleOption option values)))
include policy reports asks handles

theorem applyOptions_alike (options : List String) :
    Alike R (applyOptions manager options) (applyOptions other options) := by
  match options with
  | [] =>
      rw [applyOptions, applyOptions]
      exact .pure rfl
  | option :: rest =>
      have ih := applyOptions_alike rest
      have hands (values : List String) :
          Alike R (handOver manager option values) (handOver other option values) := by
        apply (handles option values).bind
        intro answer
        rcases answer with fault | _ | _
        · exact .bind (reports _) fun _ => .pure rfl
        · exact .bind (reports _) fun _ => .pure rfl
        · exact .pure rfl
      rw [applyOptions, applyOptions]
      have suppress := (policy fun policy => { policy with suppress := true }).bind fun _ => ih
      have deny := (policy fun policy => { policy with deny := true }).bind fun _ => ih
      refine .ite suppress (.ite deny ?_)
      apply (asks option).bind
      intro arity
      cases arity with
      | none =>
          apply (reports _).bind
          intro _
          exact .bind ih fun _ => .pure rfl
      | some count =>
          have others := applyOptions_alike (rest.drop count)
          refine .ite (.bind (reports _) fun _ => .pure rfl) ?_
          apply (hands _).bind
          intro _
          exact .bind others fun _ => .pure rfl
  termination_by options.length
  decreasing_by all_goals simp; try omega

end Options

section Sources
variable (agree : Agreement id R manager other) (errors : ∀ {s t}, R s t → s.errors = t.errors)
include agree errors

theorem analyse_alike (unit : SourceUnit) :
    Alike R (analyse manager unit) (analyse other unit) := by
  intro s t related
  cases parsed : Source.File.parse? unit.text with
  | error pos =>
      have told : Alike R (analyse manager unit) (analyse other unit) := by
        unfold analyse
        rw [parsed]
        have alike := agree.report (Problem.malformedSource.diagnostic (some unit.uri) (some pos))
        rw [Diagnostic.relocate_id] at alike
        exact .bind alike fun _ => .pure rfl
      exact told s t related
  | ok file =>
      have ⟨same, after⟩ := images_agree agree file unit s t related
      rw [analyse_ok parsed, analyse_ok parsed]
      dsimp only
      rw [errors related, errors after, same]
      exact ⟨rfl, after⟩

theorem analyseAll_alike (units : List SourceUnit) :
    Alike R (analyseAll manager units) (analyseAll other units) :=
  .filterMapM (fun unit => .bind (analyse_alike agree errors unit) fun _ => .pure rfl) units

end Sources

/-! ## A part of the files -/

section Beneath
variable {view : τ → σ} (beneath : manager.Beneath view other)
include beneath

theorem prepare_beneath (task : CompilationTask) :
    Alike (Beneath view) (prepare manager task) (prepare other task) := by
  have options : Alike (Beneath view) (applyOptions manager task.options)
      (applyOptions other task.options) := by
    apply applyOptions_alike
    case policy =>
      intro change s t same
      rw [same]
      exact ⟨rfl, rfl⟩
    case reports => exact report_beneath
    case asks => exact fun option => ask_beneath (beneath.arityOf option)
    case handles => exact fun option values => onFiles_beneath (beneath.option option values)
  apply options.bind
  intro accepted
  refine .ite (.pure rfl) ?_
  exact .bind (analyseAll_alike (lockstep_beneath beneath).agreement Beneath.errors task.units)
    fun _ => .pure rfl

variable (writes : ∀ unit image,
    FileOp.Beneath view (written manager unit image) (written other unit image))
  (flushes : FileOp.Beneath view manager.flush other.flush)
include writes flushes

omit beneath in
theorem deliver_beneath (analysed : List (SourceUnit × List UnitImage)) :
    Alike (Beneath view) (deliver manager analysed) (deliver other analysed) := by
  have emits (unit : SourceUnit) (image : UnitImage) :
      Alike (Beneath view) (emit manager unit image) (emit other unit image) := by
    apply (onFiles_beneath (writes unit image)).bind
    intro written
    cases written with
    | ok => exact .pure rfl
    | error fault => exact report_beneath _
  have each (answer : SourceUnit × List UnitImage) : Alike (Beneath view)
      (answer.2.forM (emit manager answer.1)) (answer.2.forM (emit other answer.1)) :=
    Alike.forM (emits answer.1) answer.2
  have outputs : Alike (Beneath view) (emitAll manager analysed) (emitAll other analysed) := by
    apply (Alike.forM each analysed).bind
    intro _
    apply (onFiles_beneath flushes).bind
    intro completed
    cases completed with
    | ok => exact .pure rfl
    | error fault => exact report_beneath _
  refine .get_bind ?_
  intro s t same
  rw [same.errors]
  refine .ite (.pure rfl) (.bind outputs fun _ => .get_bind fun s t same => ?_)
  rw [same.errors]
  exact .pure rfl

/-- A compilation does to the files in view what one does to the whole. -/
theorem compile_beneath (task : CompilationTask) (files : τ) :
    compile manager task (view files) =
      ((compile other task files).1, view (compile other task files).2) := by
  have alike : Alike (Beneath view) (carryOut manager task) (carryOut other task) := by
    rw [carryOut_eq, carryOut_eq]
    apply (prepare_beneath beneath task).bind
    intro found
    cases found with
    | none => exact .pure rfl
    | some analysed => exact deliver_beneath writes flushes analysed
  obtain ⟨succeeds, ends⟩ := alike (.start (view files)) (.start files) rfl
  exact Prod.ext (congrArg₂ Verdict.mk succeeds (congrArg delivered ends))
    (congrArg Session.files ends)

end Beneath

open FileManager

theorem watched_written (manager : FileManager σ) (unit : SourceUnit) (image : UnitImage) :
    FileOp.Beneath Prod.fst (written manager unit image) (written manager.watched unit image) := by
  have whole : written manager.watched unit image = (do
      let sink ← note (.output .classOutput image.name .unit (some unit))
        (manager.output .classOutput image.name .unit (some unit))
      (watchSink sink).writeAll image.encode
      (watchSink sink).flush) :=
    bind_map_left _ _ _
  rw [whole]
  refine .bind (fun _ => rfl) ?_
  intro sink
  refine .bind ?_ fun _ _ => rfl
  unfold Sink.writeAll
  split
  · exact fun _ => rfl
  · exact fun _ => rfl

theorem compile_watched (manager : FileManager σ) (task : CompilationTask) (files : σ)
    (requests : List FileRequest) :
    compile manager task files =
      ((compile manager.watched task (files, requests)).1,
        (compile manager.watched task (files, requests)).2.1) :=
  compile_beneath (watched_beneath manager) (watched_written manager) (fun _ => rfl) task
    (files, requests)

end UnitCompiler

/-! ## Memory stores -/

namespace MemoryStore

variable {σ : Type} {manager : FileManager σ}

/-- A session over a manager, and one over a memory store that differs in its artifacts alone. -/
def Mirrors (session : Session σ) (other : Session (MemoryStore σ)) : Prop :=
  session = { other with files := other.files.inner }

theorem Mirrors.errors {session : Session σ} {other : Session (MemoryStore σ)}
    (mirrors : Mirrors session other) : session.errors = other.errors :=
  Beneath.errors mirrors

theorem mirrors_start (files : σ) : Mirrors (.start files) (.start (.ofInner files)) :=
  rfl

theorem manager_beneath (manager : FileManager σ) :
    manager.Beneath inner (MemoryStore.manager manager) where
  arityOf _ _ := rfl
  option _ _ _ := rfl
  list _ _ _ _ _ := rfl
  input _ _ _ _ := rfl
  read _ _ := rfl
  nameOf _ _ _ := rfl

theorem prepare_mirrors (task : CompilationTask) :
    Alike Mirrors (UnitCompiler.prepare manager task)
      (UnitCompiler.prepare (MemoryStore.manager manager) task) :=
  UnitCompiler.prepare_beneath (manager_beneath manager) task

end MemoryStore

end UnitForge
