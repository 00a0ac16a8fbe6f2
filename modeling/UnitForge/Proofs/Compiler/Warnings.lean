import UnitForge.Proofs.Compiler.Options
import UnitForge.Proofs.Compiler.Reports
import UnitForge.Proofs.Dialect.Policy
import UnitForge.Proofs.Lowering.Agreement

/-! # Warnings

The flags for warnings act on nothing but warnings. An analysis finds the same images whatever
becomes of its warnings, although denied ones count as errors: a warning changes what a session
delivered, and nothing that later steps look at apart from the verdict of the analysis. -/
set_option autoImplicit false
namespace UnitForge

open Step Session

variable {σ : Type} {manager : FileManager σ} {policy : WarningPolicy}

def CompilationTask.withFlags (task : CompilationTask) (flags : List String) : CompilationTask :=
  { task with options := flags ++ task.options }

/-- One call of a file manager that asks for no output. -/
inductive FileManager.Consults (manager : FileManager σ) : σ → σ → Prop
  | option (option : String) (values : List String) (files : σ) :
      Consults manager files (manager.handleOption option values files).2
  | look {before after : σ} (looks : manager.Looks before after) : Consults manager before after

/-! ## Policies -/

def Diagnostic.denied (diagnostic : Diagnostic) : Diagnostic :=
  if diagnostic.severity = .warning then { diagnostic with severity := .error } else diagnostic

namespace WarningPolicy

theorem filterMap_suppress (suppresses : policy.suppress = true) (diagnostics : List Diagnostic) :
    diagnostics.filterMap policy.apply = diagnostics.filter (·.severity ≠ .warning) := by
  rw [← List.filterMap_eq_filter]
  refine congrArg (List.filterMap · diagnostics) (funext ?_)
  intro diagnostic
  by_cases warns : diagnostic.severity = .warning
  · simp [apply, Option.guard, warns, suppresses]
  · simp [apply, Option.guard, warns]

theorem filterMap_deny (keeps : policy.suppress = false) (denies : policy.deny = true)
    (diagnostics : List Diagnostic) :
    diagnostics.filterMap policy.apply = diagnostics.map Diagnostic.denied := by
  rw [← List.filterMap_eq_map]
  refine congrArg (List.filterMap · diagnostics) (funext ?_)
  intro diagnostic
  by_cases warns : diagnostic.severity = .warning
  · simp [apply, Diagnostic.denied, warns, keeps, denies]
  · simp [apply, Diagnostic.denied, warns]

end WarningPolicy

theorem Diagnostic.map_denied {diagnostics : List Diagnostic}
    (none : ∀ diagnostic ∈ diagnostics, diagnostic.severity ≠ .warning) :
    diagnostics.map denied = diagnostics := by
  have same (diagnostic : Diagnostic) (member : diagnostic ∈ diagnostics) :
      denied diagnostic = diagnostic :=
    if_neg (none diagnostic member)
  rw [List.map_congr_left same, List.map_id'']
  exact fun _ => rfl

theorem Session.Extends.mild {before after : Session σ} (grown : before.Extends manager after)
    (mild : after.Mild policy) : before.Mild policy :=
  fun diagnostic member => mild diagnostic (grown.delivered.subset member)

namespace UnitCompiler

/-! ## Analyses under a policy -/

theorem analyse_extends (unit : SourceUnit) : Check.Extends manager (analyse manager unit) :=
  fun _ => (analyse_steps rfl).1

theorem analyse_under {s t : Session σ} (under : Under policy s t) (unit : SourceUnit) :
    Under policy (analyse manager unit s).2 (analyse manager unit t).2 ∧
      ((analyse manager unit s).2.Mild policy →
        (analyse manager unit t).1 = (analyse manager unit s).1) := by
  cases parsed : Source.File.parse? unit.text with
  | error pos =>
      have refused : Alike (Under policy) (analyse manager unit) (analyse manager unit) := by
        unfold analyse
        rw [parsed]
        exact .bind (report_under _) fun _ => .pure rfl
      have ⟨same, after⟩ := refused s t under
      exact ⟨after, fun _ => same.symm⟩
  | ok file =>
      have ⟨same, after⟩ := images_agree (agreement_under policy manager) file unit s t under
      have grown : s.Extends manager (analyse manager unit s).2 := analyse_extends unit s
      rw [analyse_ok parsed] at grown ⊢
      rw [analyse_ok parsed]
      refine ⟨after, ?_⟩
      intro mild
      -- The images count unless there are more errors than before; both sessions count alike.
      dsimp only at grown mild ⊢
      rw [after.errors mild, under.errors (grown.mild mild), same]

theorem analyseUnit_under {s t : Session σ} (under : Under policy s t) (unit : SourceUnit) :
    Under policy (analyseUnit manager unit s).2 (analyseUnit manager unit t).2 ∧
      ((analyseUnit manager unit s).2.Mild policy →
        (analyseUnit manager unit t).1 = (analyseUnit manager unit s).1) := by
  obtain ⟨after, same⟩ := analyse_under under unit
  exact ⟨after, fun mild => congrArg (Option.map fun images => (unit, images)) (same mild)⟩

theorem analyseAll_under {s t : Session σ} (under : Under policy s t) (units : List SourceUnit) :
    Under policy (analyseAll manager units s).2 (analyseAll manager units t).2 ∧
      ((analyseAll manager units s).2.Mild policy →
        (analyseAll manager units t).1 = (analyseAll manager units s).1) := by
  induction units generalizing s t with
  | nil => exact ⟨under, fun _ => rfl⟩
  | cons unit rest ih =>
      have ⟨first, sameFirst⟩ : Under policy (analyseUnit manager unit s).2
          (analyseUnit manager unit t).2 ∧ _ := analyseUnit_under under unit
      have ⟨others, sameOthers⟩ := ih first
      have run (session : Session σ) : analyseAll manager (unit :: rest) session =
          ((analyseUnit manager unit session).1.toList ++
            (analyseAll manager rest (analyseUnit manager unit session).2).1,
          (analyseAll manager rest (analyseUnit manager unit session).2).2) :=
        filterMapM_cons_run (analyseUnit manager) unit rest session
      rw [run, run]
      refine ⟨others, ?_⟩
      intro mild
      have grown : (analyseUnit manager unit s).2.Extends manager
          (analyseAll manager rest (analyseUnit manager unit s).2).2 :=
        (analyseAll_run rfl).1
      dsimp only at mild ⊢
      rw [sameFirst (grown.mild mild), sameOthers mild]

/-! ## Outputs under a policy -/

/-- Two sessions as under a policy that makes no error of a warning of theirs. -/
structure Level (policy : WarningPolicy) (session other : Session σ) : Prop
    extends Under policy session other where
  mild : session.Mild policy

theorem report_level {diagnostic : Diagnostic} (grave : diagnostic.severity = .error) :
    Alike (Level policy) (report (σ := σ) diagnostic) (report diagnostic) := by
  intro s t level
  have ⟨same, after⟩ := report_under diagnostic s t level.toUnder
  refine ⟨same, after, ?_⟩
  intro found member warns
  have passes : s.policy.apply diagnostic = some diagnostic := WarningPolicy.apply_grave grave
  rcases List.mem_append.mp member with old | new
  · exact level.mild found old warns
  · rw [passes, Option.toList_some, List.mem_singleton] at new
    rw [new, grave] at warns
    cases warns

theorem onFiles_level {α : Type} (op : FileOp σ α) :
    Alike (Level policy) (onFiles op) (onFiles op) := by
  intro s t level
  have ⟨same, after⟩ := onFiles_under op s t level.toUnder
  exact ⟨same, after, level.mild⟩

theorem emit_level (unit : SourceUnit) (image : UnitImage) :
    Alike (Level policy) (emit manager unit image) (emit manager unit image) := by
  apply (onFiles_level _).bind
  intro written
  cases written with
  | ok _ => exact .pure rfl
  | error fault => exact report_level rfl

theorem emitAll_level (analysed : List (SourceUnit × List UnitImage)) :
    Alike (Level policy) (emitAll manager analysed) (emitAll manager analysed) := by
  apply (Alike.forM (fun (unit, images) => .forM (emit_level unit) images) _).bind
  intro _
  apply (onFiles_level _).bind
  intro flushed
  cases flushed with
  | ok _ => exact .pure rfl
  | error fault => exact report_level rfl

theorem deliver_level (analysed : List (SourceUnit × List UnitImage)) :
    Alike (Level policy) (deliver manager analysed) (deliver manager analysed) := by
  refine .get_bind ?_
  intro s t level
  rw [level.errors level.mild]
  refine .ite (.pure rfl) (.bind (emitAll_level analysed) fun _ => .get_bind fun s t level => ?_)
  rw [level.errors level.mild]
  exact .pure rfl

/-! ## Flags -/

/-- An option stands among others where these are accepted as far as it; it is no value then. -/
def Stands (manager : FileManager σ) (session : Session σ) (options : List String)
    (option : String) : Prop :=
  ∃ i, options[i]? = some option ∧ (applyOptions manager (options.take i) session).1 = true

theorem Stands.behind {option flag : String} {rest : List String} {session asked : Session σ}
    {count : Nat} (suppresses : option ≠ noWarningsFlag) (denies : option ≠ denyWarningsFlag)
    (known : ask (manager.arityOf option) session = (some count, asked))
    (enough : ¬rest.length < count)
    (handed : (handOver manager option (rest.take count) asked).1 = true)
    (stands : Stands manager (handOver manager option (rest.take count) asked).2
      (rest.drop count) flag) : Stands manager session (option :: rest) flag := by
  obtain ⟨i, at_, before⟩ := stands
  refine ⟨count + i + 1, ?_, ?_⟩
  · rw [List.getElem?_cons_succ, ← List.getElem?_drop, at_]
  · have still : ¬(rest.take (count + i)).length < count := by
      rw [List.length_take]
      omega
    rw [List.take_succ_cons, applyOptions_handed suppresses denies known still, List.take_take,
      List.drop_take, Nat.min_eq_left (Nat.le_add_right _ _), Nat.add_sub_cancel_left]
    exact Bool.and_eq_true_iff.mpr ⟨handed, before⟩

/-- A question gets the same answer over the same files, and changes nothing but the files. -/
theorem exists_asked {α : Type} {query : FileQuery σ α} {session asked : Session σ} {answer : α}
    (run : ask query session = (answer, asked)) :
    ∃ files, ∀ other : Session σ, other.files = session.files →
      ask query other = (answer, { other with files }) := by
  rcases posed : query session.files with ⟨value, files⟩
  simp only [ask, posed] at run
  cases run
  refine ⟨files, ?_⟩
  intro other same
  simp only [ask, same, posed]

theorem handOver_accepted {option : String} {values : List String} {session : Session σ}
    (accepted : (handOver manager option values session).1 = true) :
    ∃ files, ∀ other : Session σ, other.files = session.files →
      handOver manager option values other = (true, { other with files }) := by
  rcases handled : manager.handleOption option values session.files with ⟨answer, files⟩
  have handed : onFiles (manager.handleOption option values) session =
      (answer, { session with files }) := by
    simp only [onFiles, handled]
  unfold handOver at accepted
  rw [bind_of_run handed] at accepted
  rcases answer with fault | _ | _
  · cases accepted
  · cases accepted
  · refine ⟨files, fun other same => handOver_run ?_⟩
    rw [same, handled]

/-- Accepted options without a flag for warnings act on the files alone, and in the same way
whatever else differs. -/
theorem applyOptions_unflagged {options : List String} {session : Session σ}
    (accepted : (applyOptions manager options session).1 = true)
    (unflagged : ∀ flag ∈ [noWarningsFlag, denyWarningsFlag],
      ¬Stands manager session options flag) :
    ∃ files, ∀ other : Session σ, other.files = session.files →
      applyOptions manager options other = (true, { other with files }) := by
  match options with
  | [] =>
      refine ⟨session.files, ?_⟩
      intro other same
      rw [applyOptions_nil, ← same]
  | option :: rest =>
      have first (flag : String) (member : flag ∈ [noWarningsFlag, denyWarningsFlag]) :
          option ≠ flag := by
        rintro rfl
        refine unflagged option member ⟨0, rfl, ?_⟩
        rw [List.take_zero, applyOptions_nil]
      have suppresses : option ≠ noWarningsFlag := first _ (by simp)
      have denies : option ≠ denyWarningsFlag := first _ (by simp)
      obtain ⟨count, asked, known, short, handed, others⟩ :=
        exists_handed suppresses denies accepted
      have others_unflagged (flag : String)
          (member : flag ∈ [noWarningsFlag, denyWarningsFlag]) :
          ¬Stands manager (handOver manager option (rest.take count) asked).2
            (rest.drop count) flag := by
        intro stands
        exact unflagged flag member (stands.behind suppresses denies known short handed)
      obtain ⟨opened, asks⟩ := exists_asked known
      have askedIs : asked = { session with files := opened } := by
        rw [asks session rfl] at known
        exact (Prod.mk.inj known).2.symm
      obtain ⟨middle, hands⟩ := handOver_accepted handed
      obtain ⟨files, applies⟩ := applyOptions_unflagged others others_unflagged
      refine ⟨files, ?_⟩
      intro other same
      have handedThere := hands { other with files := opened } (by rw [askedIs])
      rw [applyOptions_handed suppresses denies (asks other same) short, handedThere]
      dsimp only
      rw [applies _ ?_, Bool.true_and]
      rw [hands asked rfl]
  termination_by options.length
  decreasing_by all_goals (simp only [List.length_cons, List.length_drop]; omega)

def analysis (manager : FileManager σ) (task : CompilationTask) (files : σ) : Session σ :=
  (prepare manager task (.start files)).2

section Accepted
variable {task : CompilationTask} {before opened : Session σ}
  (accepted : applyOptions manager task.options before = (true, opened))
include accepted

theorem prepare_accepted : prepare manager task before =
    (some (analyseAll manager task.units opened).1, (analyseAll manager task.units opened).2) := by
  unfold prepare
  rw [bind_of_run accepted]
  rfl

theorem carryOut_accepted : carryOut manager task before =
    deliver manager (analyseAll manager task.units opened).1
      (analyseAll manager task.units opened).2 :=
  carryOut_prepared (prepare_accepted accepted)

end Accepted

/-- What flags for warnings do to the compilation of a task. -/
structure WarningsOnly (manager : FileManager σ) (task : CompilationTask) (files : σ) : Prop where
  /-- Until the analysis is over nothing is written. -/
  consulted : Relation.ReflTransGen manager.Consults files (analysis manager task files).files
  dropped : compile manager (task.withFlags [noWarningsFlag]) files =
    let usual := compile manager task files
    ({ usual.1 with diagnostics := usual.1.diagnostics.filter (·.severity ≠ .warning) }, usual.2)
  harmless : (∀ diagnostic ∈ (analysis manager task files).delivered,
      diagnostic.severity ≠ .warning) →
    compile manager (task.withFlags [denyWarningsFlag]) files = compile manager task files
  denied : (∃ diagnostic ∈ (analysis manager task files).delivered,
      diagnostic.severity = .warning) →
    compile manager (task.withFlags [denyWarningsFlag]) files =
      let analysed := analysis manager task files
      ({ succeeded := false, diagnostics := analysed.delivered.map Diagnostic.denied },
        analysed.files)
  /-- Whichever comes first, denying dropped warnings has no effect. -/
  both : ∀ flags ∈ [[noWarningsFlag, denyWarningsFlag], [denyWarningsFlag, noWarningsFlag]],
    compile manager (task.withFlags flags) files =
      compile manager (task.withFlags [noWarningsFlag]) files

theorem analysis_consults (manager : FileManager σ) (task : CompilationTask) (files : σ) :
    Relation.ReflTransGen manager.Consults files (analysis manager task files).files := by
  have options : Within (Session.Moves (Relation.ReflTransGen manager.Consults))
      (applyOptions manager task.options) :=
    applyOptions_moves (fun option files => .single (.look (.arity option files)))
      (fun option values files => .single (.option option values files)) _
  have handed := (options (.start files)).files
  unfold analysis
  rcases run : prepare manager task (.start files) with ⟨found, prepared⟩
  obtain ⟨accepted, middle, applied, run⟩ := bind_run run
  rw [applied] at handed
  cases accepted with
  | false =>
      cases run
      exact handed
  | true =>
      obtain ⟨analysed, reached, all, run⟩ := bind_run run
      cases run
      have looked : Relation.ReflTransGen manager.Consults middle.files prepared.files :=
        Relation.ReflTransGen.mono (fun _ _ => FileManager.Consults.look) _ _
          (analyseAll_run all).1.files
      exact handed.trans looked

def startUnder (policy : WarningPolicy) (files : σ) : Session σ :=
  { Session.start files with policy }

def Sets (manager : FileManager σ) (files : σ) (flags : List String) (policy : WarningPolicy) :
    Prop :=
  ∀ rest, applyOptions manager (flags ++ rest) (.start files) =
    applyOptions manager rest (startUnder policy files)

theorem sets_noWarnings (manager : FileManager σ) (files : σ) :
    Sets manager files [noWarningsFlag] { suppress := true, deny := false } :=
  fun _ => applyOptions_noWarnings

theorem sets_denyWarnings (manager : FileManager σ) (files : σ) :
    Sets manager files [denyWarningsFlag] { suppress := false, deny := true } :=
  fun _ => applyOptions_denyWarnings

theorem sets_both (manager : FileManager σ) (files : σ) {flags : List String}
    (member : flags ∈
      [[noWarningsFlag, denyWarningsFlag], [denyWarningsFlag, noWarningsFlag]]) :
    Sets manager files flags { suppress := true, deny := true } := by
  intro rest
  simp only [List.mem_cons, List.not_mem_nil, or_false] at member
  rcases member with rfl | rfl
  · exact applyOptions_noWarnings.trans applyOptions_denyWarnings
  · exact applyOptions_denyWarnings.trans applyOptions_noWarnings

theorem compile_eq (manager : FileManager σ) (task : CompilationTask) (files : σ) :
    compile manager task files =
      let run := carryOut manager task (.start files)
      ({ succeeded := run.1, diagnostics := run.2.delivered }, run.2.files) :=
  rfl

section Flagged
variable {task : CompilationTask} {files : σ}
  (accepted : (applyOptions manager task.options (.start files)).1 = true)
  (unflagged : ∀ flag ∈ [noWarningsFlag, denyWarningsFlag],
    ¬Stands manager (.start files) task.options flag)
include accepted unflagged

/-- With a policy set in front, a task does what it does without, but for what the policy makes of
its diagnostics, unless an error is made of a warning: then it ends with the analysis. -/
theorem compile_flagged {flags : List String} (sets : Sets manager files flags policy) :
    let usual := compile manager task files
    let analysed := analysis manager task files
    (analysed.Mild policy →
      (∀ diagnostic ∈ usual.1.diagnostics, diagnostic.severity = .warning →
        policy.suppress = true ∨ policy.deny = false) ∧
      compile manager (task.withFlags flags) files =
        ({ usual.1 with diagnostics := usual.1.diagnostics.filterMap policy.apply }, usual.2)) ∧
    (¬analysed.Mild policy → compile manager (task.withFlags flags) files =
      ({ succeeded := false, diagnostics := analysed.delivered.filterMap policy.apply },
        analysed.files)) := by
  obtain ⟨opened, applies⟩ := applyOptions_unflagged accepted unflagged
  have here : applyOptions manager task.options (.start files) = (true, .start opened) :=
    applies (.start files) rfl
  have there : applyOptions manager (task.withFlags flags).options (.start files) =
      (true, startUnder policy opened) :=
    (sets task.options).trans (applies _ rfl)
  have units : (task.withFlags flags).units = task.units := rfl
  have start : Under policy (Session.start opened) (startUnder policy opened) := ⟨rfl, rfl⟩
  have ⟨under, same⟩ : Under policy (analyseAll manager task.units (.start opened)).2
      (analyseAll manager task.units (startUnder policy opened)).2 ∧ _ :=
    analyseAll_under start task.units
  have analysed : analysis manager task files =
      (analyseAll manager task.units (.start opened)).2 :=
    congrArg Prod.snd (prepare_accepted here)
  dsimp only
  rw [analysed, compile_eq, compile_eq, carryOut_accepted here, carryOut_accepted there, units]
  constructor
  · intro mild
    have alike : Alike (Level policy)
        (deliver manager (analyseAll manager task.units (.start opened)).1)
        (deliver manager (analyseAll manager task.units (.start opened)).1) :=
      deliver_level _
    have ⟨verdict, level⟩ := alike _ _ ⟨under, mild⟩
    refine ⟨level.mild, ?_⟩
    dsimp only
    rw [same mild, ← verdict, level.same]
  · intro grave
    rw [deliver_grave _ (under.not_clean grave), under.same]

end Flagged

/-- Flags for warnings that are put in front of accepted options change nothing but warnings. With
warnings dropped, the verdict and the files are the same, and so are the other diagnostics. With
warnings denied, everything is the same if there are none until the analysis is over; else the task
fails there, with nothing written and its warnings delivered as errors. Denying changes nothing
where warnings are dropped. -/
theorem compile_warningsOnly (manager : FileManager σ) (task : CompilationTask) (files : σ)
    (accepted : (applyOptions manager task.options (.start files)).1 = true)
    (unflagged : ∀ flag ∈ [noWarningsFlag, denyWarningsFlag],
      ¬Stands manager (.start files) task.options flag) : WarningsOnly manager task files where
  consulted := analysis_consults manager task files
  dropped := by
    have mild : (analysis manager task files).Mild { suppress := true, deny := false } :=
      fun _ _ _ => .inl rfl
    have ⟨_, run⟩ := (compile_flagged accepted unflagged (sets_noWarnings manager files)).1 mild
    rw [run, WarningPolicy.filterMap_suppress rfl]
  harmless := by
    intro none
    have mild : (analysis manager task files).Mild { suppress := false, deny := true } :=
      fun diagnostic member warns => absurd warns (none diagnostic member)
    have ⟨still, run⟩ :=
      (compile_flagged accepted unflagged (sets_denyWarnings manager files)).1 mild
    have kept : ∀ diagnostic ∈ (compile manager task files).1.diagnostics,
        diagnostic.severity ≠ .warning := by
      intro diagnostic member warns
      have := still diagnostic member warns
      simp at this
    rw [run, WarningPolicy.filterMap_deny rfl rfl, Diagnostic.map_denied kept]
    rfl
  denied := by
    intro ⟨diagnostic, member, warns⟩
    have grave : ¬(analysis manager task files).Mild { suppress := false, deny := true } := by
      intro mild
      have := mild diagnostic member warns
      simp at this
    have run := (compile_flagged accepted unflagged (sets_denyWarnings manager files)).2 grave
    rw [run, WarningPolicy.filterMap_deny rfl rfl]
  both := by
    have mild (deny : Bool) : (analysis manager task files).Mild { suppress := true, deny } :=
      fun _ _ _ => .inl rfl
    intro flags member
    have ⟨_, run⟩ :=
      (compile_flagged accepted unflagged (sets_both manager files member)).1 (mild true)
    have ⟨_, alone⟩ :=
      (compile_flagged accepted unflagged (sets_noWarnings manager files)).1 (mild false)
    rw [run, alone, WarningPolicy.filterMap_suppress rfl, WarningPolicy.filterMap_suppress rfl]

/-- A parameter that nothing refers to, and an output directory with the name of a flag. -/
def unusedParameter : CompilationTask where
  options := ["-d", "-Werror"]
  units := [{
    name := "demo.A"
    text := "pub struct A; impl A \x7b fn new(n: i64) -> Self \x7b Self \x7d \x7d" }]

theorem compile_warningsOnly_unused :
    WarningsOnly StandardFiles.manager unusedParameter (.ofTree .empty) ∧
      (analysis StandardFiles.manager unusedParameter (.ofTree .empty)).delivered.map
        Diagnostic.severity = [.warning] := by
  have accepted : (applyOptions StandardFiles.manager unusedParameter.options
      (.start (.ofTree .empty))).1 = true := by
    decide +kernel
  refine ⟨compile_warningsOnly _ _ _ accepted ?_, by decide +kernel⟩
  rintro flag member ⟨i, at_, before⟩
  match i with
  | 0 =>
      obtain rfl : "-d" = flag := Option.some.inj at_
      revert member
      decide
  | 1 =>
      revert before
      decide +kernel
  | i + 2 => cases at_

end UnitCompiler

end UnitForge
