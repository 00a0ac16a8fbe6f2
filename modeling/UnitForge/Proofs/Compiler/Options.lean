import UnitForge.Dialect.Compiler
import UnitForge.Proofs.Files.Directories
import UnitForge.Proofs.Steps

/-! # Options

Options are taken from the front, each with its values. What a list of them does in front of others
it does alone, and for the standard file manager it comes to the same in every session: some
directories are added to the class path, the output directory may change, warnings are dropped or
denied, and problems are reported. -/
set_option autoImplicit false
namespace UnitForge

open Step

namespace UnitCompiler

variable {σ : Type} {manager : FileManager σ} {option : String} {rest : List String}
  {session : Session σ}

/-! ## One option -/

theorem applyOptions_nil : applyOptions manager [] session = (true, session) := by
  rw [applyOptions]
  rfl

theorem applyOptions_noWarnings : applyOptions manager (noWarningsFlag :: rest) session =
    applyOptions manager rest
      { session with policy := { session.policy with suppress := true } } := by
  rw [applyOptions, if_pos rfl]
  rfl

theorem applyOptions_denyWarnings : applyOptions manager (denyWarningsFlag :: rest) session =
    applyOptions manager rest
      { session with policy := { session.policy with deny := true } } := by
  rw [applyOptions, if_neg (by decide), if_pos rfl]
  rfl

section Other
variable (suppresses : option ≠ noWarningsFlag) (denies : option ≠ denyWarningsFlag)
  {asked : Session σ}
include suppresses denies

theorem applyOptions_unknown
    (unknown : Session.ask (manager.arityOf option) session = (none, asked)) :
    applyOptions manager (option :: rest) session =
      (false, (applyOptions manager rest (complain (.unknownOption option) asked).2).2) := by
  rw [applyOptions, if_neg suppresses, if_neg denies, bind_of_run unknown]
  rfl

variable {count : Nat}
  (known : Session.ask (manager.arityOf option) session = (some count, asked))
include known

theorem applyOptions_missing (short : rest.length < count) :
    applyOptions manager (option :: rest) session =
      (false, (complain (.missingValues option count) asked).2) := by
  rw [applyOptions, if_neg suppresses, if_neg denies, bind_of_run known]
  simp only [if_pos short]
  rfl

theorem applyOptions_handed (enough : ¬rest.length < count) :
    applyOptions manager (option :: rest) session =
      let handed := handOver manager option (rest.take count) asked
      let others := applyOptions manager (rest.drop count) handed.2
      (handed.1 && others.1, others.2) := by
  rw [applyOptions, if_neg suppresses, if_neg denies, bind_of_run known]
  simp only [if_neg enough]
  rfl

omit known in
theorem exists_handed (accepted : (applyOptions manager (option :: rest) session).1 = true) :
    ∃ count asked, Session.ask (manager.arityOf option) session = (some count, asked) ∧
      ¬rest.length < count ∧ (handOver manager option (rest.take count) asked).1 = true ∧
      (applyOptions manager (rest.drop count)
        (handOver manager option (rest.take count) asked).2).1 = true := by
  rcases known : Session.ask (manager.arityOf option) session with ⟨_ | count, asked⟩
  · rw [applyOptions_unknown suppresses denies known] at accepted
    cases accepted
  · by_cases short : rest.length < count
    · rw [applyOptions_missing suppresses denies known short] at accepted
      cases accepted
    · rw [applyOptions_handed suppresses denies known short] at accepted
      obtain ⟨handed, others⟩ := Bool.and_eq_true_iff.mp accepted
      exact ⟨count, asked, rfl, short, handed, others⟩

end Other

theorem applyOptions_accepted {value : String} {asked next : Session σ}
    (suppresses : option ≠ noWarningsFlag) (denies : option ≠ denyWarningsFlag)
    (known : Session.ask (manager.arityOf option) session = (some 1, asked))
    (handed : handOver manager option [value] asked = (true, next)) :
    applyOptions manager (option :: value :: rest) session = applyOptions manager rest next := by
  rw [applyOptions_handed suppresses denies known (by simp)]
  dsimp only
  rw [List.take_succ_cons, List.take_zero, handed, List.drop_one, List.tail_cons, Bool.true_and]
  rfl

/-- Options that are accepted in front of others have done their work when these come. -/
theorem applyOptions_append {before : List String} {session : Session σ} (more : List String)
    (accepted : (applyOptions manager before session).1 = true) :
    applyOptions manager (before ++ more) session =
      applyOptions manager more (applyOptions manager before session).2 := by
  match before with
  | [] => rw [List.nil_append, applyOptions_nil]
  | option :: rest =>
      rw [List.cons_append]
      by_cases suppresses : option = noWarningsFlag
      · subst suppresses
        rw [applyOptions_noWarnings] at accepted ⊢
        rw [applyOptions_noWarnings]
        exact applyOptions_append more accepted
      by_cases denies : option = denyWarningsFlag
      · subst denies
        rw [applyOptions_denyWarnings] at accepted ⊢
        rw [applyOptions_denyWarnings]
        exact applyOptions_append more accepted
      obtain ⟨count, asked, known, short, handed, others⟩ :=
        exists_handed suppresses denies accepted
      have enough : ¬(rest ++ more).length < count := by
        rw [List.length_append]
        omega
      have room : count - rest.length = 0 := by omega
      rw [applyOptions_handed suppresses denies known short,
        applyOptions_handed suppresses denies known enough, List.take_append, List.drop_append,
        room, List.take_zero, List.append_nil, List.drop_zero]
      dsimp only
      rw [applyOptions_append more others, handed, Bool.true_and]
      rfl
  termination_by before.length
  decreasing_by all_goals (simp only [List.length_cons, List.length_drop]; omega)

theorem handOver_run {values : List String} {files : σ}
    (handled : manager.handleOption option values session.files = (.ok true, files)) :
    handOver manager option values session = (true, { session with files }) := by
  have handed : Session.onFiles (manager.handleOption option values) session =
      (.ok true, { session with files }) := by
    simp only [Session.onFiles, handled]
  unfold handOver
  exact bind_of_run handed

/-! ## The standard file manager -/

open StandardFiles

/-- What a list of options comes to for the standard file manager. -/
structure Settings where
  accepted : Bool
  directories : List Path
  outputDir : Option Path
  flags : WarningPolicy
  problems : List Diagnostic

def Settings.on (settings : Settings) (session : Session StandardFiles) :
    Session StandardFiles :=
  { session with
    files := { session.files with
      classPath := settings.directories.foldl addEntry session.files.classPath
      outputDir := settings.outputDir.or session.files.outputDir }
    policy := {
      suppress := settings.flags.suppress || session.policy.suppress
      deny := settings.flags.deny || session.policy.deny }
    delivered := session.delivered ++ settings.problems }

theorem complain_run {problem : Problem} (grave : problem.severity = .error)
    (session : Session σ) : complain problem session =
      ((), { session with
        delivered := session.delivered ++ [problem.diagnostic none none] }) := by
  have kept : session.policy.apply (problem.diagnostic none none) =
      some (problem.diagnostic none none) := by
    rw [WarningPolicy.apply, if_neg]
    simp [Problem.diagnostic, grave]
  change ((), { session with delivered := session.delivered ++
    (session.policy.apply (problem.diagnostic none none)).toList }) = _
  rw [kept]
  rfl

theorem ask_arity_standard (session : Session StandardFiles)
    (standard : option ∈ ClassPath.flags ∨ option = outputDirFlag) :
    Session.ask (StandardFiles.manager.arityOf option) session = (some 1, session) := by
  change (if option ∈ ClassPath.flags ∨ option = outputDirFlag then some 1 else none, session) = _
  rw [if_pos standard]

theorem ask_arity_other (session : Session StandardFiles)
    (other : ¬(option ∈ ClassPath.flags ∨ option = outputDirFlag)) :
    Session.ask (StandardFiles.manager.arityOf option) session = (none, session) := by
  change (if option ∈ ClassPath.flags ∨ option = outputDirFlag then some 1 else none, session) = _
  rw [if_neg other]

section Handing
variable {value : String} {session : Session StandardFiles}

theorem handOver_classPath (flag : option ∈ ClassPath.flags) :
    handOver StandardFiles.manager option [value] session =
      (true, { session with files := { session.files with
        classPath := ((ClassPath.entries value).map Path.mk).foldl addEntry
          session.files.classPath } }) := by
  have handled : StandardFiles.manager.handleOption option [value] session.files =
      (.ok true, { session.files with
        classPath := ((ClassPath.entries value).map Path.mk).foldl addEntry
          session.files.classPath }) := by
    change (if option ∈ ClassPath.flags then _ else _ : FileOp StandardFiles Bool) _ = _
    rw [if_pos flag]
    rfl
  exact handOver_run handled

theorem handOver_outputDir :
    handOver StandardFiles.manager outputDirFlag [value] session =
      (true, { session with files := { session.files with outputDir := some ⟨value⟩ } }) :=
  handOver_run rfl

end Handing

theorem handOver_standard (value : String)
    (standard : option ∈ ClassPath.flags ∨ option = outputDirFlag)
    (session : Session StandardFiles) :
    ∃ next, handOver StandardFiles.manager option [value] session = (true, next) := by
  rcases standard with flag | rfl
  · exact ⟨_, handOver_classPath flag⟩
  · exact ⟨_, handOver_outputDir⟩

/-- A list of options comes to the same in every session. -/
theorem exists_settings (options : List String) : ∃ settings : Settings,
    ∀ session, applyOptions StandardFiles.manager options session =
      (settings.accepted, settings.on session) := by
  match options with
  | [] =>
      refine ⟨⟨true, [], none, .default, []⟩, ?_⟩
      intro session
      rw [applyOptions_nil]
      simp [Settings.on, WarningPolicy.default]
  | option :: rest =>
      by_cases suppresses : option = noWarningsFlag
      · obtain ⟨others, run⟩ := exists_settings rest
        refine ⟨{ others with flags := { others.flags with suppress := true } }, ?_⟩
        intro session
        rw [suppresses, applyOptions_noWarnings, run]
        simp [Settings.on]
      by_cases denies : option = denyWarningsFlag
      · obtain ⟨others, run⟩ := exists_settings rest
        refine ⟨{ others with flags := { others.flags with deny := true } }, ?_⟩
        intro session
        rw [denies, applyOptions_denyWarnings, run]
        simp [Settings.on]
      by_cases standard : option ∈ ClassPath.flags ∨ option = outputDirFlag
      · have arity (session : Session StandardFiles) := ask_arity_standard session standard
        match rest with
        | [] =>
            refine ⟨⟨false, [], none, .default,
              [(Problem.missingValues option 1).diagnostic none none]⟩, ?_⟩
            intro session
            rw [applyOptions_missing suppresses denies (arity _) (by decide), complain_run rfl]
            simp [Settings.on, WarningPolicy.default]
        | value :: rest =>
            obtain ⟨others, run⟩ := exists_settings rest
            rcases standard with flag | rfl
            · refine ⟨{ others with
                directories := (ClassPath.entries value).map Path.mk ++ others.directories }, ?_⟩
              intro session
              rw [applyOptions_accepted suppresses denies (arity _) (handOver_classPath flag), run]
              simp [Settings.on]
            · refine ⟨{ others with outputDir := others.outputDir.or (some ⟨value⟩) }, ?_⟩
              intro session
              rw [applyOptions_accepted suppresses denies (arity _) handOver_outputDir, run]
              simp [Settings.on]
      · have unknown (session : Session StandardFiles) := ask_arity_other session standard
        obtain ⟨others, run⟩ := exists_settings rest
        refine ⟨{ others with
          accepted := false
          problems := (Problem.unknownOption option).diagnostic none none :: others.problems }, ?_⟩
        intro session
        rw [applyOptions_unknown suppresses denies (unknown _), complain_run rfl, run]
        simp [Settings.on]
  termination_by options.length

/-! ## Words -/

def optionWords : List String :=
  noWarningsFlag :: denyWarningsFlag :: outputDirFlag :: ClassPath.flags

theorem entries_optionWord : ∀ word ∈ optionWords, ClassPath.entries word = [word] := by
  decide

theorem mem_optionWords {session : Session StandardFiles}
    (accepted : (applyOptions StandardFiles.manager (option :: rest) session).1 = true) :
    option ∈ optionWords := by
  by_contra other
  simp only [optionWords, List.mem_cons, not_or] at other
  obtain ⟨suppresses, denies, directory, flag⟩ := other
  have other : ¬(option ∈ ClassPath.flags ∨ option = outputDirFlag) := by
    rintro (known | known)
    · exact absurd known (by simpa [ClassPath.flags] using flag)
    · exact directory known
  rw [applyOptions_unknown suppresses denies (ask_arity_other session other)] at accepted
  cases accepted

/-- Options that are accepted only with more behind them end with one that lacks its value. -/
theorem exists_completed {before : List String} {session : Session StandardFiles} (value : String)
    (accepted : (applyOptions StandardFiles.manager (before ++ value :: rest) session).1 = true)
    (refused : (applyOptions StandardFiles.manager before session).1 = false) :
    ∃ completed, ∀ more, applyOptions StandardFiles.manager (before ++ value :: more) session =
      applyOptions StandardFiles.manager more completed := by
  match before with
  | [] =>
      rw [applyOptions_nil] at refused
      cases refused
  | option :: before =>
      have word := mem_optionWords accepted
      by_cases suppresses : option = noWarningsFlag
      · subst suppresses
        rw [List.cons_append, applyOptions_noWarnings] at accepted
        rw [applyOptions_noWarnings] at refused
        simp only [List.cons_append, applyOptions_noWarnings]
        exact exists_completed value accepted refused
      by_cases denies : option = denyWarningsFlag
      · subst denies
        rw [List.cons_append, applyOptions_denyWarnings] at accepted
        rw [applyOptions_denyWarnings] at refused
        simp only [List.cons_append, applyOptions_denyWarnings]
        exact exists_completed value accepted refused
      have standard : option ∈ ClassPath.flags ∨ option = outputDirFlag := by
        simpa [optionWords, suppresses, denies, or_comm] using word
      have valued (text : String) : ∃ next, ∀ more,
          applyOptions StandardFiles.manager (option :: text :: more) session =
            applyOptions StandardFiles.manager more next := by
        obtain ⟨next, handed⟩ := handOver_standard text standard session
        exact ⟨next, fun more =>
          applyOptions_accepted suppresses denies (ask_arity_standard session standard) handed⟩
      match before with
      | [] => exact valued value
      | text :: before =>
          obtain ⟨next, run⟩ := valued text
          rw [List.cons_append, List.cons_append, run] at accepted
          rw [run] at refused
          simp only [List.cons_append, run]
          exact exists_completed value accepted refused
  termination_by before.length

end UnitCompiler

end UnitForge
