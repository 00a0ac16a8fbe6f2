import UnitForge.Proofs.Compiler.Persistence
import UnitForge.Proofs.Compiler.Warnings
import UnitForge.Proofs.Dialect.Lockstep
import UnitForge.Proofs.Dialect.Steadiness

/-! # Compiling sources of another layout

The places of its parts do not matter to a source: it has the same images wherever they stand, and
diagnostics that differ in their places alone. One source can therefore take the place of another
one if their images correspond once the places are erased, and it is prepared without an error if
the other one is. -/
set_option autoImplicit false
namespace UnitForge

open Source Step

variable {σ : Type}

/-! ## Places that do not count -/

def Position.erase (_ : Position) : Position :=
  ⟨1, 1⟩

/-- The file with every part of it at one place. -/
def Source.File.unplaced (file : File) : File :=
  file.relocate .erase (TypeTree.relocate .erase)

def Diagnostic.unplaced (diagnostic : Diagnostic) : Diagnostic :=
  diagnostic.relocate .erase

namespace Session

def relocate (move : Position → Position) (session : Session σ) : Session σ :=
  { session with delivered := session.delivered.map (·.relocate move) }

theorem relocate_policy (move : Position → Position) (policy : WarningPolicy)
    (diagnostic : Diagnostic) :
    policy.apply (diagnostic.relocate move) = (policy.apply diagnostic).map (·.relocate move) := by
  have severity : (diagnostic.relocate move).severity = diagnostic.severity := rfl
  rw [WarningPolicy.apply, WarningPolicy.apply, severity]
  by_cases warns : diagnostic.severity = .warning
  · by_cases suppresses : policy.suppress = true
    · simp [warns, suppresses]
    · by_cases denies : policy.deny = true <;>
        simp [warns, suppresses, denies, Diagnostic.relocate]
  · simp [warns]

/-- Nothing that a session asks for depends on the places of what it delivered. -/
theorem lockstep_relocate {move : Position → Position} (nowhere : move ⟨1, 1⟩ = ⟨1, 1⟩)
    (manager : FileManager σ) :
    Lockstep move (fun session other => other = session.relocate move) manager manager where
  nowhere := nowhere
  report diagnostic := by
    rintro session _ rfl
    refine ⟨rfl, ?_⟩
    have told : session.delivered.map (·.relocate move) ++
          (session.policy.apply (diagnostic.relocate move)).toList =
        (session.delivered ++ (session.policy.apply diagnostic).toList).map (·.relocate move) := by
      rw [relocate_policy, Option.toList_map, List.map_append]
    exact congrArg (fun delivered => { session with delivered }) told
  list _ _ _ _ := by
    rintro session _ rfl
    exact ⟨rfl, rfl⟩
  input _ _ _ := by
    rintro session _ rfl
    exact ⟨rfl, rfl⟩
  read _ := by
    rintro session _ rfl
    exact ⟨rfl, rfl⟩
  nameOf _ _ := by
    rintro session _ rfl
    exact ⟨rfl, rfl⟩
  units same := by
    rw [same]
    rfl
  packages same := by
    rw [same]
    rfl
  learnUnit _ := by
    rintro session _ rfl
    exact ⟨rfl, rfl⟩
  learnPackage _ := by
    rintro session _ rfl
    exact ⟨rfl, rfl⟩

theorem clean_relocate (move : Position → Position) (session : Session σ) :
    (session.relocate move).Clean ↔ session.Clean := by
  unfold Clean errors relocate Diagnostic.count
  rw [List.countP_map]
  rfl

end Session

namespace UnitCompiler

open Session

theorem images_unplaced (manager : FileManager σ) (file : File) (unit : SourceUnit)
    (session : Session σ) : images manager file.unplaced unit (session.relocate .erase) =
      ((images manager file unit session).1,
        (images manager file unit session).2.relocate .erase) := by
  have agree : Agreement .erase (fun session other => other = session.relocate .erase)
      manager manager :=
    (lockstep_relocate rfl manager).agreement
  have ⟨same, after⟩ := images_alike agree file unit session _ rfl
  exact Prod.ext same.symm after

theorem clean_of_unplaced {before after : Session σ}
    (perm : (before.delivered.map Diagnostic.unplaced).Perm
      (after.delivered.map Diagnostic.unplaced)) (clean : before.Clean) : after.Clean := by
  rw [clean_iff] at clean ⊢
  intro diagnostic member
  obtain ⟨first, known, same⟩ :=
    List.mem_map.mp (perm.mem_iff.mpr (List.mem_map_of_mem member))
  have severity : first.unplaced.severity = diagnostic.unplaced.severity :=
    congrArg Diagnostic.severity same
  exact fun grave => clean first known (severity.trans grave)

/-! ## Prepared sources -/

section Single
variable {manager : FileManager σ} {options : List String} {unit : SourceUnit} {file : File}
  {before opened last : Session σ} {found : Option (List UnitImage)}
  (parsed : File.parse? unit.text = .ok file)
  (finds : images manager file unit opened = (found, last))
include parsed finds

theorem analyse_single : analyse manager unit opened =
    (if last.errors = opened.errors then found else none, last) := by
  rw [analyse_ok parsed, finds]

theorem prepare_single (accepted : applyOptions manager options before = (true, opened)) :
    prepare manager { options, units := [unit] } before =
      (some ((if last.errors = opened.errors then found else none).toList.map (unit, ·)),
        last) := by
  have one : analyseUnit manager unit opened =
      ((if last.errors = opened.errors then found else none).map (unit, ·), last) := by
    unfold analyseUnit
    rw [bind_of_run (analyse_single parsed finds)]
    rfl
  have all : analyseAll manager [unit] opened = ((analyseUnit manager unit opened).1.toList,
      (analyseUnit manager unit opened).2) := by
    have run := filterMapM_cons_run (analyseUnit manager) unit [] opened
    rw [List.filterMapM_nil] at run
    exact run.trans (Prod.ext (List.append_nil _) rfl)
  rw [prepare_accepted accepted, all, one, Option.toList_map]

theorem errors_single (clean : last.Clean) : last.errors = opened.errors := by
  have grown : opened.Extends manager (analyse manager unit opened).2 := analyse_extends unit opened
  rw [analyse_single parsed finds] at grown
  exact clean.trans (grown.clean clean).symm

end Single

theorem images_named {manager : FileManager σ} {unit unit' : SourceUnit}
    (named : unit'.name = unit.name) (file : File) :
    images manager file unit' = images manager file unit := by
  obtain ⟨name, text⟩ := unit
  obtain ⟨_, text'⟩ := unit'
  obtain rfl : _ = name := named
  rfl

section Standard
variable {files : StandardFiles} {options : List String} {unit unit' : SourceUnit}
  {file other : File} {images : List UnitImage} {prepared : Session StandardFiles}

/-- After accepted options nothing is known of the class path yet, and what it answers does not
change in the course of a compilation. -/
theorem exists_ready {opened : Session StandardFiles}
    (accepted : applyOptions StandardFiles.manager options (.start files) = (true, opened)) :
    ∃ answers : ClassPathAnswers StandardFiles.manager opened.files opened.policy,
      opened.Ready answers := by
  have still : StandardFiles.manager.Still opened.files :=
    fun _ looks => StandardFiles.eq_of_looks looks
  obtain ⟨answers⟩ := ClassPathAnswers.exist still opened.policy
  obtain ⟨settings, run⟩ := exists_settings options
  obtain rfl : settings.on (.start files) = opened :=
    congrArg Prod.snd ((run (.start files)).symm.trans accepted)
  exact ⟨answers, rfl, rfl, nofun, nofun, List.nodup_nil⟩

/-- A source that is prepared without an error can be exchanged for another one that has
corresponding images and diagnostics after the same options. -/
theorem PreparedOnDisk.exchange {Q : List UnitImage → List UnitImage → Prop}
    {T : List Diagnostic → List Diagnostic → Prop} (named : unit'.name = unit.name)
    (parsed : File.parse? unit.text = .ok file) (parsed' : File.parse? unit'.text = .ok other)
    (outcome : ∀ opened,
      applyOptions StandardFiles.manager options (.start files) = (true, opened) →
      let here := UnitCompiler.images StandardFiles.manager file unit opened
      let there := UnitCompiler.images StandardFiles.manager other unit opened
      here.2.Clean → Option.Rel Q here.1 there.1 ∧ T here.2.delivered there.2.delivered ∧
        there.2.Clean)
    (prepares : PreparedOnDisk options unit files images prepared) :
    ∃ images' prepared', PreparedOnDisk options unit' files images' prepared' ∧
      Q images images' ∧ T prepared.delivered prepared'.delivered := by
  obtain ⟨accepted, opened, applied, later⟩ := bind_run prepares.run
  cases accepted with
  | false => cases later
  | true =>
      rcases finds : UnitCompiler.images StandardFiles.manager file unit opened with ⟨found, last⟩
      rcases finds' : UnitCompiler.images StandardFiles.manager other unit' opened
        with ⟨found', last'⟩
      obtain ⟨all, rfl⟩ :=
        Prod.mk.inj ((prepare_single parsed finds applied).symm.trans prepares.run)
      have clean := prepares.clean
      have corresponds := outcome opened applied
      rw [finds, ← images_named named, finds'] at corresponds
      obtain ⟨same, told, clean'⟩ := corresponds clean
      have there := prepare_single parsed' finds' applied
      rw [if_pos (errors_single parsed finds clean)] at all
      rw [if_pos (errors_single parsed' finds' clean')] at there
      cases same with
      | none => cases all
      | some same =>
          obtain ⟨_, one, prepares'⟩ := preparedOnDisk there clean'
          cases all
          cases one
          exact ⟨_, _, prepares', same, told⟩

end Standard

end UnitCompiler

end UnitForge
