import UnitForge.Proofs.Compiler.Elaborated
import UnitForge.Proofs.Compiler.Reports
import UnitForge.Proofs.Lowering.References

/-! # Where images come from

An image that a compilation without errors has written, with the struct that it was lowered from and
everything that the compiler knew of other units by then. -/
set_option autoImplicit false
namespace UnitForge.UnitCompiler

open Step

/-- The struct of a source, in a compilation without errors, that an image was lowered from. -/
structure Origin where
  {σ : Type}
  manager : FileManager σ
  task : CompilationTask
  files : σ
  succeeded : (compile manager task files).1.succeeded = true
  answers : List (SourceUnit × List UnitImage)
  prepared : Session σ
  preparing : prepare manager task (.start files) = (some answers, prepared)
  source : SourceUnit
  images : List UnitImage
  answered : (source, images) ∈ answers
  analysed : Analysed manager source images prepared
  owner : UnitSig
  image : UnitImage
  lowered : (owner, image) ∈ analysed.sigs.zip images

/-- Every image of a compilation without errors has an origin in it. -/
theorem exists_origin {σ : Type} {manager : FileManager σ} {task : CompilationTask} {files : σ}
    (succeeded : (compile manager task files).1.succeeded = true) :
    ∃ answers prepared, prepare manager task (.start files) = (some answers, prepared) ∧
      answers.map Prod.fst = task.units ∧
      ∀ source images, (source, images) ∈ answers → ∀ image ∈ images, ∃ origin : Origin,
        origin.source = source ∧ origin.images = images ∧ origin.image = image := by
  have ran : carryOut manager task (.start files) =
      (true, (carryOut manager task (.start files)).2) := by
    rw [run_eta (carryOut manager task)]
    exact Prod.ext succeeded rfl
  obtain ⟨answers, prepared, preparing, clean, -⟩ := carryOut_succeeded ran
  obtain ⟨_, same, all⟩ := prepare_run preparing clean
  cases same
  refine ⟨answers, prepared, preparing, ?_, ?_⟩
  · have units := map_eq_map_of_forall₂ (f := id) (g := Prod.fst) all
      fun _ _ _ ⟨same, _⟩ => same.symm
    rw [← units, List.map_id]
  · intro source images answered image member
    obtain ⟨_, -, rfl, ⟨analysed⟩⟩ := exists_of_forall₂ all (source, images) answered
    obtain ⟨owner, -, lowered, -⟩ :=
      exists_of_forall₂ (forall₂_and_zip analysed.lowered) image member
    exact ⟨{
      manager, task, files, succeeded, answers, prepared, preparing, source, images, answered,
      analysed, owner, image, lowered }, rfl, rfl, rfl⟩

namespace Origin

variable (origin : Origin)

def references : References :=
  (origin.analysed.references origin.owner).restrict origin.image.references

theorem elabUnit : ElabUnit origin.references origin.owner origin.image :=
  ElabUnit.restrict ((List.forall₂_iff_zip.mp origin.analysed.elabUnits).2 origin.lowered)

theorem wellNamed : origin.prepared.WellNamed := by
  have run := origin.preparing
  obtain ⟨accepted, middle, applied, run⟩ := bind_run run
  cases accepted with
  | false => cases (Prod.mk.inj run).1
  | true =>
      obtain ⟨answers, reached, all, run⟩ := bind_run run
      have units := @applyOptions_units _ origin.manager origin.task.options (.start origin.files)
      rw [applied] at units
      obtain ⟨-, rfl⟩ := Prod.mk.inj run
      apply (analyseAll_run all).1.wellNamed
      intro name image known
      rw [units] at known
      cases known

variable {origin} {name : String} {image : UnitImage}

theorem named (seen : origin.references.image? name = some image) : image.name = name := by
  obtain ⟨-, seen⟩ := References.restrict_iff.mp seen
  rcases Option.or_eq_some_iff.mp seen with own | ⟨-, other⟩
  · have same := List.find?_some own
    exact of_decide_eq_true same
  · apply origin.wellNamed name image
    exact Option.join_eq_some_iff.mp other

theorem seen_of_mem (member : image ∈ origin.images)
    (referenced : image.name ∈ origin.image.references) :
    origin.references.image? image.name = some image := by
  have found : (origin.images.find? (·.name = image.name)).isSome = true :=
    List.find?_isSome.mpr ⟨image, member, decide_eq_true rfl⟩
  obtain ⟨first, here⟩ := Option.isSome_iff_exists.mp found
  have same : first.name = image.name := by simpa using List.find?_some here
  have unique : first = image := List.inj_on_of_nodup_map origin.analysed.nodup
    (List.mem_of_find?_eq_some here) member same
  refine References.restrict_iff.mpr ⟨referenced, ?_⟩
  simp only [UnitCompiler.Analysed.references, here, Option.some_or, unique]

theorem own (seen : origin.references.image? origin.image.name = some image) :
    image = origin.image := by
  have member : origin.image ∈ origin.images := (List.of_mem_zip origin.lowered).2
  have referenced := (References.restrict_iff.mp seen).1
  exact Option.some.inj (seen.symm.trans (seen_of_mem member referenced))

end Origin

end UnitForge.UnitCompiler
