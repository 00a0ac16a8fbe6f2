import UnitForge.Dialect.Compiler
import UnitForge.Proofs.Lowering.Units
import Mathlib.Data.List.Nodup

/-! # Analyses without errors

A source unit that is analysed without an error has an image for each of its structs, in the order
in which they are declared. -/
set_option autoImplicit false
namespace UnitForge

theorem Name.qualify_injective (package : String) : Function.Injective (Name.qualify package) := by
  intro first second same
  unfold Name.qualify at same
  split at same
  · exact same
  · exact (String.append_right_inj _).mp same

namespace UnitCompiler

open Source Step

variable {σ : Type} {manager : FileManager σ}

def structNames (unit : SourceUnit) : List String :=
  match File.parse? unit.text with
  | .ok file => file.structs.map fun tree => Name.qualify unit.package tree.ident.name
  | .error _ => []

theorem structNames_ok {unit : SourceUnit} {file : File}
    (parsed : File.parse? unit.text = .ok file) :
    structNames unit = file.structs.map fun tree => Name.qualify unit.package tree.ident.name := by
  unfold structNames
  simp only [parsed]

/-- What an analysis without errors found out by the time of a session. -/
structure Analysed (manager : FileManager σ) (unit : SourceUnit) (images : List UnitImage)
    (last : Session σ) where
  file : File
  decls : Declarations
  sigs : List UnitSig
  parsed : File.parse? unit.text = .ok file
  formed : decls.Formed unit
  resolved : decls.Resolved
  trees : decls.trees = file.structs
  names : sigs.map UnitSig.name = decls.structs.map DeclaredStruct.name
  fullNames : sigs.map UnitSig.fullName = decls.structs.map DeclaredStruct.fullName
  known : ∀ sig ∈ sigs, sig.Known
  lowered : List.Forall₂ (fun owner image => ∃ reached : Session σ,
    UnitSig.Lowered manager decls sigs owner image reached ∧ reached.Extends manager last)
    sigs images

namespace Analysed

variable {unit : SourceUnit} {images : List UnitImage} {last : Session σ}

def later (analysed : Analysed manager unit images last) {final : Session σ}
    (grown : last.Extends manager final) : Analysed manager unit images final :=
  { analysed with
    lowered := analysed.lowered.imp fun _ _ ⟨reached, lowered, before⟩ =>
      ⟨reached, lowered, before.trans grown⟩ }

theorem image_names (analysed : Analysed manager unit images last) :
    images.map UnitImage.name = analysed.sigs.map UnitSig.fullName :=
  (map_eq_map_of_forall₂ analysed.lowered
    fun _ _ _ ⟨_, lowered, _⟩ => lowered.name.symm).symm

theorem structNames_eq (analysed : Analysed manager unit images last) :
    images.map UnitImage.name = structNames unit := by
  have ⟨_, _, full, _⟩ := (Declarations.formed_iff _).mp analysed.formed
  rw [analysed.image_names, analysed.fullNames, full, analysed.trees,
    structNames_ok analysed.parsed]

theorem nodup (analysed : Analysed manager unit images last) :
    (images.map UnitImage.name).Nodup := by
  have ⟨_, _, full, distinct⟩ := (Declarations.formed_iff _).mp analysed.formed
  have qualified := List.Nodup.map (Name.qualify_injective unit.package) distinct
  rw [List.map_map] at qualified
  rw [analysed.image_names, analysed.fullNames, full]
  exact qualified

end Analysed

/-- The runs that an analysis without errors is made of. -/
structure AnalysisSteps (manager : FileManager σ) (unit : SourceUnit) (images : List UnitImage)
    (before after : Session σ) where
  file : File
  decls : Declarations
  sigs : List UnitSig
  collected : Session σ
  signed : Session σ
  parsed : File.parse? unit.text = .ok file
  collects : Declarations.collect manager file unit before = (decls, collected)
  signs : UnitSig.ofDeclarations manager decls collected = (sigs, signed)
  lowers : UnitSig.lowerAll manager decls sigs signed = (some images, after)

def AnalysisSteps.analysed {unit : SourceUnit} {images : List UnitImage} {before after : Session σ}
    (steps : AnalysisSteps manager unit images before after) (clean : after.Clean) :
    Analysed manager unit images after :=
  have collecting := Declarations.collect_run steps.collects
  have signing := UnitSig.ofDeclarations_run steps.signs
  have lowering := UnitSig.lowerAll_run steps.lowers
  have signedClean : steps.signed.Clean := lowering.1.clean clean
  have whole := collecting.2.2 (signing.1.clean signedClean)
  { file := steps.file
    decls := steps.decls
    sigs := steps.sigs
    parsed := steps.parsed
    formed := collecting.2.1
    resolved := whole.1
    trees := whole.2
    names := signing.2.1
    fullNames := signing.2.2.1
    known := signing.2.2.2 whole.1 signedClean
    lowered := lowering.2.1 images rfl }

theorem analyse_steps {unit : SourceUnit} {found : Option (List UnitImage)}
    {before after : Session σ} (run : analyse manager unit before = (found, after)) :
    before.Extends manager after ∧ (after.Clean →
      ∃ images, found = some images ∧ Nonempty (AnalysisSteps manager unit images before after)) := by
  unfold analyse at run
  cases parsed : File.parse? unit.text with
  | error pos =>
      simp only [parsed] at run
      obtain ⟨_, told, complained, run⟩ := bind_run run
      cases run
      have reported : ¬(Session.complain unit.uri pos .malformedSource before).2.Clean :=
        Session.not_clean_complain rfl before
      rw [complained] at reported
      exact ⟨(Session.complain_extends _ _ _).of_run complained,
        fun clean => absurd clean reported⟩
  | ok file =>
      simp only [parsed] at run
      obtain ⟨_, _, got, run⟩ := bind_run run
      cases got
      obtain ⟨decls, first, collected, run⟩ := bind_run run
      obtain ⟨sigs, second, signed, run⟩ := bind_run run
      obtain ⟨images, third, lowered, run⟩ := bind_run run
      obtain ⟨_, _, got, run⟩ := bind_run run
      cases got
      cases run
      obtain ⟨collecting, -, whole⟩ := Declarations.collect_run collected
      obtain ⟨signing, -, -, known⟩ := UnitSig.ofDeclarations_run signed
      obtain ⟨lowering, -, all⟩ := UnitSig.lowerAll_run lowered
      have grown := (collecting.trans signing).trans lowering
      refine ⟨grown, ?_⟩
      intro clean
      have signedClean := lowering.clean clean
      have resolved := (whole (signing.clean signedClean)).1
      obtain ⟨images, rfl⟩ :=
        Option.isSome_iff_exists.mp (all resolved clean (known resolved signedClean))
      have same : after.errors = before.errors := clean.trans (grown.clean clean).symm
      refine ⟨images, by rw [if_pos same], ⟨?_⟩⟩
      exact {
        file, decls, sigs, parsed
        collected := first
        signed := second
        collects := collected
        signs := signed
        lowers := lowered }

def analyseUnit (manager : FileManager σ) (unit : SourceUnit) :
    Check σ (Option (SourceUnit × List UnitImage)) := do
  return (← analyse manager unit).map fun images => (unit, images)

/-- What every analysis without an error achieves, and later steps do not undo, is achieved for all
source units in the end. -/
theorem analyseAll_induct {P : SourceUnit → List UnitImage → Session σ → Prop}
    (each : ∀ {unit images before after},
      Nonempty (AnalysisSteps manager unit images before after) → after.Clean →
        P unit images after)
    (lasts : ∀ {unit images before after}, before.Extends manager after → P unit images before →
      P unit images after)
    {units : List SourceUnit} {found : List (SourceUnit × List UnitImage)}
    {before after : Session σ} (run : analyseAll manager units before = (found, after)) :
    before.Extends manager after ∧ (after.Clean → List.Forall₂ (fun unit answer =>
      answer.1 = unit ∧ P unit answer.2 after) units found) := by
  obtain ⟨rfl, rfl⟩ := Prod.ext_iff.mp run
  apply filterMapM_induct (f := analyseUnit manager)
    (P := fun done found session => before.Extends manager session ∧
      (session.Clean → List.Forall₂ (fun unit answer =>
        answer.1 = unit ∧ P unit answer.2 session) done found))
  · rintro done found unit state ⟨grown, known⟩
    have last := run_eta (analyseUnit manager unit) state
    obtain ⟨answer, reached, analysed, last⟩ := bind_run last
    obtain ⟨more, achieves⟩ := analyse_steps analysed
    obtain ⟨same, rfl⟩ := Prod.mk.inj last
    refine ⟨grown.trans more, ?_⟩
    intro clean
    apply List.rel_append
    · apply (known (more.clean clean)).imp
      rintro unit answer ⟨same, holds⟩
      exact ⟨same, lasts more holds⟩
    · obtain ⟨images, rfl, steps⟩ := achieves clean
      rw [← same]
      exact .cons ⟨rfl, each steps clean⟩ .nil
  · exact ⟨.refl before, fun _ => .nil⟩

/-- Without an error, every source unit is analysed, in order. -/
theorem analyseAll_run {units : List SourceUnit} {found : List (SourceUnit × List UnitImage)}
    {before after : Session σ} (run : analyseAll manager units before = (found, after)) :
    before.Extends manager after ∧ (after.Clean → List.Forall₂ (fun unit answer =>
      answer.1 = unit ∧ Nonempty (Analysed manager unit answer.2 after)) units found) := by
  apply analyseAll_induct
    (P := fun unit images last => Nonempty (Analysed manager unit images last))
  case each =>
    rintro unit images before after ⟨steps⟩ clean
    exact ⟨steps.analysed clean⟩
  case lasts =>
    rintro unit images before after grown ⟨analysed⟩
    exact ⟨analysed.later grown⟩
  case run => exact run

end UnitCompiler

end UnitForge
