import UnitForge.Proofs.Compiler.Origin
import UnitForge.Proofs.Dialect.Twins
import UnitForge.Proofs.Dialect.WellDeclared

/-! # Names of constructors

A constructor has the name of the function that it is made from. The functions of a struct may
stand in several blocks, but no two of them have one name, or the source has an error. A name
therefore stands for at most one constructor of an image that was emitted. -/
set_option autoImplicit false
namespace UnitForge

open Source Step

variable {σ : Type} {manager : FileManager σ} {before after : Session σ}

/-- The functions of a struct that was declared without an error have names of their own. -/
theorem Declarations.collect_functions {file : File} {unit : SourceUnit} {decls : Declarations}
    (run : collect manager file unit before = (decls, after)) (clean : after.Clean) :
    ∀ struct ∈ decls.structs, (struct.functions.map (·.ident.name)).Nodup := by
  have well : file.WellDeclared := collect_clean run clean
  rw [collect_wellDeclared well] at run
  obtain ⟨resolved, middle, resolving, run⟩ := bind_run run
  obtain ⟨_, last, -, run⟩ := bind_run run
  cases run
  obtain ⟨-, same, -⟩ := resolveImports_run resolving
  intro struct member
  obtain ⟨head, inside, rfl⟩ := List.mem_map.mp member
  have bare : head.functions = [] := by
    rw [same.structs] at inside
    obtain ⟨tree, -, rfl⟩ := List.mem_map.mp inside
    rfl
  dsimp only
  rw [bare, List.nil_append]
  exact well.functions head.name

namespace UnitSig

variable {decls : Declarations}

theorem constructorSigs_sublist (manager : FileManager σ) (decls : Declarations) (owner : String)
    (functions : List FunctionTree) (before : Session σ) :
    ((functions.filterMapM (constructorSig manager decls owner) before).1.map
      ConstructorSig.name).Sublist (functions.map (·.ident.name)) := by
  refine filterMapM_induct (f := constructorSig manager decls owner)
    (P := fun done found _ =>
      (found.map ConstructorSig.name).Sublist (done.map (·.ident.name)))
    ?_ functions (List.Sublist.refl [])
  intro done found function state known
  rw [List.map_append, List.map_append]
  apply known.append
  rcases run : constructorSig manager decls owner function state with ⟨_ | ctor, last⟩
  · exact List.nil_sublist _
  · have named : ctor.name = function.ident.name := (constructorSig_made run).2
    simp [named]

theorem ofStruct_distinct {struct : DeclaredStruct} {sig : UnitSig}
    (distinct : (struct.functions.map (·.ident.name)).Nodup)
    (run : ofStruct manager decls struct before = (sig, after)) :
    (sig.constructors.map ConstructorSig.name).Nodup := by
  obtain ⟨fields, first, -, run⟩ := bind_run run
  obtain ⟨found, second, running, run⟩ := bind_run run
  obtain ⟨_, third, -, run⟩ := bind_run run
  cases run
  have listed := constructorSigs_sublist manager decls struct.name struct.functions first
  rw [running] at listed
  dsimp only
  split
  · exact List.nodup_singleton _
  · exact listed.nodup distinct

theorem ofDeclarations_distinct {sigs : List UnitSig}
    (distinct : ∀ struct ∈ decls.structs, (struct.functions.map (·.ident.name)).Nodup)
    (run : ofDeclarations manager decls before = (sigs, after)) :
    ∀ sig ∈ sigs, (sig.constructors.map ConstructorSig.name).Nodup := by
  obtain ⟨rfl, -⟩ := Prod.ext_iff.mp run
  have all : decls.structs ⊆ decls.structs → ∀ sig ∈ (ofDeclarations manager decls before).1,
      (sig.constructors.map ConstructorSig.name).Nodup := by
    apply mapM_induct (f := ofStruct manager decls) (P := fun done sigs _ =>
      done ⊆ decls.structs → ∀ sig ∈ sigs, (sig.constructors.map ConstructorSig.name).Nodup)
    · intro done sigs struct state known included
      rw [List.append_subset] at included
      have declared : struct ∈ decls.structs := included.2 (List.mem_singleton_self struct)
      have last := run_eta (ofStruct manager decls struct) state
      rw [List.forall_mem_append, List.forall_mem_singleton]
      exact ⟨known included.1, ofStruct_distinct (distinct struct declared) last⟩
    · exact fun _ => List.forall_mem_nil _
  exact all (List.Subset.refl _)

end UnitSig

def UnitImage.NamesApart (image : UnitImage) : Prop :=
  (image.constructors.map ConstructorDecl.name).Nodup

theorem UnitImage.NamesApart.constructor? {image : UnitImage} (apart : image.NamesApart)
    {ctor : ConstructorDecl} (member : ctor ∈ image.constructors) :
    image.constructor? ctor.name = some ctor := by
  have found : (image.constructor? ctor.name).isSome = true :=
    List.find?_isSome.mpr ⟨ctor, member, decide_eq_true rfl⟩
  obtain ⟨first, here⟩ := Option.isSome_iff_exists.mp found
  have same : first.name = ctor.name := by simpa using List.find?_some here
  have unique : first = ctor :=
    List.inj_on_of_nodup_map apart (List.mem_of_find?_eq_some here) member same
  rw [here, unique]

namespace UnitCompiler

variable {unit : SourceUnit} {images : List UnitImage}

theorem AnalysisSteps.namesApart (steps : AnalysisSteps manager unit images before after)
    (clean : after.Clean) : ∀ image ∈ images, image.NamesApart := by
  have grown := (UnitSig.lowerAll_run steps.lowers).1
  have signing := (UnitSig.ofDeclarations_run steps.signs).1
  have collected : steps.collected.Clean := (signing.trans grown).clean clean
  have functions := Declarations.collect_functions steps.collects collected
  have distinct := UnitSig.ofDeclarations_distinct functions steps.signs
  intro image member
  obtain ⟨owner, signed, elab_⟩ :=
    exists_of_forall₂ (steps.analysed clean).elabUnits image member
  have names : owner.constructors.map ConstructorSig.name =
      image.constructors.map ConstructorDecl.name :=
    map_eq_map_of_forall₂ elab_.constructors fun _ _ _ made => made.name.symm
  rw [UnitImage.NamesApart, ← names]
  exact distinct owner signed

/-- In an image that was emitted, a name stands for at most one constructor. -/
theorem Origin.namesApart (origin : Origin) : origin.image.NamesApart := by
  have carried : carryOut origin.manager origin.task (.start origin.files) =
      (true, (carryOut origin.manager origin.task (.start origin.files)).2) := by
    rw [run_eta (carryOut origin.manager origin.task)]
    exact Prod.ext origin.succeeded rfl
  obtain ⟨answers, prepared, preparing, clean, -⟩ := carryOut_succeeded carried
  cases origin.preparing.symm.trans preparing
  obtain ⟨accepted, middle, -, run⟩ := bind_run origin.preparing
  cases accepted with
  | false => cases (Prod.mk.inj run).1
  | true =>
      obtain ⟨answers, reached, all, run⟩ := bind_run run
      obtain ⟨found, rfl⟩ := Prod.mk.inj run
      have each := (analyseAll_induct
        (P := fun _ images _ => ∀ image ∈ images, image.NamesApart)
        (fun ⟨steps⟩ clean => steps.namesApart clean) (fun _ apart => apart) all).2 clean
      rw [Option.some.inj found] at each
      obtain ⟨_, -, -, apart⟩ := exists_of_forall₂ each _ origin.answered
      exact apart origin.image (List.of_mem_zip origin.lowered).2

end UnitCompiler

end UnitForge
