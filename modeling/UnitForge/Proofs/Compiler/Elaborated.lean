import UnitForge.Proofs.Compiler.Analysis
import UnitForge.Proofs.Lowering.Faithful

/-! # What the images of a source stand for

Every image that an analysis gives follows the rules of elaboration, where the images of other units
are those of the same source and those that the class path was found to hold. -/
set_option autoImplicit false
namespace UnitForge

open Step

variable {σ : Type} {manager : FileManager σ}

namespace UnitSig

variable {decls : Declarations} {sigs : List UnitSig} {owner : UnitSig}

theorem paramTypes_of_decls {params : List ParamSig} {found : List ParamDecl}
    (typed : Lower.paramDecls params = some found) :
    params.map (·.type) = (found.map (·.type)).map some := by
  have same := mapM_eq_some_iff.mp typed
  clear typed
  induction same with
  | nil => rfl
  | cons given _ ih =>
      obtain ⟨type, known, rfl⟩ := Option.map_eq_some_iff.mp given
      rw [List.map_cons, ih, known]
      rfl

theorem lowerConstructor_entry (known : owner.Known) {sig : ConstructorSig}
    (member : sig ∈ owner.constructors) {ctor : ConstructorDecl} {before after : Session σ}
    (run : lowerConstructor manager decls sigs owner sig before = (some ctor, after)) :
    (sig.name, sig.paramTypes) = (ctor.name, ctor.paramTypes.map some) := by
  cases given : sig.function with
  | none =>
      simp only [lowerConstructor, given] at run
      rw [known.implicit sig member given]
      obtain ⟨init, -, rfl⟩ := Option.map_eq_some_iff.mp (Prod.mk.inj run).1
      rfl
  | some function =>
      obtain ⟨stop, coded, rfl⟩ := lowerConstructor_function given run
      obtain ⟨parts, same⟩ :=
        Lower.constructor_run coded (Lower.complete_of_constructor coded)
      obtain ⟨params, typed, rfl⟩ := Option.map_eq_some_iff.mp same.symm
      exact Prod.ext rfl (paramTypes_of_decls typed)

theorem Lowered.entries_eq {image : UnitImage} {last : Session σ} (known : owner.Known)
    (lowered : Lowered manager decls sigs owner image last) :
    owner.constructors.map (fun ctor => (ctor.name, ctor.paramTypes)) = Lower.entries image := by
  exact map_eq_map_of_forall₂ lowered.constructors fun sig member ctor ⟨_, _, run, _⟩ =>
    lowerConstructor_entry known member run

theorem lowerConstructor_elab {view : ClassPathView} {refs : References}
    (sees : Lower.Sees (context manager decls sigs owner) view refs) (known : owner.Known)
    {sig : ConstructorSig} (member : sig ∈ owner.constructors) {ctor : ConstructorDecl}
    {before after : Session σ}
    (run : lowerConstructor manager decls sigs owner sig before = (some ctor, after))
    (seen : after.SeenIn view) : ElabConstructor refs owner sig ctor := by
  cases given : sig.function with
  | none =>
      simp only [lowerConstructor, given] at run
      rw [known.implicit sig member given]
      exact .implicit (Prod.mk.inj run).1
  | some function =>
      obtain ⟨stop, coded, rfl⟩ := lowerConstructor_function given run
      exact .function given (Lower.constructor_elab sees known.fields coded seen)

end UnitSig

namespace UnitCompiler.Analysed

variable {unit : SourceUnit} {images : List UnitImage} {last : Session σ}

def references (analysed : Analysed manager unit images last) (owner : UnitSig) : References where
  unitOf := analysed.decls.unitOf? last.view owner.name
  image? name := (images.find? (·.name = name)).or (last.view.image? name)

theorem sees (analysed : Analysed manager unit images last) (owner : UnitSig) :
    Lower.Sees (UnitSig.context manager analysed.decls analysed.sigs owner) last.view
      (analysed.references owner) := by
  have found (name : String) := find?_of_forall₂ (p := (·.fullName = name)) (q := (·.name = name))
    analysed.lowered fun _ _ ⟨_, lowered, _⟩ => by rw [lowered.name]
  refine ⟨rfl, ?_, ?_⟩
  · intro name sig own
    rcases found name with ⟨none, -⟩ | ⟨sig', image, own', here, _, lowered, -⟩
    · cases none.symm.trans own
    · cases own.symm.trans own'
      have known := analysed.known sig (List.mem_of_find?_eq_some own)
      exact ⟨image, by simp only [references, here, Option.some_or], lowered.entries_eq known⟩
  · intro name other
    rcases found name with ⟨-, none⟩ | ⟨_, _, own, -⟩
    · simp only [references, none, Option.none_or]
    · cases other.symm.trans own

theorem elabUnits (analysed : Analysed manager unit images last) :
    List.Forall₂ (fun owner image => ElabUnit (analysed.references owner) owner image)
      analysed.sigs images := by
  have known := analysed.known
  apply (forall₂_and_zip analysed.lowered).imp
  intro owner image related
  obtain ⟨member, reached, lowered, later⟩ := related
  have typed := known owner (List.of_mem_zip member).1
  refine ⟨lowered.name, lowered.fields, (forall₂_and_zip lowered.constructors).imp ?_⟩
  intro sig ctor ⟨pair, before, after, run, grown⟩
  exact UnitSig.lowerConstructor_elab (analysed.sees owner) typed (List.of_mem_zip pair).1 run
    ((grown.trans later).seenIn .rfl)

end UnitCompiler.Analysed

end UnitForge
