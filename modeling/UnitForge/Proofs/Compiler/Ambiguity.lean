import UnitForge.Files.Memory
import UnitForge.Files.Standard
import UnitForge.Proofs.Compiler.Elaborated
import UnitForge.Proofs.Compiler.Warnings
import UnitForge.Proofs.Dialect.Twins
import UnitForge.Proofs.Evaluation.Ambiguity

/-! # Ambiguities and warnings

A compilation warns of every ambiguity that a call of a constructor can run into later. The types
that the compiler compares are the ones that the image has, and a call is ambiguous only between
constructors with the same ones, whatever the world is in which the unit is loaded and called. -/
set_option autoImplicit false
namespace UnitForge

open Source Step Evaluation

variable {σ : Type} {manager : FileManager σ}

namespace UnitCompiler

/-! ## Warnings that are not dropped -/

end UnitCompiler

/-! ## Analysed structs -/

namespace UnitSig

variable {uri : String} {struct : DeclaredStruct} {owner : UnitSig} {image : UnitImage}
  {session : Session σ} {delivered : List Diagnostic}

/-- A constructor with a twin was reported at the function that it is made from. -/
def Reported (uri : String) (struct : DeclaredStruct) (image : UnitImage)
    (delivered : List Diagnostic) (ctor : ConstructorDecl) : Prop :=
  ∃ function ∈ struct.functions, function.ident.name = ctor.name ∧
    ∃ twin ∈ image.constructors, twin.paramTypes = ctor.paramTypes ∧
      twinWarning uri twin.name function ∈ delivered

theorem sameTypes_iff {a b : ConstructorSig} {ctor other : ConstructorDecl}
    (first : a.paramTypes = ctor.paramTypes.map some)
    (second : b.paramTypes = other.paramTypes.map some) :
    a.sameTypes b = true ↔ ctor.paramTypes = other.paramTypes := by
  have injective : Function.Injective (List.map (some (α := TypeRef))) :=
    List.map_injective_iff.mpr fun _ _ => Option.some.inj
  simp [ConstructorSig.sameTypes, first, second, injective.eq_iff]

/-- A constructor of an image with a twin before it was reported. -/
theorem TwinsTold.reported {decls : Declarations} {sigs : List UnitSig} {reached : Session σ}
    (told : owner.TwinsTold uri struct session) (known : owner.Known)
    (lowered : Lowered manager decls sigs owner image reached)
    (keeps : session.policy.suppress = false) (clean : session.Clean)
    {earlier rest : List ConstructorDecl} {later twin : ConstructorDecl}
    (place : image.constructors = earlier ++ later :: rest) (before : twin ∈ earlier)
    (alike : twin.paramTypes = later.paramTypes) :
    Reported uri struct image session.delivered later := by
  have entries := lowered.entries_eq known
  rw [Lower.entries, place, List.map_append, List.map_cons] at entries
  obtain ⟨front, back, sigs_place, fronts, backs⟩ := List.map_eq_append_iff.mp entries
  obtain ⟨sig, behind, rfl, entry, -⟩ := List.map_eq_cons_iff.mp backs
  obtain ⟨named, typed⟩ := Prod.mk.inj entry
  -- A signature in front has a code in front, and the other way round.
  have forth {ctor : ConstructorDecl} (member : ctor ∈ earlier) :
      ∃ known ∈ front, (known.name, known.paramTypes) = (ctor.name, ctor.paramTypes.map some) :=
    List.mem_map.mp (fronts ▸ List.mem_map_of_mem member)
  have back {known : ConstructorSig} (member : known ∈ front) :
      ∃ ctor ∈ earlier, (ctor.name, ctor.paramTypes.map some) = (known.name, known.paramTypes) :=
    List.mem_map.mp (fronts ▸ List.mem_map_of_mem member)
  obtain ⟨known, there, entry⟩ := forth before
  have twins := (sameTypes_iff (Prod.mk.inj entry).2 typed).mpr alike
  obtain ⟨function, member, same, first, first_there, first_alike, warned⟩ :=
    told front sig behind sigs_place ⟨known, there, twins⟩
  obtain ⟨ctor, ctor_there, entry⟩ := back first_there
  obtain ⟨ctor_named, ctor_typed⟩ := Prod.mk.inj entry
  refine ⟨function, member, same.trans named, ctor, ?_, ?_, ?_⟩
  · rw [place]
    exact List.mem_append_left _ ctor_there
  · exact (sameTypes_iff ctor_typed.symm typed).mp first_alike
  · rw [ctor_named]
    exact warned.mem rfl keeps clean

/-- What the diagnostics of a compilation tell of the calls that choose a constructor of a struct,
in any world that has a unit of its image. -/
structure AmbiguitiesTold (uri : String) (struct : DeclaredStruct) (image : UnitImage)
    (delivered : List Diagnostic) : Prop where
  name : image.name = struct.fullName
  readable : image.Fits → UnitImage.decode struct.fullName image.encode = .ok image
  /-- Without a warning at a function of the struct no call is ambiguous. -/
  silent : (∀ diagnostic ∈ delivered, diagnostic.code = "identical_constructors" →
      diagnostic.source = some uri → ∀ function ∈ struct.functions,
        diagnostic.position ≠ some function.ident.pos) →
    ∀ loaded : UnitType, loaded.image = image → ∀ limit args world unit call candidates,
      (construct limit loaded args world).1 ≠ .error (.ambiguousConstructor unit call candidates)
  /-- The candidates of an ambiguous call take the same types, and all but the first of them were
  reported. -/
  ambiguous : ∀ loaded : UnitType, loaded.image = image →
    ∀ limit args world unit call candidates,
      (construct limit loaded args world).1 =
        .error (.ambiguousConstructor unit call candidates) →
      ∃ first second rest, candidates = (first :: second :: rest).map ConstructorDecl.signature ∧
        (first :: second :: rest).Sublist image.constructors ∧
        ∀ ctor ∈ second :: rest, ctor.paramTypes = first.paramTypes ∧
          Reported uri struct image delivered ctor

theorem AmbiguitiesTold.mono {more : List Diagnostic}
    (told : AmbiguitiesTold uri struct image delivered) (grown : delivered ⊆ more) :
    AmbiguitiesTold uri struct image more where
  name := told.name
  readable := told.readable
  silent quiet := told.silent fun diagnostic member => quiet diagnostic (grown member)
  ambiguous loaded of limit args world unit call candidates failed := by
    obtain ⟨first, second, rest, several, sub, reported⟩ :=
      told.ambiguous loaded of limit args world unit call candidates failed
    refine ⟨first, second, rest, several, sub, ?_⟩
    intro ctor member
    obtain ⟨same, function, there, named, twin, known, alike, warned⟩ := reported ctor member
    exact ⟨same, function, there, named, twin, known, alike, grown warned⟩

end UnitSig

namespace UnitCompiler

variable {unit : SourceUnit} {images : List UnitImage} {before after : Session σ}

/-- For every struct of an analysis the constructors with a twin before them were reported. -/
def Analysed.TwinsTold (analysed : Analysed manager unit images after) : Prop :=
  List.Forall₂ (fun struct sig => sig.fullName = struct.fullName ∧
    sig.TwinsTold unit.uri struct after) analysed.decls.structs analysed.sigs

def Analysed.AmbiguitiesTold (analysed : Analysed manager unit images after)
    (delivered : List Diagnostic) : Prop :=
  List.Forall₂ (fun struct image => UnitSig.AmbiguitiesTold unit.uri struct image delivered)
    analysed.decls.structs images

theorem Analysed.AmbiguitiesTold.mono {analysed : Analysed manager unit images after}
    {delivered more : List Diagnostic} (told : analysed.AmbiguitiesTold delivered)
    (grown : delivered ⊆ more) : analysed.AmbiguitiesTold more :=
  told.imp fun _ _ told => told.mono grown

end UnitCompiler

end UnitForge
