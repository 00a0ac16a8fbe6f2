import UnitForge.Dialect.Lowering
import UnitForge.Proofs.Source.Relocation

/-! # Declarations at other places

What a relocated source declares, and the signatures that it has. Code refers to declarations by
their names alone: those of two sources are similar if the same names stand for the same units, in
whatever order and at whatever places. -/
set_option autoImplicit false
namespace UnitForge

open Source

section Moved
variable (move : Position → Position)

def DeclaredStruct.relocate (rewrite : TypeTree → TypeTree) (struct : DeclaredStruct) :
    DeclaredStruct where
  tree := struct.tree.relocate move rewrite
  fullName := struct.fullName
  functions := struct.functions.map (·.relocate move)

def Import.relocate (found : Import) : Import :=
  { found with pos := move found.pos }

def Declarations.relocate (rewrite : TypeTree → TypeTree) (decls : Declarations) :
    Declarations :=
  { decls with
    structs := decls.structs.map (·.relocate move rewrite)
    imports := decls.imports.map (·.relocate move) }

def ParamSig.relocate (param : ParamSig) : ParamSig :=
  { param with pos := move param.pos }

def ConstructorSig.relocate (ctor : ConstructorSig) : ConstructorSig where
  name := ctor.name
  params := ctor.params.map (·.relocate move)
  function := ctor.function.map (·.relocate move)

def UnitSig.relocate (sig : UnitSig) : UnitSig :=
  { sig with constructors := sig.constructors.map (·.relocate move) }

def Binding.relocate (binding : Binding) : Binding :=
  { binding with pos := move binding.pos }

@[simp] theorem DeclaredStruct.relocate_name (rewrite : TypeTree → TypeTree)
    (struct : DeclaredStruct) : (struct.relocate move rewrite).name = struct.name :=
  rfl

@[simp] theorem ConstructorSig.relocate_paramTypes (ctor : ConstructorSig) :
    (ctor.relocate move).paramTypes = ctor.paramTypes := by
  simp [relocate, paramTypes, ParamSig.relocate]

theorem ConstructorSig.relocate_sameTypes (a b : ConstructorSig) :
    (a.relocate move).sameTypes (b.relocate move) = a.sameTypes b := by
  simp [sameTypes]

end Moved

@[simp] theorem DeclaredStruct.relocate_id (struct : DeclaredStruct) :
    struct.relocate id id = struct := by
  simp [relocate]

@[simp] theorem UnitSig.relocate_id (sig : UnitSig) : sig.relocate id = sig := by
  have params (param : ParamSig) : param.relocate id = param := rfl
  have same (ctor : ConstructorSig) : ctor.relocate id = ctor := by
    simp [ConstructorSig.relocate, List.map_id'' params]
  simp [relocate, List.map_id'' same]

/-! ## Similar declarations -/

structure Declarations.Similar (decls twin : Declarations) : Prop where
  package : twin.package = decls.package
  uri : twin.uri = decls.uri
  struct? : ∀ name, (twin.struct? name).map DeclaredStruct.fullName =
    (decls.struct? name).map DeclaredStruct.fullName
  imported? : ∀ name, (twin.import? name).map (fun found => (found.fullName, found.resolved)) =
    (decls.import? name).map fun found => (found.fullName, found.resolved)
  declaresFull : ∀ fullName, twin.declaresFull fullName = decls.declaresFull fullName

def UnitSig.constructorsIn (sigs : List UnitSig) (unit : String) :
    Option (List (String × List (Option TypeRef))) :=
  (sigs.find? (·.fullName = unit)).map fun sig =>
    sig.constructors.map fun ctor => (ctor.name, ctor.paramTypes)

namespace Declarations

variable (move : Position → Position) (rewrite : TypeTree → TypeTree) (decls : Declarations)

theorem relocate_struct? (name : String) : (decls.relocate move rewrite).struct? name =
    (decls.struct? name).map (·.relocate move rewrite) :=
  List.find?_map

theorem relocate_import? (name : String) : (decls.relocate move rewrite).import? name =
    (decls.import? name).map (·.relocate move) :=
  List.find?_map

theorem similar_relocate : decls.Similar (decls.relocate move rewrite) where
  package := rfl
  uri := rfl
  struct? name := by
    simp [relocate_struct?, Function.comp_def, DeclaredStruct.relocate]
  imported? name := by
    simp [relocate_import?, Function.comp_def, Import.relocate]
  declaresFull fullName := by
    simp [declaresFull, relocate, Function.comp_def, DeclaredStruct.relocate]

theorem relocate_declares (name : String) :
    (decls.relocate move rewrite).declares name = decls.declares name := by
  simp [declares, relocate_struct?, relocate_import?]

end Declarations

theorem UnitSig.constructorsIn_relocate (move : Position → Position) (sigs : List UnitSig)
    (unit : String) :
    constructorsIn (sigs.map (·.relocate move)) unit = constructorsIn sigs unit := by
  simp [constructorsIn, List.find?_map, Function.comp_def, relocate, ConstructorSig.relocate,
    ConstructorSig.paramTypes, ParamSig.relocate]

end UnitForge
