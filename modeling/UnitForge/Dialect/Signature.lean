import UnitForge.Dialect.Declarations

/-! # Signatures

The fields and the constructors of the structs of a source, with their types. A type that could not
be resolved is unknown; it was reported, and nothing that depends on it is reported again. -/
set_option autoImplicit false
namespace UnitForge

open Source

structure FieldSig where
  name : String
  type : Option TypeRef
  deriving DecidableEq, Repr

structure ParamSig where
  name : String
  type : Option TypeRef
  pos : Position
  deriving DecidableEq, Repr

/-- A constructor: a function of the source, or the one that a struct without functions has. -/
structure ConstructorSig where
  name : String
  params : List ParamSig
  function : Option FunctionTree

namespace ConstructorSig

def paramTypes (ctor : ConstructorSig) : List (Option TypeRef) :=
  ctor.params.map (·.type)

def implicit : ConstructorSig :=
  { name := "new", params := [], function := none }

def sameTypes (a b : ConstructorSig) : Bool :=
  a.paramTypes = b.paramTypes && a.paramTypes.all Option.isSome

end ConstructorSig

structure UnitSig where
  name : String
  fullName : String
  fields : List FieldSig
  constructors : List ConstructorSig

namespace UnitSig

variable {σ : Type} (manager : FileManager σ) (decls : Declarations)

def fieldSigs (owner : String) : List FieldSig → List FieldTree → Check σ (List FieldSig)
  | known, [] => return known
  | known, field :: rest => do
    let name := field.ident.name
    if known.any (·.name = name) then
      decls.complain field.ident.pos (.duplicateField name)
      fieldSigs owner known rest
    else
      let type ← decls.resolveType manager owner field.type
      fieldSigs owner (known ++ [{ name, type }]) rest

/-- The parameters of a function after those already known; none if one is no plain name. A
parameter of a known name is left out. -/
def paramSigs (owner : String) :
    List ParamSig → List ParamTree → Check σ (Option (List ParamSig))
  | known, [] => return some known
  | known, param :: rest => do
    match param.pattern with
    | .ident _ true ident =>
      let name := ident.name
      if known.any (·.name = name) then
        decls.complain ident.pos (.duplicateParameter name)
        paramSigs owner known rest
      else
        let type ← decls.resolveType manager owner param.type
        paramSigs owner (known ++ [{ name, type, pos := ident.pos }]) rest
    | pattern =>
      decls.complain pattern.pos .parameterPattern
      return none

def returnsOwner (owner : String) (function : FunctionTree) : Bool :=
  match function.output with
  | some (.path _ false names) =>
    match names.ident? with
    | some ident => ident.is "Self" || ident.name = owner
    | none => false
  | _ => false

/-- The constructor that a function is, if it is one. -/
def constructorSig (owner : String) (function : FunctionTree) :
    Check σ (Option ConstructorSig) := do
  let name := function.ident.name
  if !function.isPlain then
    decls.complain function.pos (.specialConstructor name)
    return none
  match function.receiver with
  | some pos =>
    decls.complain pos (.takesSelf name)
    return none
  | none =>
    if !returnsOwner owner function then
      decls.complain function.ident.pos (.returnsOther name)
      return none
    let params ← paramSigs manager decls owner [] function.params
    return params.map fun params => { name, params, function := some function }

def warnOfTwins : List ConstructorSig → List ConstructorSig → Check σ Unit
  | _, [] => return ()
  | earlier, later :: rest => do
    match earlier.find? (·.sameTypes later), later.function with
    | some twin, some function =>
      decls.complain function.ident.pos (.identicalConstructors twin.name later.name)
    | _, _ => pure ()
    warnOfTwins (earlier ++ [later]) rest

def namedFields : FieldsTree → List FieldTree
  | .named fields => fields
  | _ => []

def ofStruct (struct : DeclaredStruct) : Check σ UnitSig := do
  let owner := struct.name
  let fields ← fieldSigs manager decls owner [] (namedFields struct.tree.fields)
  let found ← struct.functions.filterMapM (constructorSig manager decls owner)
  let constructors := if struct.functions.isEmpty then [.implicit] else found
  warnOfTwins decls [] constructors
  return { name := owner, fullName := struct.fullName, fields, constructors }

def ofDeclarations : Check σ (List UnitSig) :=
  decls.structs.mapM (ofStruct manager decls)

end UnitSig

end UnitForge
