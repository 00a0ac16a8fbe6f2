import UnitForge.Dialect.Session
import UnitForge.Source.Tree

/-! # Declarations

What a source declares: its structs with their constructor functions, and the units that it
imports. Structs and imports share one space of names, in which the first declaration counts. -/
set_option autoImplicit false
namespace UnitForge

open Source

structure DeclaredStruct where
  tree : StructTree
  fullName : String
  functions : List FunctionTree

namespace DeclaredStruct

def name (struct : DeclaredStruct) : String :=
  struct.tree.ident.name

end DeclaredStruct

/-- A name that stands for a unit declared elsewhere, unless there is no such unit. -/
structure Import where
  name : String
  fullName : String
  pos : Position
  resolved : Bool
  deriving DecidableEq, Repr

structure Declarations where
  package : String
  uri : String
  structs : List DeclaredStruct
  imports : List Import

namespace Declarations

variable {σ : Type}

def struct? (decls : Declarations) (name : String) : Option DeclaredStruct :=
  decls.structs.find? (·.name = name)

def import? (decls : Declarations) (name : String) : Option Import :=
  decls.imports.find? (·.name = name)

def declares (decls : Declarations) (name : String) : Bool :=
  (decls.struct? name).isSome || (decls.import? name).isSome

def declaresFull (decls : Declarations) (fullName : String) : Bool :=
  decls.structs.any (·.fullName = fullName)

def complain (decls : Declarations) (pos : Position) (problem : Problem) : Check σ Unit :=
  Session.complain decls.uri pos problem

/-! ## Structs -/

def addStruct (decls : Declarations) (tree : StructTree) : Check σ Declarations := do
  match tree.generics with
  | some pos => decls.complain pos .genericStruct
  | none => pure ()
  match tree.fields with
  | .unnamed pos => decls.complain pos .tupleStruct
  | _ => pure ()
  let name := tree.ident.name
  if decls.declares name then
    decls.complain tree.ident.pos (.duplicateItem name)
    return decls
  else
    let fullName := Name.qualify decls.package name
    return { decls with structs := decls.structs ++ [{ tree, fullName, functions := [] }] }

/-! ## Imports -/

def single (name : String) (path : List String) (pos : Position) : Import :=
  { name, fullName := ".".intercalate path, pos, resolved := false }

mutual

def importsOf (path : List String) : UseTree → List Import × Option (Position × Problem)
  | .path ident tree =>
    if path.isEmpty && ["crate", "self", "super"].contains ident.name then
      ([], some (ident.pos, .relativeImport))
    else importsOf (path ++ [ident.name]) tree
  | .name ident => ([single ident.name (path ++ [ident.name]) ident.pos], none)
  | .rename ident newName => ([single newName.name (path ++ [ident.name]) ident.pos], none)
  | .glob pos => ([], some (pos, .globImport))
  | .group trees => importsOfAll path trees

def importsOfAll (path : List String) :
    List UseTree → List Import × Option (Position × Problem)
  | [] => ([], none)
  | first :: rest =>
    match importsOf path first with
    | (found, some problem) => (found, some problem)
    | (found, none) =>
      let (others, problem) := importsOfAll path rest
      (found ++ others, problem)

end

def addImport (decls : Declarations) (found : Import) : Check σ Declarations := do
  if decls.declares found.name then
    decls.complain found.pos (.duplicateItem found.name)
    return decls
  else return { decls with imports := decls.imports ++ [found] }

def addUse (decls : Declarations) (tree : UseTree) : Check σ Declarations := do
  let (found, problem) := importsOf [] tree
  match problem with
  | some (pos, problem) => decls.complain pos problem
  | none => pure ()
  found.foldlM addImport decls

def addItem (decls : Declarations) (item : Item) : Check σ Declarations := do
  match item with
  | .struct tree => decls.addStruct tree
  | .use tree => decls.addUse tree
  | .impl _ => return decls
  | .other pos =>
    decls.complain pos .unsupportedItem
    return decls

def resolveImport (manager : FileManager σ) (decls : Declarations) (found : Import) :
    Check σ Import := do
  let resolved ←
    if decls.declaresFull found.fullName then pure true
    else Option.isSome <$> Session.classPathUnit manager found.fullName
  if !resolved then
    let path := Text.replaceChar '.' "::" found.fullName
    decls.complain found.pos (.unresolvedImport path)
  return { found with resolved }

def resolveImports (manager : FileManager σ) (decls : Declarations) : Check σ Declarations := do
  return { decls with imports := ← decls.imports.mapM (decls.resolveImport manager) }

def checkPublic (decls : Declarations) (unit : SourceUnit) : Check σ Unit :=
  decls.structs.forM fun struct =>
    if struct.tree.isPublic && struct.name != unit.simpleName then
      decls.complain struct.tree.ident.pos (.misplacedPublic struct.name struct.fullName)
    else pure ()

/-! ## Impl blocks -/

def addFunction (decls : Declarations) (target : String) (function : FunctionTree) :
    Declarations :=
  { decls with structs := decls.structs.map fun struct =>
      if struct.name = target then { struct with functions := struct.functions ++ [function] }
      else struct }

def addImplItem (isDefault : Bool) (target : String) (decls : Declarations) (item : ImplItem) :
    Check σ Declarations := do
  match item with
  | .other pos =>
    decls.complain pos .unsupportedImplItem
    return decls
  | .function function =>
    let ident := function.ident
    let known := ((decls.struct? target).map DeclaredStruct.functions).getD []
    if isDefault && ident.name != "default" then
      decls.complain ident.pos (.notInDefault ident.name)
      return decls
    else if known.any (·.ident.name = ident.name) then
      decls.complain ident.pos (.duplicateFunction ident.name)
      return decls
    else return decls.addFunction target function

def isDefaultTrait (negated : Bool) (names : NamePath) : Bool :=
  !negated &&
    match names.segments.getLast? with
    | some segment => segment.ident.is "Default"
    | none => false

/-- The name that an impl block belongs to, if it is a single one. -/
def targetName? (tree : ImplTree) : Option String :=
  match tree.target with
  | .path _ false names => names.ident?.map Ident.name
  | _ => none

def addImpl (decls : Declarations) (tree : ImplTree) : Check σ Declarations := do
  if tree.isGeneric || tree.isUnsafe then
    decls.complain tree.pos .unsupportedImpl
    return decls
  match tree.ofTrait with
  | some (negated, names) =>
    if isDefaultTrait negated names then addTo true
    else
      decls.complain names.pos .unsupportedTrait
      return decls
  | none => addTo false
where
  addTo (isDefault : Bool) : Check σ Declarations := do
    match (targetName? tree).filter fun name => (decls.struct? name).isSome with
    | some target => tree.items.foldlM (addImplItem isDefault target) decls
    | none =>
      decls.complain tree.target.pos .foreignTarget
      return decls

/-! ## Whole sources -/

/-- The declarations of a source unit. Impl blocks come last, since they may stand before their
structs. -/
def collect (manager : FileManager σ) (file : File) (unit : SourceUnit) :
    Check σ Declarations := do
  let empty : Declarations :=
    { package := unit.package, uri := unit.uri, structs := [], imports := [] }
  let declared ← file.items.foldlM addItem empty
  let resolved ← declared.resolveImports manager
  resolved.checkPublic unit
  file.items.foldlM (fun decls item =>
    match item with
    | .impl tree => decls.addImpl tree
    | _ => return decls) resolved

/-! ## Types -/

def primitive? (name : String) : Option TypeRef :=
  if ["i8", "i16", "i32", "i64", "i128", "isize", "u8", "u16", "u32", "u64", "u128",
      "usize"].contains name then some .int
  else if ["f32", "f64"].contains name then some .float
  else if name = "bool" then some .bool
  else if name = "String" then some .str
  else none

def plainNames (decls : Declarations) (path : NamePath) : Check σ (Option (List String)) := do
  match path.segments.findSome? Segment.arguments with
  | some arguments =>
    decls.complain arguments.pos .genericArguments
    return none
  | none => return some path.names

/-- The unit of a single name: a struct of this source, an import, or a unit of the package on the
class path. An import that has no unit was reported where it stands. -/
def resolveSimple (manager : FileManager σ) (decls : Declarations) (name : String)
    (pos : Position) : Check σ (Option String) := do
  match decls.struct? name, decls.import? name with
  | some struct, _ => return some struct.fullName
  | none, some found => return if found.resolved then some found.fullName else none
  | none, none =>
    if ← Session.packageContains manager decls.package name then
      return some (Name.qualify decls.package name)
    else
      decls.complain pos (.unknownType name)
      return none

/-- The full name of the unit that a path of names leads to. `owner` is what `Self` stands for. -/
def resolveUnit (manager : FileManager σ) (decls : Declarations) (owner : String)
    (names : List String) (pos : Position) : Check σ (Option String) := do
  match names with
  | [name] => decls.resolveSimple manager (if name = "Self" then owner else name) pos
  | _ =>
    let fullName := ".".intercalate names
    let known ←
      if decls.declaresFull fullName then pure true
      else Option.isSome <$> Session.classPathUnit manager fullName
    if known then return some fullName
    else
      let module := "::".intercalate names.dropLast
      decls.complain pos (.unknownTypeIn (names.getLastD "") module)
      return none

def resolveType (manager : FileManager σ) (decls : Declarations) (owner : String) :
    TypeTree → Check σ (Option TypeRef)
  | .paren _ inner => resolveType manager decls owner inner
  | .path pos false path => do
    match ← decls.plainNames path with
    | none => return none
    | some names =>
      let primitive := match names with
        | [name] => primitive? name
        | _ => none
      match primitive with
      | some type => return some type
      | none => return (← decls.resolveUnit manager owner names pos).map .unit
  | tree => do
    decls.complain tree.pos .unsupportedType
    return none

end Declarations

end UnitForge
