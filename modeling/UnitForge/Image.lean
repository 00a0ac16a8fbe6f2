import UnitForge.Artifact
import UnitForge.Binary64.Basic

/-! # Unit images

The compiled form of a unit: its fields and its constructors, whose bodies are straight-line code
over numbered slots. A constructor first runs its body, then computes one value per field. -/
set_option autoImplicit false
namespace UnitForge

inductive TypeRef where
  | int
  | float
  | bool
  | str
  | unit (name : String)
  deriving DecidableEq, Repr, Inhabited

namespace TypeRef

def isPrimitive : TypeRef → Bool
  | unit _ => false
  | _ => true

def text : TypeRef → String
  | int => "i64"
  | float => "f64"
  | bool => "bool"
  | str => "String"
  | unit name => name

def listText (types : List TypeRef) : String :=
  ", ".intercalate (types.map text)

end TypeRef

structure FieldDecl where
  name : String
  type : TypeRef
  deriving DecidableEq, Repr

structure ParamDecl where
  name : String
  type : TypeRef
  deriving DecidableEq, Repr

inductive UnaryOp where
  | neg
  | not
  deriving DecidableEq, Repr

inductive BinaryOp where
  | add
  | sub
  | mul
  | div
  | rem
  | concat
  | eq
  | ne
  | lt
  | le
  | gt
  | ge
  | and
  | or
  deriving DecidableEq, Repr

inductive Expr where
  | null
  | int (value : Int64)
  | float (value : Binary64)
  | bool (value : Bool)
  | str (value : String)
  | slot (index : UInt32)
  | unary (op : UnaryOp) (operand : Expr)
  | binary (op : BinaryOp) (left right : Expr)
  | cast (operand : Expr) (type : TypeRef)
  | toText (operand : Expr)
  | length (operand : Expr)
  | construct (unit constructor : String) (args : List Expr)
  deriving Repr, Inhabited

/-- One step of a constructor's body: the value of an expression goes into a slot. -/
structure Stmt where
  slot : UInt32
  value : Expr
  deriving Repr

/-- A constructor. Its slots hold the arguments first; `init` has one expression per field. -/
structure ConstructorDecl where
  name : String
  params : List ParamDecl
  locals : UInt32
  body : List Stmt
  init : List Expr
  deriving Repr

namespace ConstructorDecl

def paramTypes (ctor : ConstructorDecl) : List TypeRef :=
  ctor.params.map (·.type)

/-- The constructor's name with its parameter types, such as `new(i64, String)`. -/
def signature (ctor : ConstructorDecl) : String :=
  s!"{ctor.name}({TypeRef.listText ctor.paramTypes})"

end ConstructorDecl

structure UnitImage where
  name : String
  source : String
  fields : List FieldDecl
  constructors : List ConstructorDecl
  deriving Repr

namespace UnitImage

def fieldIndex? (image : UnitImage) (name : String) : Option Nat :=
  image.fields.findIdx? (·.name = name)

def constructor? (image : UnitImage) (name : String) : Option ConstructorDecl :=
  image.constructors.find? (·.name = name)

end UnitImage

end UnitForge
