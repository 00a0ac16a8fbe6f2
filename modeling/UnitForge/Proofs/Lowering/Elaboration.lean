import UnitForge.Proofs.Lowering.Units
import UnitForge.Value

/-! # Elaboration

Which code an expression stands for, and of which type, told by rules: one for each form that units
can be made of. Lowering without a report follows the rules. What holds of code that was lowered is
shown along them. -/
set_option autoImplicit false
namespace UnitForge

open Source

/-- What the source of a struct says of other units: the full names that paths stand for, and the
images that are known by full names. -/
structure References where
  unitOf : List String → Option String
  image? : String → Option UnitImage

/-- The names in scope with their types, the latest first. The slot of a name is the number of names
that were bound before it. -/
abbrev Locals := List (String × TypeRef)

namespace Locals

def find? : Locals → String → Option (Nat × TypeRef)
  | [], _ => none
  | (known, type) :: earlier, name =>
    if known = name then some (earlier.length, type) else find? earlier name

def types (locals : Locals) : List TypeRef :=
  (locals.map Prod.snd).reverse

theorem types_cons (name : String) (type : TypeRef) (earlier : Locals) :
    types ((name, type) :: earlier) = types earlier ++ [type] := by
  simp [types]

theorem length_types (locals : Locals) : locals.types.length = locals.length := by
  simp [types]

def bindings (locals : Locals) : List (String × Option TypeRef) :=
  (locals.map fun (name, type) => (name, some type)).reverse

theorem bindings_cons (name : String) (type : TypeRef) (earlier : Locals) :
    bindings ((name, type) :: earlier) = bindings earlier ++ [(name, some type)] := by
  simp [bindings]

theorem length_bindings (locals : Locals) : locals.bindings.length = locals.length := by
  simp [bindings]

theorem types_of_find? {locals : Locals} {name : String} {slot : Nat} {type : TypeRef}
    (found : locals.find? name = some (slot, type)) : locals.types[slot]? = some type := by
  induction locals with
  | nil => cases found
  | cons first earlier ih =>
      obtain ⟨known, bound⟩ := first
      rw [types_cons]
      unfold find? at found
      split at found
      · cases found
        rw [← length_types, List.getElem?_concat_length]
      · have inner := ih found
        have within := (List.getElem?_eq_some_iff.mp inner).1
        rw [List.getElem?_append_left within, inner]

end Locals

def literalValue (negated : Bool) : Literal → Value
  | .int value suffix =>
    if suffix = "f32" || suffix = "f64" then
      .float (if negated then (Binary64.ofDecimal value 0).neg else .ofDecimal value 0)
    else .int (Int64.ofInt (if negated then -value else value))
  | .float digits _ =>
    .float (if negated then (Lower.floatOfDigits digits).neg else Lower.floatOfDigits digits)
  | .bool value => .bool value
  | .str value => .str value
  | .other => .null

def Expr.constant : Value → Expr
  | .int value => .int value
  | .float value => .float value
  | .bool value => .bool value
  | .str value => .str value
  | _ => .null

def BinaryOp.isComparison : BinaryOp → Bool
  | .eq | .ne | .lt | .le | .gt | .ge => true
  | _ => false

def BinaryOp.isArithmetic : BinaryOp → Bool
  | .add | .sub | .mul | .div | .rem => true
  | _ => false

def BinaryOp.isLogical : BinaryOp → Bool
  | .and | .or => true
  | _ => false

def castTarget? : TypeTree → Option TypeRef
  | .path _ false names => names.ident?.bind fun ident => Declarations.primitive? ident.written
  | _ => none

def TypeRef.castsTo : TypeRef → TypeRef → Bool
  | .int, target | .float, target => Lower.isNumeric target
  | .bool, target => target = .int
  | _, _ => false

def isIdentity (name : String) (type : TypeRef) : Bool :=
  (name = "to_owned" || name = "clone") && type.isPrimitive || name = "into" && type = .str

structure Elaborated where
  tree : ExprTree
  code : Expr
  type : TypeRef

/-- An expression stands for code of a type. -/
inductive Elab (refs : References) (locals : Locals) : ExprTree → Expr → TypeRef → Prop
  | literal {pos place : Position} {value : Literal} {type : TypeRef} :
      (literalValue false value).type? = some type →
      Elab refs locals (.literal pos place value) (.constant (literalValue false value)) type
  | minusLiteral {pos place start pos' : Position} {value : Literal} {type : TypeRef} :
      (literalValue true value).type? = some type →
      Elab refs locals (.unary pos place .neg (.literal start pos' value))
        (.constant (literalValue true value)) type
  | paren {pos opening : Position} {tree : ExprTree} {code : Expr} {type : TypeRef} :
      Elab refs locals tree code type → Elab refs locals (.paren pos opening tree) code type
  | name {pos : Position} {path : NamePath} {ident : Ident} {slot : Nat} {type : TypeRef} :
      path.ident? = some ident → locals.find? ident.name = some (slot, type) →
      Elab refs locals (.path pos false path) (.slot slot.toUInt32) type
  | minus {pos place : Position} {tree : ExprTree} {code : Expr} {type : TypeRef} :
      (∀ start place value, tree ≠ .literal start place value) → Lower.isNumeric type = true →
      Elab refs locals tree code type →
      Elab refs locals (.unary pos place .neg tree) (.unary .neg code) type
  | not {pos place : Position} {tree : ExprTree} {code : Expr} {type : TypeRef} :
      type = .bool ∨ type = .int → Elab refs locals tree code type →
      Elab refs locals (.unary pos place .not tree) (.unary .not code) type
  | logical {pos place : Position} {operator : BinaryOperator} {op : BinaryOp} {symbol : String}
      {left right : ExprTree} {leftCode rightCode : Expr} :
      Lower.operator? operator = some (op, symbol) → op.isLogical = true →
      Elab refs locals left leftCode .bool → Elab refs locals right rightCode .bool →
      Elab refs locals (.binary pos place operator left right) (.binary op leftCode rightCode) .bool
  | comparison {pos place : Position} {operator : BinaryOperator} {op : BinaryOp} {symbol : String}
      {left right : ExprTree} {leftCode rightCode : Expr} {type : TypeRef} :
      Lower.operator? operator = some (op, symbol) → op.isComparison = true →
      type.isPrimitive = true →
      Elab refs locals left leftCode type → Elab refs locals right rightCode type →
      Elab refs locals (.binary pos place operator left right) (.binary op leftCode rightCode) .bool
  | concat {pos place : Position} {operator : BinaryOperator} {symbol : String}
      {left right : ExprTree} {leftCode rightCode : Expr} :
      Lower.operator? operator = some (.add, symbol) →
      Elab refs locals left leftCode .str → Elab refs locals right rightCode .str →
      Elab refs locals (.binary pos place operator left right)
        (.binary .concat leftCode rightCode) .str
  | arithmetic {pos place : Position} {operator : BinaryOperator} {op : BinaryOp} {symbol : String}
      {left right : ExprTree} {leftCode rightCode : Expr} {type : TypeRef} :
      Lower.operator? operator = some (op, symbol) → op.isArithmetic = true →
      Lower.isNumeric type = true →
      Elab refs locals left leftCode type → Elab refs locals right rightCode type →
      Elab refs locals (.binary pos place operator left right) (.binary op leftCode rightCode) type
  | cast {pos place : Position} {tree : ExprTree} {code : Expr} {type target : TypeRef}
      {written : TypeTree} :
      castTarget? written = some target → type.castsTo target = true →
      Elab refs locals tree code type →
      Elab refs locals (.cast pos place tree written) (.cast code target) target
  | toText {pos : Position} {receiver : ExprTree} {ident : Ident} {code : Expr} {type : TypeRef} :
      ident.name = "to_string" → type.isPrimitive = true → Elab refs locals receiver code type →
      Elab refs locals (.methodCall pos receiver ident false []) (.toText code) .str
  | identity {pos : Position} {receiver : ExprTree} {ident : Ident} {code : Expr}
      {type : TypeRef} :
      isIdentity ident.name type = true → Elab refs locals receiver code type →
      Elab refs locals (.methodCall pos receiver ident false []) code type
  | length {pos : Position} {receiver : ExprTree} {ident : Ident} {code : Expr} :
      ident.name = "len" → Elab refs locals receiver code .str →
      Elab refs locals (.methodCall pos receiver ident false []) (.length code) .int
  | emptyText {pos opening start : Position} {path : NamePath} :
      path.names.dropLast = ["String"] → path.names.getLastD "" = "new" →
      Elab refs locals (.call pos opening (.path start false path) []) (.str "") .str
  | textFrom {pos opening start : Position} {path : NamePath} {arg : ExprTree} {code : Expr} :
      path.names.dropLast = ["String"] → path.names.getLastD "" = "from" →
      Elab refs locals arg code .str →
      Elab refs locals (.call pos opening (.path start false path) [arg]) code .str
  | construct {pos opening start : Position} {path : NamePath} {unit function : String}
      {image : UnitImage} {ctor : ConstructorDecl} {args : List Elaborated} :
      path.names.dropLast ≠ [] → path.names.dropLast ≠ ["String"] →
      path.names.getLastD "" = function → refs.unitOf path.names.dropLast = some unit →
      refs.image? unit = some image → image.constructor? function = some ctor →
      ctor.paramTypes = args.map Elaborated.type →
      (∀ arg ∈ args, Elab refs locals arg.tree arg.code arg.type) →
      Elab refs locals (.call pos opening (.path start false path) (args.map Elaborated.tree))
        (.construct unit function (args.map Elaborated.code)) (.unit unit)
  | reference {pos place : Position} {tree : ExprTree} {code : Expr} :
      Elab refs locals tree code .str →
      Elab refs locals (.reference pos place false tree) code .str

/-! ## Bodies -/

/-- Statements stand for steps, the names in scope being others before and after them. -/
inductive ElabBody (refs : References) : Locals → List StmtTree → List Stmt → Locals → Prop
  | nil {locals : Locals} : ElabBody refs locals [] [] locals
  | cons {locals last : Locals} {pos start : Position} {ident : Ident} {declared : Option TypeTree}
      {value : ExprTree} {code : Expr} {type : TypeRef} {rest : List StmtTree}
      {body : List Stmt} :
      Elab refs locals value code type →
      ElabBody refs ((ident.name, type) :: locals) rest body last →
      ElabBody refs locals
        (.binding pos (.ident start true ident) declared (some value) none :: rest)
        ({ slot := locals.length.toUInt32, value := code } :: body) last

def literalField? (fields : List (String × Position × ExprTree)) (name : String) :
    Option ExprTree :=
  (fields.find? (·.1 = name)).map (·.2.2)

/-- A final expression stands for the codes of the fields of a struct, in their order. -/
inductive ElabFinal (refs : References) (locals : Locals) (fields : List FieldSig) :
    ExprTree → List Expr → Prop
  | bare {pos : Position} {path : NamePath} : fields = [] →
      ElabFinal refs locals fields (.path pos false path) []
  | literal {pos : Position} {qualified : Bool} {path : NamePath}
      {values : List (String × Position × ExprTree)} {init : List Expr} :
      List.Forall₂ (fun field code => ∃ value type, literalField? values field.name = some value ∧
        field.type = some type ∧ Elab refs locals value code type) fields init →
      ElabFinal refs locals fields (.structLiteral pos qualified path values none) init

def paramLocals (params : List ParamDecl) : Locals :=
  (params.map fun param => (param.name, param.type)).reverse

structure ElabFunction (refs : References) (owner : UnitSig) (sig : ConstructorSig)
    (function : FunctionTree) (ctor : ConstructorDecl) : Prop where
  name : ctor.name = sig.name
  params : Lower.paramDecls sig.params = some ctor.params
  parts : ∃ tree last, (Lower.splitBody function.body).2 = some tree ∧
    ElabBody refs (paramLocals ctor.params) (Lower.splitBody function.body).1 ctor.body last ∧
    ElabFinal refs last owner.fields tree ctor.init ∧ ctor.locals = last.length.toUInt32

/-- A constructor of a struct stands for code: by its function, or by the defaults of the fields. -/
inductive ElabConstructor (refs : References) (owner : UnitSig) :
    ConstructorSig → ConstructorDecl → Prop
  | function {sig : ConstructorSig} {function : FunctionTree} {ctor : ConstructorDecl} :
      sig.function = some function → ElabFunction refs owner sig function ctor →
      ElabConstructor refs owner sig ctor
  | implicit {ctor : ConstructorDecl} : Lower.implicitConstructor owner = some ctor →
      ElabConstructor refs owner .implicit ctor

theorem ElabConstructor.name {refs : References} {owner : UnitSig} {sig : ConstructorSig}
    {ctor : ConstructorDecl} (elab_ : ElabConstructor refs owner sig ctor) :
    ctor.name = sig.name := by
  cases elab_ with
  | function _ elab_ => exact elab_.name
  | implicit same =>
      obtain ⟨init, -, rfl⟩ := Option.map_eq_some_iff.mp same
      rfl

structure ElabUnit (refs : References) (owner : UnitSig) (image : UnitImage) : Prop where
  name : image.name = owner.fullName
  fields : owner.fieldDecls = some image.fields
  constructors : List.Forall₂ (ElabConstructor refs owner) owner.constructors image.constructors

end UnitForge
