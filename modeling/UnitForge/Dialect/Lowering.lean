import UnitForge.Dialect.Signature

/-! # Lowering

The code of constructors. Every expression is turned into code together with its type; the type is
unknown where a problem was reported, which silences whatever would follow from it. A slot is
numbered by the order in which its name was bound, parameters first, and a name stands for its
latest binding. -/
set_option autoImplicit false
namespace UnitForge

open Source

def maxExprDepth : Nat := 256

structure Binding where
  name : String
  type : Option TypeRef
  pos : Position
  used : Bool
  deriving DecidableEq, Repr

abbrev Scope := List Binding

namespace Scope

def slot? (scope : Scope) (name : String) : Option Nat :=
  (scope.reverse.findIdx? (·.name = name)).map fun back => scope.length - 1 - back

def find? (scope : Scope) (name : String) : Option (Nat × Binding) := do
  let slot ← slot? scope name
  return (slot, ← scope[slot]?)

def use (scope : Scope) (slot : Nat) : Scope :=
  scope.modify slot fun binding => { binding with used := true }

def unused (scope : Scope) : List Binding :=
  scope.filter fun binding => !binding.used && binding.name.toList.head? != some '_'

end Scope

/-- The state of the lowering of one constructor. It is incomplete once something was reported, and
the depth of expressions is reported once. -/
structure Lowering (σ : Type) where
  session : Session σ
  scope : Scope
  reportedDepth : Bool
  complete : Bool

abbrev Lower (σ : Type) := StateM (Lowering σ)

structure TypedCode where
  code : Expr
  type : Option TypeRef

namespace TypedCode

def unknown : TypedCode := { code := .null, type := none }

def known (code : Expr) (type : TypeRef) : TypedCode := { code, type := some type }

end TypedCode

/-- What code may refer to: the declarations of the source, their signatures, and the struct that
the constructor belongs to. -/
structure LoweringContext (σ : Type) where
  manager : FileManager σ
  decls : Declarations
  sigs : List UnitSig
  owner : UnitSig

namespace Lower

variable {σ : Type}

def check {α : Type} (step : Check σ α) : Lower σ α := fun state =>
  let (result, session) := step state.session
  (result, { state with session })

def giveUp : Lower σ Unit :=
  modify fun state => { state with complete := false }

variable (context : LoweringContext σ)

def complain (pos : Position) (problem : Problem) : Lower σ Unit := do
  check (context.decls.complain pos problem)
  giveUp

def fail (pos : Position) (problem : Problem) : Lower σ TypedCode := do
  complain context pos problem
  return .unknown

def mismatch (pos : Position) (expected found : TypeRef) : Lower σ Unit :=
  complain context pos (.mismatch expected.text found.text)

def expect (pos : Position) (expected found : Option TypeRef) : Lower σ Unit := do
  match expected, found with
  | some expected, some found => if expected ≠ found then mismatch context pos expected found
  | _, _ => pure ()

def bind (name : String) (type : Option TypeRef) (pos : Position) : Lower σ UInt32 := do
  let slot := (← get).scope.length
  modify fun state =>
    { state with scope := state.scope ++ [{ name, type, pos, used := false }] }
  return slot.toUInt32

/-! ## Leaves -/

def fitsInt64 (value : Int) : Bool :=
  -(2 ^ 63 : Int) ≤ value && value < (2 ^ 63 : Int)

def floatOfDigits (digits : String) : Binary64 :=
  let (significand, exponent) := match digits.splitOn "e" with
    | [significand, exponent] => (significand, exponent.toInt?.getD 0)
    | _ => (digits, 0)
  let (whole, fraction) := match significand.splitOn "." with
    | [whole, fraction] => (whole, fraction)
    | _ => (significand, "")
  let value := (whole ++ fraction).toNat?.getD 0
  .ofDecimal value (exponent - fraction.length)

def literal (negated : Bool) (place : Position) (value : Literal) : Lower σ TypedCode := do
  let float (x : Binary64) := TypedCode.known (.float (if negated then x.neg else x)) .float
  match value with
  | .int value suffix =>
    if suffix = "f32" || suffix = "f64" then return float (.ofDecimal value 0)
    let signed : Int := if negated then -value else value
    if fitsInt64 signed then return .known (.int (Int64.ofInt signed)) .int
    else fail context place (.outOfRange TypeRef.int.text (toString value))
  | .float digits _ =>
    let x := floatOfDigits digits
    if x.isFinite then return float x
    else fail context place (.outOfRange TypeRef.float.text digits)
  | .bool value =>
    if negated then fail context place (.unaryOperand "-" TypeRef.bool.text)
    else return .known (.bool value) .bool
  | .str value =>
    if negated then fail context place (.unaryOperand "-" TypeRef.str.text)
    else return .known (.str value) .str
  | .other => fail context place .unsupportedLiteral

def namedValue (pos : Position) (qualified : Bool) (names : NamePath) : Lower σ TypedCode := do
  match if qualified then none else names.ident? with
  | none => fail context pos .unknownPath
  | some ident =>
    match (← get).scope.find? ident.name with
    | none => fail context ident.pos (.unknownValue ident.name)
    | some (slot, binding) =>
      modify fun state => { state with scope := state.scope.use slot }
      return { code := .slot slot.toUInt32, type := binding.type }

/-! ## Operators -/

/-- What an operator means, and how it is written; only some have a meaning. -/
def operator? : BinaryOperator → Option (BinaryOp × String)
  | .add => some (.add, "+")
  | .sub => some (.sub, "-")
  | .mul => some (.mul, "*")
  | .div => some (.div, "/")
  | .rem => some (.rem, "%")
  | .and => some (.and, "&&")
  | .or => some (.or, "||")
  | .eq => some (.eq, "==")
  | .ne => some (.ne, "!=")
  | .lt => some (.lt, "<")
  | .le => some (.le, "<=")
  | .gt => some (.gt, ">")
  | .ge => some (.ge, ">=")
  | _ => none

def isNumeric (type : TypeRef) : Bool :=
  type = .int || type = .float

def unary (pos : Position) (op : UnaryOp) (operand : TypedCode) : Lower σ TypedCode := do
  let (symbol, admitted) := match op with
    | .neg => ("-", [TypeRef.int, .float])
    | .not => ("!", [TypeRef.bool, .int])
  match operand.type with
  | some type =>
    if admitted.contains type then return { operand with code := .unary op operand.code }
    else fail context pos (.unaryOperand symbol type.text)
  | none => return { operand with code := .unary op operand.code }

def logical (op : BinaryOp) (leftPos rightPos : Position) (left right : TypedCode) :
    Lower σ TypedCode := do
  expect context leftPos (some .bool) left.type
  expect context rightPos (some .bool) right.type
  return .known (.binary op left.code right.code) .bool

def comparison (op : BinaryOp) (symbol : String) (place rightPos : Position)
    (left right : TypedCode) : Lower σ TypedCode := do
  match left.type, right.type with
  | some l, some r =>
    if l ≠ r then mismatch context rightPos l r
    else if !l.isPrimitive then complain context place (.binaryOperand symbol l.text)
  | _, _ => pure ()
  return .known (.binary op left.code right.code) .bool

def arithmetic (op : BinaryOp) (symbol : String) (place rightPos : Position)
    (left right : TypedCode) : Lower σ TypedCode := do
  let joins := op = .add &&
    match left.type, right.type with
    | some .str, some .str | some .str, none | none, some .str => true
    | _, _ => false
  if joins then return .known (.binary .concat left.code right.code) .str
  let code := Expr.binary op left.code right.code
  match left.type, right.type with
  | none, r => return { code, type := r.filter isNumeric }
  | some l, r =>
    if r.isSome && r ≠ some l then
      expect context rightPos (some l) r
      return .unknown
    else if isNumeric l then return .known code l
    else fail context place (.binaryOperand symbol l.text)

def binary (op : BinaryOp) (symbol : String) (place leftPos rightPos : Position)
    (left right : TypedCode) : Lower σ TypedCode :=
  match op with
  | .and | .or => logical context op leftPos rightPos left right
  | .eq | .ne | .lt | .le | .gt | .ge => comparison context op symbol place rightPos left right
  | _ => arithmetic context op symbol place rightPos left right

def cast (pos : Position) (operand : TypedCode) (type : TypeTree) : Lower σ TypedCode := do
  let target := match type with
    | .path _ false names => names.ident?.bind fun ident => Declarations.primitive? ident.written
    | _ => none
  match target, operand.type with
  | none, _ => fail context type.pos .castTarget
  | some target, source =>
    if !isNumeric target then
      let sourceText := (source.map TypeRef.text).getD "_"
      fail context pos (.impossibleCast sourceText target.text)
    else
      let done := TypedCode.known (.cast operand.code target) target
      match source with
      | none | some .int | some .float => return done
      | some .bool =>
        if target = .int then return done
        else fail context pos (.invalidCast TypeRef.bool.text target.text)
      | some source => fail context pos (.nonPrimitiveCast source.text target.text)

def method (receiver : TypedCode) (ident : Ident) : Lower σ TypedCode := do
  match receiver.type with
  | none => return .unknown
  | some type =>
    let name := ident.name
    if name = "to_string" && type.isPrimitive then return .known (.toText receiver.code) .str
    else if (name = "to_owned" || name = "clone") && type.isPrimitive then return receiver
    else if name = "into" && type = .str then return receiver
    else if name = "len" && type = .str then return .known (.length receiver.code) .int
    else fail context ident.pos (.unknownMethod name type)

/-! ## Calls -/

def constructorsOf (unit : String) : Check σ (List (String × List (Option TypeRef))) := do
  match context.sigs.find? (·.fullName = unit) with
  | some local? => return local?.constructors.map fun ctor => (ctor.name, ctor.paramTypes)
  | none =>
    let image ← Session.classPathUnit context.manager unit
    let constructors := (image.map UnitImage.constructors).getD []
    return constructors.map fun ctor => (ctor.name, ctor.paramTypes.map some)

def expectArguments : List (Option TypeRef) → List (Position × TypedCode) → Lower σ Unit
  | expected :: types, (pos, found) :: args => do
    expect context pos expected found.type
    expectArguments types args
  | _, _ => return ()

def textCall (pos : Position) (function : String) (args : List (Position × TypedCode)) :
    Lower σ TypedCode := do
  let count (expected : Nat) := fail context pos (.argumentCount expected args.length)
  if function = "new" then
    if args.isEmpty then return .known (.str "") .str else count 0
  else if function = "from" then
    match args with
    | [(argPos, arg)] =>
      if arg.type.all (· = .str) then return .known arg.code .str
      else
        expect context argPos (some .str) arg.type
        return .unknown
    | _ => count 1
  else fail context pos (.unknownTextFunction function)

def constructorCall (pos functionPos : Position) (unit function : String)
    (args : List (Position × TypedCode)) : Lower σ TypedCode := do
  match (← check (constructorsOf context unit)).lookup function with
  | none => fail context functionPos (.unknownConstructor function unit)
  | some params =>
    if params.length ≠ args.length then
      fail context pos (.argumentCount params.length args.length)
    else
      expectArguments context params args
      return .known (.construct unit function (args.map (·.2.code))) (.unit unit)

def call (pos functionPos : Position) (names : List String) (args : List (Position × TypedCode)) :
    Lower σ TypedCode := do
  let function := names.getLastD ""
  match names.dropLast with
  | [] => fail context functionPos (.unknownFunction function)
  | ["String"] => textCall context pos function args
  | type =>
    let owner := context.owner.name
    match ← check (context.decls.resolveUnit context.manager owner type functionPos) with
    | none =>
      giveUp
      return .unknown
    | some unit => constructorCall context pos functionPos unit function args

/-! ## Expressions -/

def headPos : ExprTree → Position
  | .binary _ place _ _ _ => place
  | .unary _ place _ _ => place
  | .cast _ place _ _ => place
  | .paren _ opening _ => opening
  | .methodCall _ _ method _ _ => method.pos
  | .call _ opening _ _ => opening
  | .reference _ place _ _ => place
  | tree => tree.pos

/-- What is done with an expression below the deepest level: the first one is reported. -/
def atLimit (tree : ExprTree) : Lower σ TypedCode := do
  if (← get).reportedDepth then
    giveUp
    return .unknown
  else
    modify fun state => { state with reportedDepth := true }
    fail context (headPos tree) (.tooDeep maxExprDepth)

mutual

def expr (depth : Nat) (tree : ExprTree) : Lower σ TypedCode :=
  if depth = maxExprDepth then atLimit context tree
  else match tree with
  | .literal _ place value => literal context false place value
  | .paren _ _ inner => expr (depth + 1) inner
  | .path pos qualified names => namedValue context pos qualified names
  | .unary _ _ .neg (.literal _ place value) => literal context true place value
  | .unary pos _ .neg operand => do unary context pos .neg (← expr (depth + 1) operand)
  | .unary pos _ .not operand => do unary context pos .not (← expr (depth + 1) operand)
  | .unary pos _ .deref _ => fail context pos .dereference
  | .binary _ place op left right => do
    match operator? op with
    | none => fail context place .unsupportedOperator
    | some (op, symbol) =>
      let leftCode ← expr (depth + 1) left
      let rightCode ← expr (depth + 1) right
      binary context op symbol place left.pos right.pos leftCode rightCode
  | .cast pos _ operand type => do cast context pos (← expr (depth + 1) operand) type
  | .methodCall pos receiver ident generic args => do
    if generic then fail context pos .genericArguments
    else
      let code ← expr (depth + 1) receiver
      match args with
      | [] => method context code ident
      | first :: _ => fail context first.pos (.methodArguments args.length)
  | .call pos _ (.path functionPos false names) args => do
    match ← check (context.decls.plainNames names) with
    | none =>
      giveUp
      return .unknown
    | some names => call context pos functionPos names (← exprs (depth + 1) args)
  | .call _ _ (.path functionPos true _) _ => fail context functionPos .qualifiedCall
  | .call _ _ function _ => fail context function.pos .unsupportedCall
  | .reference pos _ false operand => do
    let code ← expr (depth + 1) operand
    if code.type.all (· = .str) then return code
    else fail context pos .unsupportedReference
  | .structLiteral pos _ _ _ _ => fail context pos .nestedStructLiteral
  | other => fail context other.pos .unsupportedExpr

def exprs (depth : Nat) : List ExprTree → Lower σ (List (Position × TypedCode))
  | [] => return []
  | first :: rest => do
    let code ← expr depth first
    return (first.pos, code) :: (← exprs depth rest)

end

/-! ## Statements -/

/-- A statement before the final literal, which must bind a name. -/
def statement (tree : StmtTree) : Lower σ (Option Stmt) := do
  match tree with
  | .item pos =>
    complain context pos .nestedItem
    return none
  | .macroCall pos =>
    complain context pos .macroCall
    return none
  | .expr value _ =>
    complain context value.pos .onlyBindings
    return none
  | .empty =>
    complain context ⟨1, 1⟩ .onlyBindings
    return none
  | .binding pos pattern type init otherwise =>
    match pattern, init, otherwise with
    | .ident _ true ident, some value, none => bindTo ident type value
    | .ident _ true _, none, _ =>
      complain context pos .bindingWithoutValue
      return none
    | .ident _ true _, some _, some elsePos =>
      complain context elsePos .bindingElse
      return none
    | _, _, _ =>
      complain context pattern.pos .bindingPattern
      return none
where
  /-- Binds a name to a value, which must have the type that is declared. -/
  bindTo (ident : Ident) (type : Option TypeTree) (value : ExprTree) : Lower σ (Option Stmt) := do
    let found ← expr context 0 value
    match type with
    | none => finish ident found.code found.type
    | some tree =>
      let declared ← check
        (context.decls.resolveType context.manager context.owner.name tree)
      match declared with
      | none => giveUp
      | some _ => expect context value.pos declared found.type
      finish ident found.code declared
  finish (ident : Ident) (code : Expr) (type : Option TypeRef) : Lower σ (Option Stmt) := do
    let slot ← bind ident.name type ident.pos
    return some { slot, value := code }

/-! ## The final literal -/

def namesOwner (owner : String) (qualified : Bool) (names : NamePath) : Option Ident :=
  if qualified then none
  else names.ident?.filter fun ident => ident.is "Self" || ident.name = owner

/-- The code of the fields of a literal, in the order of the literal: for each the place of the
field in the struct. -/
def literalFields (owner : UnitSig) :
    List (Nat × Expr) → List (String × Position × ExprTree) → Lower σ (List (Nat × Expr))
  | done, [] => return done
  | done, (name, pos, value) :: rest => do
    match owner.fields.findIdx? (·.name = name) with
    | none =>
      complain context pos (.unknownField owner.name name)
      literalFields owner done rest
    | some index =>
      if (done.lookup index).isSome then
        complain context pos (.repeatedField name)
        literalFields owner done rest
      else
        let found ← expr context 0 value
        expect context value.pos ((owner.fields[index]?).bind (·.type)) found.type
        literalFields owner (done ++ [(index, found.code)]) rest

def expectFields (pos : Position) (owner : UnitSig) (done : List (Nat × Expr)) :
    Lower σ Unit := do
  let missing := owner.fields.zipIdx.filter fun (_, index) => (done.lookup index).isNone
  if !missing.isEmpty then
    complain context pos (.missingFields owner.name (missing.map fun (field, _) => field.name))

def initOf (owner : UnitSig) (done : List (Nat × Expr)) : List Expr :=
  owner.fields.mapIdx fun index _ => (done.lookup index).getD .null

/-- The final expression, which gives a value to each field. A struct without fields may be written
without braces, unless its name stands for a value. -/
def final (tree : ExprTree) : Lower σ (List Expr) := do
  let owner := context.owner
  match tree with
  | .path _ qualified names =>
    let scope := (← get).scope
    match (namesOwner owner.name qualified names).filter fun ident =>
        ident.is "Self" || (scope.slot? ident.name).isNone with
    | some ident =>
      expectFields context ident.pos owner []
      return []
    | none => other tree
  | .structLiteral _ qualified names fields base =>
    if (namesOwner owner.name qualified names).isNone then
      complain context names.pos (.otherLiteral owner.name)
      return []
    match base with
    | some base => complain context base.pos .updateSyntax
    | none => pure ()
    let done ← literalFields context owner [] fields
    expectFields context names.pos owner done
    return initOf owner done
  | _ => other tree
where
  /-- An expression that is no literal of the struct. -/
  other (tree : ExprTree) : Lower σ (List Expr) := do
    let found ← expr context 0 tree
    let expected := TypeRef.unit context.owner.fullName
    match found.type with
    | some type =>
      if type = expected then complain context tree.pos .finalLiteral
      else mismatch context tree.pos expected type
    | none => pure ()
    return []

/-! ## Constructors -/

def splitBody (body : List StmtTree) : List StmtTree × Option ExprTree :=
  match body.getLast? with
  | some (.expr value false) => (body.dropLast, some value)
  | _ => (body, none)

def paramDecls (params : List ParamSig) : Option (List ParamDecl) :=
  params.mapM fun param => param.type.map fun type => { name := param.name, type }

/-- The code of a constructor that is a function of the source. Every name that nothing refers to
is warned of. -/
def constructor (sig : ConstructorSig) (function : FunctionTree) :
    Lower σ (Option ConstructorDecl) := do
  sig.params.forM fun param => do
    let _ ← bind param.name param.type param.pos
  let (statements, last) := splitBody function.body
  let body ← statements.filterMapM (statement context)
  let init ← match last with
    | some tree => final context tree
    | none =>
      complain context function.closing (.mismatch context.owner.name "()")
      pure []
  let scope := (← get).scope
  scope.unused.forM fun binding =>
    check (context.decls.complain binding.pos (.unusedVariable binding.name))
  if (← get).complete then
    return (paramDecls sig.params).map fun params =>
      { name := sig.name, params, locals := scope.length.toUInt32, body, init }
  else return none

def defaultOf : TypeRef → Expr
  | .int => .int 0
  | .float => .float (.zero false)
  | .bool => .bool false
  | .str => .str ""
  | .unit _ => .null

def implicitConstructor (owner : UnitSig) : Option ConstructorDecl :=
  (owner.fields.mapM fun (field : FieldSig) => field.type.map defaultOf).map fun init =>
    { name := "new", params := [], locals := 0, body := [], init }

end Lower

namespace UnitSig

variable {σ : Type} (manager : FileManager σ) (decls : Declarations) (sigs : List UnitSig)

def lowerConstructor (owner : UnitSig) (sig : ConstructorSig) :
    Check σ (Option ConstructorDecl) := fun session =>
  match sig.function with
  | none => (Lower.implicitConstructor owner, session)
  | some function =>
    let start : Lowering σ := { session, scope := [], reportedDepth := false, complete := true }
    let (code, stop) := Lower.constructor { manager, decls, sigs, owner } sig function start
    (code, stop.session)

def fieldDecls (owner : UnitSig) : Option (List FieldDecl) :=
  owner.fields.mapM fun (field : FieldSig) =>
    field.type.map fun type => { name := field.name, type }

def lower (owner : UnitSig) : Check σ (Option UnitImage) := do
  let constructors ← owner.constructors.mapM (lowerConstructor manager decls sigs owner)
  return do
    let constructors ← constructors.mapM id
    let fields ← fieldDecls owner
    return { name := owner.fullName, source := decls.uri, fields, constructors }

def lowerAll : Check σ (Option (List UnitImage)) := do
  let images ← sigs.mapM (lower manager decls sigs)
  return images.mapM id

end UnitSig

end UnitForge
