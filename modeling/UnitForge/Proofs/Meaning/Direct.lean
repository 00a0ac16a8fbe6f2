import UnitForge.Dialect.Signature
import UnitForge.Evaluation.Construct
import UnitForge.Proofs.Loading.Lookup

/-! # Running sources

What a constructor means by its source, without any code: names have values, the latest binding of a
name wins, and what a constructor calls is run by its source in turn. Integers are those of 64 bits,
and an operation on them has its exact result or else overflows. Floats are opaque, and how values
are compared and written as text is taken from the evaluator. -/
set_option autoImplicit false
namespace UnitForge.Direct

open Source

variable {α : Type}

structure UnitSource where
  owner : UnitSig
  unitOf : List String → Option String

abbrev Program := Meaning → Option UnitSource

/-- The names in scope with their values, the latest first. -/
abbrev Scope := List (String × Value)

abbrev Caller := UnitType → String → List Value → Action Instance

abbrev Outcome := Except ExecutionFault Value

/-- The fault of what has no meaning, which no source that was compiled contains. -/
def noMeaning : ExecutionFault :=
  .unknownConstructor "" ""

def meaningless : Action α :=
  throw (.execution noMeaning)

def yield : Outcome → Action Value
  | .ok value => return value
  | .error fault => throw (.execution fault)

/-! ## Literals -/

def decimal (digits : String) : Binary64 :=
  match digits.splitOn "e" with
  | [significand, power] => scaled significand (power.toInt?.getD 0)
  | _ => scaled digits 0
where
  scaled (significand : String) (power : Int) : Binary64 :=
    match significand.splitOn "." with
    | [whole, fraction] => .ofDecimal ((whole ++ fraction).toNat?.getD 0) (power - fraction.length)
    | _ => .ofDecimal (significand.toNat?.getD 0) power

/-- The value of a literal. A minus sign in front of a number belongs to it. -/
def literal (negated : Bool) : Literal → Value
  | .int value suffix =>
    if suffix = "f32" ∨ suffix = "f64" then .float (signed (.ofDecimal value 0))
    else .int (.ofInt (if negated then -value else value))
  | .float digits _ => .float (signed (decimal digits))
  | .bool value => .bool value
  | .str value => .str value
  | .other => .null
where
  signed (number : Binary64) : Binary64 :=
    if negated then number.neg else number

/-! ## Operators -/

def Fits (result : Int) : Prop :=
  -9223372036854775808 ≤ result ∧ result ≤ 9223372036854775807

instance : DecidablePred Fits :=
  fun _ => inferInstanceAs (Decidable (_ ∧ _))

def checked (operation : CheckedOperation) (result : Int) : Outcome :=
  if Fits result then .ok (.int (.ofInt result)) else .error (.overflow operation)

/-- An operator between integers. Division drops the fraction, and a remainder has the sign of what
is divided. -/
def onIntegers (operator : BinaryOperator) (a b : Int) : Outcome :=
  match operator with
  | .add => checked .add (a + b)
  | .sub => checked .subtract (a - b)
  | .mul => checked .multiply (a * b)
  | .div => if b = 0 then .error .divisionByZero else checked .divide (a.tdiv b)
  | .rem =>
    if b = 0 then .error .remainderByZero
    -- A remainder is small, but it overflows together with its quotient.
    else if Fits (a.tdiv b) then .ok (.int (.ofInt (a.tmod b)))
    else .error (.overflow .remainder)
  | _ => .error noMeaning

def onFloats (operator : BinaryOperator) (a b : Binary64) : Outcome :=
  match operator with
  | .add => .ok (.float (a.add b))
  | .sub => .ok (.float (a.sub b))
  | .mul => .ok (.float (a.mul b))
  | .div => .ok (.float (a.div b))
  | .rem => .ok (.float (a.rem b))
  | _ => .error noMeaning

/-- Whether values are in an order; a number that is none is in no order. -/
def ordered (a b : Value) (admits : Ordering → Bool) : Outcome :=
  match Evaluation.order? a b with
  | some order => .ok (.bool (order.any admits))
  | none => .error noMeaning

/-- An operator between values that are both needed. -/
def operate : BinaryOperator → Value → Value → Outcome
  | .eq, a, b => .ok (.bool (a.equal b))
  | .ne, a, b => .ok (.bool !(a.equal b))
  | .lt, a, b => ordered a b (· = .lt)
  | .le, a, b => ordered a b (· ≠ .gt)
  | .gt, a, b => ordered a b (· = .gt)
  | .ge, a, b => ordered a b (· ≠ .lt)
  | .add, .str a, .str b => .ok (.str (a ++ b))
  | operator, .int a, .int b => onIntegers operator a.toInt b.toInt
  | operator, .float a, .float b => onFloats operator a b
  | _, _, _ => .error noMeaning

def negate : Value → Outcome
  | .int a => checked .negate (-a.toInt)
  | .float a => .ok (.float a.neg)
  | _ => .error noMeaning

/-- An exclamation mark turns a truth value or all bits of an integer. -/
def invert : Value → Outcome
  | .bool a => .ok (.bool !a)
  | .int a => .ok (.int (~~~a))
  | _ => .error noMeaning

/-! ## Casts and methods -/

/-- The types that are written for integers of 64 bits. -/
def integerTypes : List String :=
  ["i8", "i16", "i32", "i64", "i128", "isize", "u8", "u16", "u32", "u64", "u128", "usize"]

def floatTypes : List String :=
  ["f32", "f64"]

def toInteger : Value → Outcome
  | .int a => .ok (.int a)
  | .float a => .ok (.int a.toInt64)
  | .bool a => .ok (.int (if a then 1 else 0))
  | _ => .error noMeaning

def toFloat : Value → Outcome
  | .int a => .ok (.float (.ofInt a.toInt))
  | .float a => .ok (.float a)
  | _ => .error noMeaning

def castTo (written : TypeTree) (value : Value) : Outcome :=
  match written with
  | .path _ false path =>
    match path.ident? with
    | some ident =>
      if ident.written ∈ integerTypes then toInteger value
      else if ident.written ∈ floatTypes then toFloat value
      else .error noMeaning
    | none => .error noMeaning
  | _ => .error noMeaning

def method (name : String) (receiver : Value) : Outcome :=
  if name = "to_string" then Evaluation.toText receiver
  else if name = "to_owned" ∨ name = "clone" ∨ name = "into" then .ok receiver
  else if name = "len" then
    match receiver with
    | .str text => .ok (.int (.ofInt (Text.utf8 text).length))
    | _ => .error noMeaning
  else .error noMeaning

def textFunction (name : String) (args : List Value) : Outcome :=
  match args with
  | [] => if name = "new" then .ok (.str "") else .error noMeaning
  | [text] => if name = "from" then .ok text else .error noMeaning
  | _ => .error noMeaning

/-! ## Expressions -/

section
variable (source : UnitSource) (unit : UnitType) (call : Caller)

mutual

def eval (scope : Scope) : ExprTree → Action Value
  | .literal _ _ value => return literal false value
  | .paren _ _ inner => eval scope inner
  | .path _ false path =>
    match path.ident?.bind fun ident => scope.lookup ident.name with
    | some value => return value
    | none => meaningless
  | .unary _ _ .neg (.literal _ _ value) => return literal true value
  | .unary _ _ .neg operand => do yield (negate (← eval scope operand))
  | .unary _ _ .not operand => do yield (invert (← eval scope operand))
  | .binary _ _ .and left right => do
    match ← eval scope left with
    | .bool true => eval scope right
    | other => return other
  | .binary _ _ .or left right => do
    match ← eval scope left with
    | .bool false => eval scope right
    | other => return other
  | .binary _ _ operator left right => do
    let a ← eval scope left
    let b ← eval scope right
    yield (operate operator a b)
  | .cast _ _ operand type => do yield (castTo type (← eval scope operand))
  | .methodCall _ receiver ident false [] => do yield (method ident.name (← eval scope receiver))
  | .call _ _ (.path _ false path) args => do
    let function := path.names.getLastD ""
    if path.names.dropLast = ["String"] then yield (textFunction function (← evalAll scope args))
    else
      match source.unitOf path.names.dropLast with
      | some name =>
        let target ← Evaluation.unitFor unit name
        let values ← evalAll scope args
        return (← call target function values).toValue
      | none => meaningless
  | .reference _ _ false operand => eval scope operand
  | _ => meaningless

def evalAll (scope : Scope) : List ExprTree → Action (List Value)
  | [] => return []
  | first :: rest => do
    let value ← eval scope first
    return value :: (← evalAll scope rest)

end

/-! ## Constructors -/

/-- The values that a struct literal has for fields, in the order of the fields. -/
def evalFields (scope : Scope) (values : List (String × Position × ExprTree)) :
    List FieldSig → Action (List Value)
  | [] => return []
  | field :: rest => do
    match values.lookup field.name with
    | some (_, value) =>
      let found ← eval source unit call scope value
      return found :: (← evalFields scope values rest)
    | none => meaningless

def final (scope : Scope) : ExprTree → Action (List Value)
  | .path _ false _ => return []
  | .structLiteral _ _ _ values none => evalFields source unit call scope values source.owner.fields
  | _ => meaningless

/-- The values of the fields by a body: bindings, of which each sees those before it, and a final
expression. -/
def body (scope : Scope) : List StmtTree → Action (List Value)
  | [.expr tree false] => final source unit call scope tree
  | .binding _ (.ident _ true ident) _ (some value) none :: rest => do
    let found ← eval source unit call scope value
    body ((ident.name, found) :: scope) rest
  | _ => meaningless

def defaultOf : TypeRef → Value
  | .int => .int 0
  | .float => .float (.zero false)
  | .bool => .bool false
  | .str => .str ""
  | .unit _ => .null

def fields (sig : ConstructorSig) (args : List Value) : Action (List Value) :=
  match sig.function with
  | some function =>
    body source unit call ((sig.params.map (·.name)).zip args).reverse function.body
  | none => return source.owner.fields.filterMap fun (field : FieldSig) => field.type.map defaultOf

def construct (sig : ConstructorSig) (args : List Value) : Action Instance := do
  let values ← fields source unit call sig args
  Action.newInstance unit values

end

/-- Calls a constructor with `levels` levels left for it and what it calls. A unit whose source is
not known is run by its image. -/
def callWithin (program : Program) (limit : Nat) : Nat → Caller
  | 0 => fun unit name _ => throw (.execution (.nestedTooDeeply limit unit.simpleName name))
  | levels + 1 => fun unit name args =>
    match program (.ofUnit unit) with
    | some source =>
      match source.owner.constructors.find? (·.name = name) with
      | some sig => construct source unit (callWithin program limit levels) sig args
      | none => meaningless
    | none =>
      match unit.image.constructor? name with
      | some ctor => Evaluation.runWithin limit (levels + 1) unit ctor args
      | none => meaningless

/-- Runs a constructor by its source. The constructors that it calls may nest `limit` levels
deep. -/
def run (program : Program) (limit : Nat) (source : UnitSource) (unit : UnitType)
    (sig : ConstructorSig) (args : List Value) : Action Instance :=
  construct source unit (callWithin program limit limit) sig args

end UnitForge.Direct
