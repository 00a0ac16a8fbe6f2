import UnitForge.Evaluation.Operators
import UnitForge.Loading.World

/-! # Construction

Running the code of constructors, and choosing one by the types of arguments. A constructor that is
called from another one runs one level deeper; below the deepest level there is only a fault. -/
set_option autoImplicit false
namespace UnitForge.Evaluation

def maxConstructDepth : Nat := 64

structure Frame where
  unit : UnitType
  slots : List Value

abbrev Runner := UnitType → ConstructorDecl → List Value → Action Instance

def lift (outcome : Outcome) : Action Value :=
  match outcome with
  | .ok value => return value
  | .error fault => throw (.execution fault)

def unitFor (unit : UnitType) (name : String) : Action UnitType :=
  if name = unit.name then return unit else Action.resolve unit.resolver name

def callee (target : UnitType) (unit constructor : String) (given : Nat) :
    Action ConstructorDecl := do
  match target.image.constructor? constructor with
  | none => throw (.execution (.unknownConstructor unit constructor))
  | some ctor =>
    if ctor.params.length ≠ given then
      throw (.execution (.argumentCount unit constructor ctor.params.length given))
    return ctor

mutual

def eval (run : Runner) (frame : Frame) : Expr → Action Value
  | .null => return .null
  | .int value => return .int value
  | .float value => return .float value
  | .bool value => return .bool value
  | .str value => return .str value
  | .slot index =>
    match frame.slots[index.toNat]? with
    | some value => return value
    | none => throw (.execution (.slotOutOfRange index))
  | .unary op operand => do lift (unary op (← eval run frame operand))
  | .binary .and left right => do
    match ← eval run frame left with
    | .bool false => return .bool false
    | .bool true => eval run frame right
    | other => throw (.execution (.operandType "&&" other.type?))
  | .binary .or left right => do
    match ← eval run frame left with
    | .bool true => return .bool true
    | .bool false => eval run frame right
    | other => throw (.execution (.operandType "||" other.type?))
  | .binary op left right => do
    let a ← eval run frame left
    let b ← eval run frame right
    lift (binary op a b)
  | .cast operand type => do lift (cast (← eval run frame operand) type)
  | .toText operand => do lift (toText (← eval run frame operand))
  | .length operand => do lift (length (← eval run frame operand))
  | .construct unit constructor args => do
    let target ← unitFor frame.unit unit
    let ctor ← callee target unit constructor args.length
    let values ← evalAll run frame args
    return (← run target ctor values).toValue

def evalAll (run : Runner) (frame : Frame) : List Expr → Action (List Value)
  | [] => return []
  | first :: rest => do
    let value ← eval run frame first
    return value :: (← evalAll run frame rest)

end

def runBody (run : Runner) (unit : UnitType) : List Stmt → List Value → Action (List Value)
  | [], slots => return slots
  | step :: rest, slots => do
    let value ← eval run { unit, slots } step.value
    if step.slot.toNat < slots.length then
      runBody run unit rest (slots.set step.slot.toNat value)
    else throw (.execution (.slotOutOfRange step.slot))

def initialSlots (ctor : ConstructorDecl) (args : List Value) : List Value :=
  let size := max ctor.locals.toNat ctor.params.length
  args.take size ++ List.replicate (size - args.length) .null

/-- Runs a constructor with `levels` levels left for it and what it calls. `limit` is the number
of levels that the first constructor was started with, as messages tell it. -/
def runWithin (limit : Nat) : Nat → Runner
  | 0 => fun unit ctor _ =>
    throw (.execution (.nestedTooDeeply limit unit.simpleName ctor.name))
  | levels + 1 => fun unit ctor args => do
    if ctor.init.length ≠ unit.fields.length then
      throw (.malformedArtifact unit.name
        (.missingInit ctor.name ctor.init.length unit.fields.length))
    let run := runWithin limit levels
    let slots ← runBody run unit ctor.body (initialSlots ctor args)
    let fields ← evalAll run { unit, slots } ctor.init
    Action.newInstance unit fields

def run (limit : Nat) : Runner :=
  runWithin limit (limit + 1)

/-! ## Choosing a constructor -/

/-- Whether a parameter takes an argument: a primitive one by its type, and an instance only if
its unit is the very unit that the parameter's type stands for. -/
def accepts (unit : UnitType) (nullable : Bool) (param : TypeRef) (arg : Value) : Action Bool := do
  match param, arg with
  | .unit name, .object _ given _ =>
    if given.name ≠ name then return false
    else if name = unit.name then return unit.id = given.id
    else
      try
        let expected ← Action.resolve unit.resolver name
        return expected.id = given.id
      catch
        | .typeNotFound _ => return false
        | error => throw error
  | param, .null => return nullable && !param.isPrimitive
  | param, arg => return arg.type? = some param

/-- Whether parameters take arguments, one each; the first that does not ends the search. -/
def acceptsAll (unit : UnitType) (nullable : Bool) : List TypeRef → List Value → Action Bool
  | param :: params, arg :: args => do
    if ← accepts unit nullable param arg then acceptsAll unit nullable params args
    else return false
  | _, _ => return true

def admitsArguments (unit : UnitType) (nullable : Bool) (args : List Value)
    (ctor : ConstructorDecl) : Action Bool := do
  if ctor.params.length ≠ args.length then return false
  else acceptsAll unit nullable ctor.paramTypes args

def candidates (unit : UnitType) (args : List Value) : Action (List ConstructorDecl) :=
  unit.constructors.filterM (admitsArguments unit false args)

def argumentTypes (args : List Value) : Except Error (List TypeRef) :=
  match args.findIdx? Value.isNull with
  | some index => .error (.invalidArgument (.nullArgument index))
  | none => .ok (args.filterMap Value.type?)

def construct (limit : Nat) (unit : UnitType) (args : List Value) : Action Instance := do
  let types ← liftM (argumentTypes args)
  let call := TypeRef.listText types
  match ← candidates unit args with
  | [] => throw (.noMatchingConstructor unit.name call)
  | [ctor] => run limit unit ctor args
  | several =>
    throw (.ambiguousConstructor unit.name call (several.map ConstructorDecl.signature))

def constructWith (limit : Nat) (unit : UnitType) (name : String) (args : List Value) :
    Action Instance := do
  match unit.image.constructor? name with
  | none => throw (.noMatchingConstructor unit.name s!"{name}(..)")
  | some ctor =>
    if ← admitsArguments unit true args ctor then run limit unit ctor args
    else
      let types := ", ".intercalate (args.map fun arg => typeText arg.type?)
      throw (.noMatchingConstructor unit.name s!"{name}({types})")

end UnitForge.Evaluation
