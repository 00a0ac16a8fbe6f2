import UnitForge.Error
import UnitForge.Text.Utf8
import UnitForge.Value

/-! # Operators on values

Integer arithmetic is exact: a result that has no 64 bits is a fault. Comparisons are defined
between values of one primitive type; a comparison with a number that is none is false. -/
set_option autoImplicit false
namespace UnitForge.Evaluation

abbrev Outcome := Except ExecutionFault Value

/-- The integer as a value, if it has 64 bits. -/
def checked (operation : CheckedOperation) (result : Int) : Outcome :=
  if -(2 ^ 63 : Int) ≤ result ∧ result < (2 ^ 63 : Int) then .ok (.int (Int64.ofInt result))
  else .error (.overflow operation)

def unary : UnaryOp → Value → Outcome
  | .neg, .int a => checked .negate (-a.toInt)
  | .neg, .float a => .ok (.float a.neg)
  | .not, .bool a => .ok (.bool !a)
  | .not, .int a => .ok (.int (~~~a))
  | .neg, other => .error (.operandType "-" other.type?)
  | .not, other => .error (.operandType "!" other.type?)

def operatorName : BinaryOp → String
  | .add => "Add"
  | .sub => "Sub"
  | .mul => "Mul"
  | .div => "Div"
  | .rem => "Rem"
  | .concat => "Concat"
  | .eq => "Eq"
  | .ne => "Ne"
  | .lt => "<"
  | .le => "<="
  | .gt => ">"
  | .ge => ">="
  | .and => "And"
  | .or => "Or"

def divide (a b : Int64) : Outcome :=
  if b = 0 then .error .divisionByZero else checked .divide (a.toInt.tdiv b.toInt)

def remainder (a b : Int64) : Outcome :=
  if b = 0 then .error .remainderByZero
  else if b = -1 ∧ a.toInt = -(2 ^ 63 : Int) then .error (.overflow .remainder)
  else checked .remainder (a.toInt.tmod b.toInt)

/-- The order of two values of one primitive type: none if there is no such order, and none inside
if a number is none. -/
def order? : Value → Value → Option (Option Ordering)
  | .int a, .int b => some (some (compare a.toInt b.toInt))
  | .float a, .float b =>
    some (if a.less b then some .lt else if a.equal b then some .eq
      else if b.less a then some .gt else none)
  | .str a, .str b => some (some (compare a b))
  | .bool a, .bool b => some (some (compare a.toNat b.toNat))
  | _, _ => none

def admits : BinaryOp → Ordering → Bool
  | .lt, o => o = .lt
  | .le, o => o ≠ .gt
  | .gt, o => o = .gt
  | _, o => o ≠ .lt

def compareBy (op : BinaryOp) (a b : Value) : Outcome :=
  match order? a b with
  | some (some order) => .ok (.bool (admits op order))
  | some none => .ok (.bool false)
  | none => .error (.operandType (operatorName op) a.type?)

def binary : BinaryOp → Value → Value → Outcome
  | .add, .int a, .int b => checked .add (a.toInt + b.toInt)
  | .sub, .int a, .int b => checked .subtract (a.toInt - b.toInt)
  | .mul, .int a, .int b => checked .multiply (a.toInt * b.toInt)
  | .div, .int a, .int b => divide a b
  | .rem, .int a, .int b => remainder a b
  | .add, .float a, .float b => .ok (.float (a.add b))
  | .sub, .float a, .float b => .ok (.float (a.sub b))
  | .mul, .float a, .float b => .ok (.float (a.mul b))
  | .div, .float a, .float b => .ok (.float (a.div b))
  | .rem, .float a, .float b => .ok (.float (a.rem b))
  | .add, .str a, .str b | .concat, .str a, .str b => .ok (.str (a ++ b))
  | .eq, a, b => .ok (.bool (a.equal b))
  | .ne, a, b => .ok (.bool !(a.equal b))
  | .lt, a, b => compareBy .lt a b
  | .le, a, b => compareBy .le a b
  | .gt, a, b => compareBy .gt a b
  | .ge, a, b => compareBy .ge a b
  | op, a, _ => .error (.operandType (operatorName op) a.type?)

def cast : Value → TypeRef → Outcome
  | .int a, .int => .ok (.int a)
  | .int a, .float => .ok (.float (.ofInt a.toInt))
  | .float a, .int => .ok (.int a.toInt64)
  | .float a, .float => .ok (.float a)
  | .bool a, .int => .ok (.int (if a then 1 else 0))
  | value, type => .error (.castType value.type? type)

def toText : Value → Outcome
  | .null => .error .textOfNull
  | value => .ok (.str value.text)

def length : Value → Outcome
  | .str s => .ok (.int (Int64.ofInt (Text.utf8 s).length))
  | other => .error (.operandType "len" other.type?)

end UnitForge.Evaluation
