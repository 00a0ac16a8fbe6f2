import UnitForge.Evaluation.Construct
import UnitForge.Proofs.Steps

/-! # Whole numbers

Code that computes with whole numbers only is compared with arithmetic over integers of any size,
in which division truncates. `Arithmetic` is such code over the slots of a frame; `exact` is its
value without bounds, and `operations` are its operations on exact operands in the order in which
they run. `eval_exact`: the code gives that value if every operation has a result and that result
has 64 bits, and else the fault of the first operation of which this is not so. -/
set_option autoImplicit false
namespace UnitForge.Evaluation

open Step

/-! ## Operations on integers of any size -/

inductive IntegerOp where
  | add
  | sub
  | mul
  | div
  | rem
  deriving DecidableEq, Repr

namespace IntegerOp

def operator : IntegerOp → BinaryOp
  | add => .add
  | sub => .sub
  | mul => .mul
  | div => .div
  | rem => .rem

def checked : IntegerOp → CheckedOperation
  | add => .add
  | sub => .subtract
  | mul => .multiply
  | div => .divide
  | rem => .remainder

end IntegerOp

inductive Operation where
  | negate (operand : Int)
  | binary (op : IntegerOp) (left right : Int)
  deriving DecidableEq, Repr

def Fits (value : Int) : Prop :=
  -(2 ^ 63 : Int) ≤ value ∧ value < (2 ^ 63 : Int)

instance (value : Int) : Decidable (Fits value) :=
  inferInstanceAs (Decidable (_ ∧ _))

theorem fits_toInt (value : Int64) : Fits value.toInt :=
  ⟨value.le_toInt, value.toInt_lt⟩

theorem toInt_ofInt {value : Int} (fits : Fits value) : (Int64.ofInt value).toInt = value :=
  Int64.toInt_ofInt_of_le fits.1 fits.2

theorem checked_fits (operation : CheckedOperation) {result : Int} (fits : Fits result) :
    Evaluation.checked operation result = .ok (.int (Int64.ofInt result)) :=
  if_pos fits

theorem checked_overflows (operation : CheckedOperation) {result : Int} (wide : ¬Fits result) :
    Evaluation.checked operation result = .error (.overflow operation) :=
  if_neg wide

namespace Operation

def result : Operation → Int
  | negate operand => -operand
  | binary .add left right => left + right
  | binary .sub left right => left - right
  | binary .mul left right => left * right
  | binary .div left right => left.tdiv right
  | binary .rem left right => left.tmod right

def checked : Operation → CheckedOperation
  | negate _ => .negate
  | binary op _ _ => op.checked

def zeroDivisor? : Operation → Option ExecutionFault
  | binary .div _ right => if right = 0 then some .divisionByZero else none
  | binary .rem _ right => if right = 0 then some .remainderByZero else none
  | _ => none

/-- The remainder that goes with the one quotient that has no 64 bits. -/
def leastRemainder : Operation :=
  .binary .rem (-(2 ^ 63 : Int)) (-1)

def Exact (operation : Operation) : Prop :=
  operation.zeroDivisor? = none ∧ operation ≠ leastRemainder ∧ Fits operation.result

instance (operation : Operation) : Decidable operation.Exact :=
  inferInstanceAs (Decidable (_ ∧ _))

/-- What is wrong with an operation that is not exact: a divisor that is zero, or else a result
that does not fit. -/
def fault (operation : Operation) : ExecutionFault :=
  operation.zeroDivisor?.getD (.overflow operation.checked)

def fault? (operation : Operation) : Option ExecutionFault :=
  if operation.Exact then none else some operation.fault

theorem fault?_eq_none {operation : Operation} : operation.fault? = none ↔ operation.Exact := by
  unfold fault?
  split <;> simp_all

theorem fault?_eq_some {operation : Operation} {fault : ExecutionFault} :
    operation.fault? = some fault ↔ ¬operation.Exact ∧ fault = operation.fault := by
  unfold fault?
  split <;> simp_all [eq_comm]

def outcome (operation : Operation) : Outcome :=
  match operation.fault? with
  | none => .ok (.int (Int64.ofInt operation.result))
  | some fault => .error fault

theorem outcome_exact {operation : Operation} (exact : operation.Exact) :
    operation.outcome = .ok (.int (Int64.ofInt operation.result)) := by
  simp only [outcome, fault?_eq_none.mpr exact]

theorem outcome_fault {operation : Operation} {fault : ExecutionFault}
    (faulty : operation.fault? = some fault) : operation.outcome = .error fault := by
  simp only [outcome, faulty]

/-- An operation with nothing else in its way comes to the result, or else overflows. -/
theorem outcome_eq_checked {operation : Operation} (divides : operation.zeroDivisor? = none)
    (least : operation ≠ leastRemainder) :
    operation.outcome = Evaluation.checked operation.checked operation.result := by
  by_cases fits : Fits operation.result
  · rw [outcome_exact ⟨divides, least, fits⟩, checked_fits _ fits]
  · have inexact : ¬operation.Exact := fun exact => fits exact.2.2
    rw [checked_overflows _ fits]
    apply outcome_fault
    simp only [fault?, if_neg inexact, fault, divides, Option.getD_none]

end Operation

/-! ## Operations on values -/

theorem unary_neg (operand : Int64) :
    unary .neg (.int operand) = (Operation.negate operand.toInt).outcome := by
  rw [Operation.outcome_eq_checked rfl (by simp [Operation.leastRemainder])]
  rfl

theorem toInt_ne_zero {value : Int64} (nonzero : value ≠ 0) : value.toInt ≠ 0 :=
  fun zero => nonzero (Int64.toInt_inj.mp zero)

theorem divide_eq (left right : Int64) :
    divide left right = (Operation.binary .div left.toInt right.toInt).outcome := by
  unfold divide
  split
  next zero =>
    subst zero
    rfl
  next nonzero =>
    have divides : (Operation.binary .div left.toInt right.toInt).zeroDivisor? = none :=
      if_neg (toInt_ne_zero nonzero)
    rw [Operation.outcome_eq_checked divides (by simp [Operation.leastRemainder])]
    rfl

theorem remainder_eq (left right : Int64) :
    remainder left right = (Operation.binary .rem left.toInt right.toInt).outcome := by
  unfold remainder
  split
  next zero =>
    subst zero
    rfl
  next nonzero =>
    have divides : (Operation.binary .rem left.toInt right.toInt).zeroDivisor? = none :=
      if_neg (toInt_ne_zero nonzero)
    split
    next least =>
      obtain ⟨rfl, least⟩ := least
      rw [least]
      rfl
    next other =>
      rw [Operation.outcome_eq_checked divides]
      · rfl
      · intro least
        injection least with _ left_eq right_eq
        exact other ⟨Int64.toInt_inj.mp right_eq, left_eq⟩

theorem binary_integers (op : IntegerOp) (left right : Int64) :
    binary op.operator (.int left) (.int right) =
      (Operation.binary op left.toInt right.toInt).outcome := by
  cases op with
  | div => exact divide_eq left right
  | rem => exact remainder_eq left right
  | add | sub | mul =>
    rw [Operation.outcome_eq_checked rfl (by simp [Operation.leastRemainder])]
    rfl

/-! ## Code -/

/-- Code that computes with whole numbers only: literals, slots that hold one, and operators. -/
inductive Arithmetic (frame : Frame) where
  | literal (value : Int64)
  | slot (index : UInt32) (value : Int64) (held : frame.slots[index.toNat]? = some (.int value))
  | negate (operand : Arithmetic frame)
  | binary (op : IntegerOp) (left right : Arithmetic frame)

namespace Arithmetic

variable {frame : Frame}

def code : Arithmetic frame → Expr
  | literal value => .int value
  | slot index _ _ => .slot index
  | negate operand => .unary .neg operand.code
  | binary op left right => .binary op.operator left.code right.code

def exact : Arithmetic frame → Int
  | literal value => value.toInt
  | slot _ value _ => value.toInt
  | negate operand => (Operation.negate operand.exact).result
  | binary op left right => (Operation.binary op left.exact right.exact).result

/-- The operations on exact operands, in the order in which they run. -/
def operations : Arithmetic frame → List Operation
  | literal _ => []
  | slot _ _ _ => []
  | negate operand => operand.operations ++ [.negate operand.exact]
  | binary op left right =>
    left.operations ++ right.operations ++ [.binary op left.exact right.exact]

def fault? (tree : Arithmetic frame) : Option ExecutionFault :=
  tree.operations.findSome? Operation.fault?

theorem fault?_negate (operand : Arithmetic frame) :
    (negate operand).fault? = operand.fault?.or (Operation.negate operand.exact).fault? := by
  simp only [fault?, operations, List.findSome?_append, List.findSome?_singleton]

theorem fault?_binary (op : IntegerOp) (left right : Arithmetic frame) :
    (binary op left right).fault? =
      (left.fault?.or right.fault?).or (Operation.binary op left.exact right.exact).fault? := by
  simp only [fault?, operations, List.findSome?_append, List.findSome?_singleton]

theorem fits_exact {tree : Arithmetic frame} (fine : tree.fault? = none) : Fits tree.exact := by
  cases tree with
  | literal value => exact fits_toInt value
  | slot _ value _ => exact fits_toInt value
  | negate operand =>
    rw [fault?_negate, Option.or_eq_none_iff, Operation.fault?_eq_none] at fine
    exact fine.2.2.2
  | binary op left right =>
    rw [fault?_binary, Option.or_eq_none_iff, Operation.fault?_eq_none] at fine
    exact fine.2.2.2

def outcome (tree : Arithmetic frame) : Outcome :=
  match tree.fault? with
  | none => .ok (.int (Int64.ofInt tree.exact))
  | some fault => .error fault

theorem outcome_fine {tree : Arithmetic frame} (fine : tree.fault? = none) :
    tree.outcome = .ok (.int (Int64.ofInt tree.exact)) := by
  simp only [outcome, fine]

theorem outcome_faulty {tree : Arithmetic frame} {fault : ExecutionFault}
    (faulty : tree.fault? = some fault) : tree.outcome = .error fault := by
  simp only [outcome, faulty]

theorem outcome_negate {operand : Arithmetic frame} (fine : operand.fault? = none) :
    (negate operand).outcome = unary .neg (.int (Int64.ofInt operand.exact)) := by
  rw [unary_neg, toInt_ofInt (fits_exact fine)]
  simp only [outcome, fault?_negate, fine, Option.none_or]
  rfl

theorem outcome_binary {op : IntegerOp} {left right : Arithmetic frame}
    (left_fine : left.fault? = none) (right_fine : right.fault? = none) :
    (binary op left right).outcome =
      Evaluation.binary op.operator (.int (Int64.ofInt left.exact))
        (.int (Int64.ofInt right.exact)) := by
  rw [binary_integers, toInt_ofInt (fits_exact left_fine), toInt_ofInt (fits_exact right_fine)]
  simp only [outcome, fault?_binary, left_fine, right_fine, Option.none_or]
  rfl

theorem lift_error_bind (fault : ExecutionFault) (next : Value → Action Value) :
    (lift (.error fault) >>= next) = lift (.error fault) :=
  rfl

theorem lift_ok_bind (value : Value) (next : Value → Action Value) :
    (lift (.ok value) >>= next) = next value :=
  rfl

theorem eval_binary (run : Runner) (op : IntegerOp) (left right : Expr) :
    eval run frame (.binary op.operator left right) = (do
      let a ← eval run frame left
      let b ← eval run frame right
      lift (Evaluation.binary op.operator a b)) := by
  cases op <;> rw [IntegerOp.operator, eval] <;> simp

theorem eval_code (run : Runner) (tree : Arithmetic frame) :
    eval run frame tree.code = lift tree.outcome := by
  induction tree with
  | literal value =>
    rw [code, eval, outcome_fine rfl, exact, Int64.ofInt_toInt]
    rfl
  | slot index value held =>
    rw [code, eval, held, outcome_fine rfl, exact, Int64.ofInt_toInt]
    rfl
  | negate operand ih =>
    rw [code, eval, ih]
    rcases fine : operand.fault? with _ | fault
    · rw [outcome_fine fine, lift_ok_bind, outcome_negate fine]
    · have faulty : (negate operand).fault? = some fault := by rw [fault?_negate, fine]; rfl
      rw [outcome_faulty fine, outcome_faulty faulty, lift_error_bind]
  | binary op left right left_ih right_ih =>
    rw [code, eval_binary, left_ih, right_ih]
    rcases left_fine : left.fault? with _ | fault
    · rw [outcome_fine left_fine, lift_ok_bind]
      rcases right_fine : right.fault? with _ | fault
      · rw [outcome_fine right_fine, lift_ok_bind, outcome_binary left_fine right_fine]
      · have faulty : (binary op left right).fault? = some fault := by
          rw [fault?_binary, left_fine, right_fine]
          rfl
        rw [outcome_faulty right_fine, outcome_faulty faulty, lift_error_bind]
    · have faulty : (binary op left right).fault? = some fault := by
        rw [fault?_binary, left_fine]
        rfl
      rw [outcome_faulty left_fine, outcome_faulty faulty, lift_error_bind]

theorem fault?_eq_none {tree : Arithmetic frame} :
    tree.fault? = none ↔ ∀ operation ∈ tree.operations, operation.Exact := by
  simp only [fault?, List.findSome?_eq_none_iff, Operation.fault?_eq_none]

theorem fault?_eq_some {tree : Arithmetic frame} {fault : ExecutionFault} :
    tree.fault? = some fault ↔
      ∃ before operation after, tree.operations = before ++ operation :: after ∧
        (∀ earlier ∈ before, earlier.Exact) ∧ ¬operation.Exact ∧ fault = operation.fault := by
  simp only [fault?, List.findSome?_eq_some_iff, Operation.fault?_eq_none,
    Operation.fault?_eq_some]
  constructor
  · rintro ⟨before, operation, after, split, first, earlier⟩
    exact ⟨before, operation, after, split, earlier, first⟩
  · rintro ⟨before, operation, after, split, earlier, first⟩
    exact ⟨before, operation, after, split, first, earlier⟩

/-- Code with whole numbers gives a value exactly when every operation, on exact operands, divides
by no zero, is not the remainder of the least number and minus one, and has a result of 64 bits;
the value is then the exact one. Else it fails with the fault of the first operation of which this
is not so. The world stays as it is. -/
theorem eval_exact (run : Runner) (tree : Arithmetic frame) (world : World) :
    (∀ value, eval run frame tree.code world = (.ok value, world) ↔
      (∀ operation ∈ tree.operations, operation.zeroDivisor? = none ∧
        operation ≠ Operation.leastRemainder ∧ Fits operation.result) ∧
      ∃ number : Int64, value = .int number ∧ number.toInt = tree.exact) ∧
    (∀ error, eval run frame tree.code world = (.error error, world) ↔
      ∃ before operation after, tree.operations = before ++ operation :: after ∧
        (∀ earlier ∈ before, earlier.Exact) ∧ ¬operation.Exact ∧
        error = .execution operation.fault) ∧
    (eval run frame tree.code world).2 = world := by
  rw [eval_code]
  rcases fine : tree.fault? with _ | fault
  · have exact_all := fault?_eq_none.mp fine
    have number_eq (number : Int64) :
        number.toInt = tree.exact ↔ Int64.ofInt tree.exact = number := by
      rw [← Int64.toInt_inj, toInt_ofInt (fits_exact fine), eq_comm]
    rw [outcome_fine fine]
    refine ⟨?value, ?error, rfl⟩
    case value =>
      intro value
      constructor
      · intro run
        cases run
        exact ⟨exact_all, _, rfl, (number_eq _).mpr rfl⟩
      · rintro ⟨-, number, rfl, same⟩
        rw [(number_eq number).mp same]
        rfl
    case error =>
      intro error
      constructor
      · intro run
        cases run
      · rintro ⟨before, operation, after, split, -, inexact, -⟩
        exact absurd (exact_all operation (by simp [split])) inexact
  · obtain ⟨before, operation, after, split, earlier, inexact, rfl⟩ := fault?_eq_some.mp fine
    rw [outcome_faulty fine]
    refine ⟨?value, ?error, rfl⟩
    case value =>
      intro value
      constructor
      · intro run
        cases run
      · rintro ⟨exact_all, -⟩
        exact absurd (exact_all operation (by simp [split])) inexact
    case error =>
      intro error
      constructor
      · intro run
        cases run
        exact ⟨before, operation, after, split, earlier, inexact, rfl⟩
      · rintro ⟨before', operation', after', split', earlier', inexact', rfl⟩
        have first := fault?_eq_some.mpr
          ⟨before', operation', after', split', earlier', inexact', rfl⟩
        rw [fine] at first
        rw [Option.some.inj first]
        rfl

end Arithmetic

end UnitForge.Evaluation
