import UnitForge.Proofs.Binary64.Range
import UnitForge.Proofs.Lowering.Depths
import UnitForge.Proofs.Lowering.Shallow

/-! # Numbers in code

The numbers that stand in code are those that are written in the source, in the same order, if every
literal is in range; and it is, where lowering has nothing to report. The range of an integer is that
of 64 bits. A float literal must be finite, but an integer literal with the suffix of a float need
not be. -/
set_option autoImplicit false
namespace UnitForge

open Source Step

inductive Number where
  | integer (value : Int)
  | float (value : Binary64)
  deriving DecidableEq, Repr

namespace Source

/-- A literal, and whether a minus sign stands directly before it. -/
structure SignedLiteral where
  negated : Bool
  literal : Literal
  deriving DecidableEq

namespace SignedLiteral

def number? : SignedLiteral → Option Number
  | ⟨negated, .int value suffix⟩ =>
    if suffix = "f32" || suffix = "f64" then
      some (.float (if negated then (Binary64.ofDecimal value 0).neg else .ofDecimal value 0))
    else some (.integer (if negated then -value else value))
  | ⟨negated, .float digits _⟩ =>
    some (.float (if negated then (Lower.floatOfDigits digits).neg else Lower.floatOfDigits digits))
  | _ => none

def inRange : SignedLiteral → Bool
  | ⟨negated, .int value suffix⟩ =>
    suffix = "f32" || suffix = "f64" || Lower.fitsInt64 (if negated then -value else value)
  | ⟨_, .float digits _⟩ => (Lower.floatOfDigits digits).isFinite
  | _ => true

end SignedLiteral

mutual

/-- The literals of an expression, in order. Those of a struct literal are the ones of its fields,
each of which is an expression of its own. -/
def ExprTree.literals : ExprTree → List SignedLiteral
  | .literal _ _ value => [⟨false, value⟩]
  | .unary _ _ .neg (.literal _ _ value) => [⟨true, value⟩]
  | .paren _ _ inner => inner.literals
  | .unary _ _ _ operand => operand.literals
  | .binary _ _ _ left right => left.literals ++ right.literals
  | .cast _ _ operand _ => operand.literals
  | .methodCall _ receiver _ _ args => receiver.literals ++ ExprTree.literalsAll args
  | .call _ _ function args => function.literals ++ ExprTree.literalsAll args
  | .reference _ _ _ operand => operand.literals
  | _ => []

def ExprTree.literalsAll : List ExprTree → List SignedLiteral
  | [] => []
  | first :: rest => first.literals ++ ExprTree.literalsAll rest

end

def ExprTree.numbers (tree : ExprTree) : List Number :=
  tree.literals.filterMap SignedLiteral.number?

def ExprTree.InRange (tree : ExprTree) : Prop :=
  ∀ literal ∈ tree.literals, literal.inRange = true

theorem ExprTree.literals_minus {pos place : Position} {operand : ExprTree}
    (other : ∀ start place value, operand ≠ .literal start place value) :
    (ExprTree.unary pos place .neg operand).literals = operand.literals := by
  cases operand with
  | literal start place value => exact absurd rfl (other start place value)
  | _ => rfl

end Source

mutual

def Expr.numbers : Expr → List Number
  | .int value => [.integer value.toInt]
  | .float value => [.float value]
  | .unary _ operand => operand.numbers
  | .binary _ left right => left.numbers ++ right.numbers
  | .cast operand _ => operand.numbers
  | .toText operand => operand.numbers
  | .length operand => operand.numbers
  | .construct _ _ args => Expr.numbersAll args
  | _ => []

def Expr.numbersAll : List Expr → List Number
  | [] => []
  | first :: rest => first.numbers ++ Expr.numbersAll rest

end

/-! ## Literals -/

theorem toInt_ofInt_of_fits {value : Int} (fits : Lower.fitsInt64 value = true) :
    (Int64.ofInt value).toInt = value := by
  simp only [Lower.fitsInt64, Bool.and_eq_true, decide_eq_true_eq] at fits
  exact Int64.toInt_ofInt_of_le fits.1 fits.2

theorem numbers_constant {negated : Bool} {value : Literal}
    (inRange : SignedLiteral.inRange ⟨negated, value⟩ = true) :
    (Expr.constant (literalValue negated value)).numbers =
      (SignedLiteral.number? ⟨negated, value⟩).toList := by
  cases value with
  | int value suffix =>
      simp only [SignedLiteral.inRange] at inRange
      simp only [literalValue, SignedLiteral.number?]
      generalize (decide (suffix = "f32") || decide (suffix = "f64")) = isFloat at *
      cases isFloat with
      | true => rfl
      | false =>
          generalize (if negated = true then -(value : Int) else value) = signed at *
          have exact_ := toInt_ofInt_of_fits inRange
          simp [Expr.constant, Expr.numbers, exact_]
  | float digits suffix => rfl
  | bool value => rfl
  | str value => rfl
  | other => rfl

/-! ## Elaborated code -/

theorem numbersAll_eq {args : List Elaborated}
    (each : ∀ arg ∈ args, arg.tree.InRange → arg.code.numbers = arg.tree.numbers)
    (inRange : ∀ literal ∈ ExprTree.literalsAll (args.map Elaborated.tree),
      literal.inRange = true) :
    Expr.numbersAll (args.map Elaborated.code) =
      (ExprTree.literalsAll (args.map Elaborated.tree)).filterMap SignedLiteral.number? := by
  induction args with
  | nil => rfl
  | cons first rest ih =>
      rw [List.map_cons, ExprTree.literalsAll, List.forall_mem_append] at inRange
      have here := each first List.mem_cons_self inRange.1
      have others := ih (fun arg member => each arg (List.mem_cons_of_mem _ member)) inRange.2
      rw [List.map_cons, List.map_cons, Expr.numbersAll, ExprTree.literalsAll,
        List.filterMap_append, here, others]
      rfl

variable {refs : References} {locals last : Locals}

/-- The code of an expression has the numbers that are written in it. -/
theorem Elab.numbers_eq {tree : ExprTree} {code : Expr} {type : TypeRef}
    (elab_ : Elab refs locals tree code type) (inRange : tree.InRange) :
    code.numbers = tree.numbers := by
  unfold ExprTree.InRange at inRange
  unfold ExprTree.numbers
  induction elab_ with
  | literal | minusLiteral =>
      simp only [ExprTree.literals, List.forall_mem_singleton] at inRange
      rw [numbers_constant inRange]
      rfl
  | paren _ ih => exact ih inRange
  | name => rfl
  | minus other _ _ ih =>
      rw [ExprTree.literals_minus other] at inRange ⊢
      exact ih inRange
  | not _ _ ih => exact ih inRange
  | logical _ _ _ _ left right | comparison _ _ _ _ _ left right | concat _ _ _ left right
  | arithmetic _ _ _ _ _ left right =>
      simp only [ExprTree.literals, List.forall_mem_append] at inRange
      simp only [Expr.numbers, ExprTree.literals, List.filterMap_append, left inRange.1,
        right inRange.2]
  | cast _ _ _ ih => exact ih inRange
  | toText _ _ _ ih | identity _ _ ih | length _ _ ih =>
      simp only [ExprTree.literals, ExprTree.literalsAll, List.append_nil] at inRange ⊢
      exact ih inRange
  | emptyText => rfl
  | textFrom _ _ _ ih =>
      simp only [ExprTree.literals, ExprTree.literalsAll, List.append_nil, List.nil_append]
        at inRange ⊢
      exact ih inRange
  | construct _ _ _ _ _ _ _ _ ih =>
      simp only [ExprTree.literals, List.nil_append] at inRange ⊢
      exact numbersAll_eq ih inRange
  | reference _ ih => exact ih inRange

theorem ElabBody.numbers_eq {trees : List StmtTree} {body : List Stmt}
    (elab_ : ElabBody refs locals trees body last)
    (inRange : ∀ value ∈ trees.filterMap StmtTree.init?, value.InRange) :
    List.Forall₂ (fun value step => step.value.numbers = value.numbers)
      (trees.filterMap StmtTree.init?) body := by
  induction elab_ with
  | nil => exact .nil
  | @cons _ _ _ _ _ _ value _ _ _ _ first _ ih =>
      rw [List.filterMap_cons_some (rfl : StmtTree.init? _ = some value)] at inRange ⊢
      exact .cons (first.numbers_eq (inRange value List.mem_cons_self))
        (ih fun other member => inRange other (List.mem_cons_of_mem _ member))

def Source.ExprTree.fieldValue? (tree : ExprTree) (name : String) : Option ExprTree :=
  match tree with
  | .structLiteral _ _ _ values _ => literalField? values name
  | _ => none

theorem fieldValue?_mem {tree value : ExprTree} {name : String}
    (given : tree.fieldValue? name = some value) : value ∈ tree.inits := by
  unfold ExprTree.fieldValue? at given
  split at given
  · obtain ⟨entry, searched, rfl⟩ := Option.map_eq_some_iff.mp given
    exact List.mem_map_of_mem (List.mem_of_find?_eq_some searched)
  · cases given

theorem ElabFinal.numbers_eq {fields : List FieldSig} {tree : ExprTree} {init : List Expr}
    (elab_ : ElabFinal refs locals fields tree init)
    (inRange : ∀ value ∈ tree.inits, value.InRange) :
    List.Forall₂ (fun field code => ∃ value, tree.fieldValue? field.name = some value ∧
      code.numbers = value.numbers) fields init := by
  cases elab_ with
  | bare none =>
      subst none
      exact .nil
  | literal given =>
      apply given.imp
      intro field code related
      obtain ⟨value, type, found, -, elab_⟩ := related
      exact ⟨value, found, elab_.numbers_eq (inRange value (fieldValue?_mem found))⟩

theorem ElabFinal.numbers_nil {fields : List FieldSig} {tree : ExprTree} {init : List Expr}
    (elab_ : ElabFinal refs locals fields tree init) : tree.numbers = [] := by
  cases elab_ <;> rfl

end UnitForge
