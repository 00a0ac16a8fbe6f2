import UnitForge.Source.Tree

/-! # Nesting

How many levels of expressions lie in one another, and which expressions of a body are counted from
their outermost level. -/
set_option autoImplicit false
namespace UnitForge.Source

mutual

/-- The levels of an expression. A leaf is one, and so is a minus sign directly on a literal; what
stands around other expressions adds one to the deepest of them. -/
def ExprTree.levels : ExprTree → Nat
  | .paren _ _ inner => inner.levels + 1
  | .unary _ _ .neg (.literal ..) => 1
  | .unary _ _ _ operand => operand.levels + 1
  | .binary _ _ _ left right => max left.levels right.levels + 1
  | .cast _ _ operand _ => operand.levels + 1
  | .methodCall _ receiver _ _ args => max receiver.levels (ExprTree.levelsAll args) + 1
  | .call _ _ _ args => ExprTree.levelsAll args + 1
  | .reference _ _ _ operand => operand.levels + 1
  | _ => 1

def ExprTree.levelsAll : List ExprTree → Nat
  | [] => 0
  | first :: rest => max first.levels (ExprTree.levelsAll rest)

end

theorem ExprTree.levels_pos (tree : ExprTree) : 0 < tree.levels := by
  unfold levels
  split <;> simp

theorem ExprTree.levels_minus {pos place : Position} {operand : ExprTree}
    (other : ∀ start place value, operand ≠ .literal start place value) :
    (ExprTree.unary pos place .neg operand).levels = operand.levels + 1 := by
  cases operand with
  | literal start place value => exact absurd rfl (other start place value)
  | _ => rfl

def StmtTree.init? : StmtTree → Option ExprTree
  | .binding _ _ _ init _ => init
  | _ => none

/-- What a final expression gives to the fields of a struct. One that is no literal counts as a
whole. -/
def ExprTree.inits : ExprTree → List ExprTree
  | .structLiteral _ _ _ fields _ => fields.map fun (_, _, value) => value
  | tree => [tree]

end UnitForge.Source
