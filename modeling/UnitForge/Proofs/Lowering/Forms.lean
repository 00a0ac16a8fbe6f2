import UnitForge.Dialect.Lowering

/-! # Forms of expressions, statements and constructors

An expression is refused for its form alone, without a look at its parts, or it has code that is put
together from the code of its parts. What holds below the deepest level and of refused expressions,
and is passed on from the parts in every other form, holds of the lowering of every expression.
Statements are refused for their form as well, or they bind a name. What ends the lowering of a
constructor does not depend on what its body is. -/
set_option autoImplicit false
namespace UnitForge

open Source

namespace Lower

/-- The forms that are refused, each with the place and the problem that are reported. -/
inductive Refused : ExprTree → Position → Problem → Prop
  | dereference (pos place : Position) (operand : ExprTree) :
    Refused (.unary pos place .deref operand) pos .dereference
  | operator {op : BinaryOperator} (unknown : operator? op = none) (pos place : Position)
    (left right : ExprTree) : Refused (.binary pos place op left right) place .unsupportedOperator
  | generics (pos : Position) (receiver : ExprTree) (ident : Ident) (args : List ExprTree) :
    Refused (.methodCall pos receiver ident true args) pos .genericArguments
  | qualified (pos opening functionPos : Position) (names : NamePath) (args : List ExprTree) :
    Refused (.call pos opening (.path functionPos true names) args) functionPos .qualifiedCall
  | callee {function : ExprTree}
    (noPath : ∀ pos qualified names, function ≠ .path pos qualified names) (pos opening : Position)
    (args : List ExprTree) : Refused (.call pos opening function args) function.pos .unsupportedCall
  | exclusive (pos place : Position) (operand : ExprTree) :
    Refused (.reference pos place true operand) pos .unsupportedExpr
  | nested (pos : Position) (qualified : Bool) (names : NamePath)
    (fields : List (String × Position × ExprTree)) (base : Option ExprTree) :
    Refused (.structLiteral pos qualified names fields base) pos .nestedStructLiteral
  | other (pos : Position) (form : OtherForm) : Refused (.other pos form) pos .unsupportedExpr

variable {σ : Type} {context : LoweringContext σ} {depth : Nat} {tree : ExprTree} {pos : Position}
  {problem : Problem}

theorem Refused.severity (refused : Refused tree pos problem) : problem.severity = .error := by
  cases refused <;> rfl

theorem expr_limit (tree : ExprTree) : expr context maxExprDepth tree = atLimit context tree := by
  unfold expr
  exact if_pos rfl

section Above
variable (above : depth ≠ maxExprDepth)
include above

theorem expr_refused (refused : Refused tree pos problem) :
    expr context depth tree = fail context pos problem := by
  cases refused with
  | operator unknown => rw [expr, if_neg above, unknown]
  | generics => rw [expr, if_neg above, if_pos rfl]
  | callee noPath =>
      rw [expr, if_neg above]
      · exact fun pos names => noPath pos false names
      · exact fun pos names => noPath pos true names
  | exclusive | other =>
      rw [expr, if_neg above]
      · rfl
      all_goals simp
  | _ => rw [expr, if_neg above]

theorem expr_minus {operand : ExprTree}
    (other : ∀ pos place value, operand ≠ .literal pos place value) (pos place : Position) :
    expr context depth (.unary pos place .neg operand) =
      (do unary context pos .neg (← expr context (depth + 1) operand)) := by
  rw [expr, if_neg above]
  exact other

end Above

section Induction
variable {P : Nat → ExprTree → Lower σ TypedCode → Prop}
  {Q : Nat → List ExprTree → Lower σ (List (Position × TypedCode)) → Prop}

/-- Induction over the forms of expressions: what is shown of a form is shown of its lowering. -/
theorem expr_exprs_induct
    (limit : ∀ tree, P maxExprDepth tree (atLimit context tree))
    (refused : ∀ depth, depth ≠ maxExprDepth → ∀ tree pos problem, Refused tree pos problem →
      P depth tree (fail context pos problem))
    (literal : ∀ depth, depth ≠ maxExprDepth → ∀ pos place value,
      P depth (.literal pos place value) (Lower.literal context false place value))
    (minusLiteral : ∀ depth, depth ≠ maxExprDepth → ∀ pos place start literalPlace value,
      P depth (.unary pos place .neg (.literal start literalPlace value))
        (Lower.literal context true literalPlace value))
    (paren : ∀ depth, depth ≠ maxExprDepth → ∀ pos opening inner,
      P (depth + 1) inner (expr context (depth + 1) inner) →
      P depth (.paren pos opening inner) (expr context (depth + 1) inner))
    (path : ∀ depth, depth ≠ maxExprDepth → ∀ pos qualified names,
      P depth (.path pos qualified names) (namedValue context pos qualified names))
    (minus : ∀ depth, depth ≠ maxExprDepth → ∀ pos place operand,
      (∀ pos place value, operand ≠ .literal pos place value) →
      P (depth + 1) operand (expr context (depth + 1) operand) →
      P depth (.unary pos place .neg operand) (do
        unary context pos .neg (← expr context (depth + 1) operand)))
    (not : ∀ depth, depth ≠ maxExprDepth → ∀ pos place operand,
      P (depth + 1) operand (expr context (depth + 1) operand) →
      P depth (.unary pos place .not operand) (do
        unary context pos .not (← expr context (depth + 1) operand)))
    (binary : ∀ depth, depth ≠ maxExprDepth → ∀ pos place op left right found symbol,
      operator? op = some (found, symbol) →
      P (depth + 1) left (expr context (depth + 1) left) →
      P (depth + 1) right (expr context (depth + 1) right) →
      P depth (.binary pos place op left right) (do
        let leftCode ← expr context (depth + 1) left
        let rightCode ← expr context (depth + 1) right
        Lower.binary context found symbol place left.pos right.pos leftCode rightCode))
    (cast : ∀ depth, depth ≠ maxExprDepth → ∀ pos place operand type,
      P (depth + 1) operand (expr context (depth + 1) operand) →
      P depth (.cast pos place operand type) (do
        Lower.cast context pos (← expr context (depth + 1) operand) type))
    (method : ∀ depth, depth ≠ maxExprDepth → ∀ pos receiver ident,
      P (depth + 1) receiver (expr context (depth + 1) receiver) →
      P depth (.methodCall pos receiver ident false []) (do
        Lower.method context (← expr context (depth + 1) receiver) ident))
    (methodArguments : ∀ depth, depth ≠ maxExprDepth → ∀ pos receiver ident first rest,
      P (depth + 1) receiver (expr context (depth + 1) receiver) →
      P depth (.methodCall pos receiver ident false (first :: rest)) (do
        let _ ← expr context (depth + 1) receiver
        fail context first.pos (.methodArguments (first :: rest).length)))
    (call : ∀ depth, depth ≠ maxExprDepth → ∀ pos opening functionPos names args,
      Q (depth + 1) args (exprs context (depth + 1) args) →
      P depth (.call pos opening (.path functionPos false names) args) (do
        match ← check (context.decls.plainNames names) with
        | none =>
          giveUp
          return .unknown
        | some names =>
          Lower.call context pos functionPos names (← exprs context (depth + 1) args)))
    (reference : ∀ depth, depth ≠ maxExprDepth → ∀ pos place operand,
      P (depth + 1) operand (expr context (depth + 1) operand) →
      P depth (.reference pos place false operand) (do
        let code ← expr context (depth + 1) operand
        if code.type.all (· = .str) then return code
        else fail context pos .unsupportedReference))
    (nil : ∀ depth, Q depth [] (pure []))
    (cons : ∀ depth first rest, P depth first (expr context depth first) →
      Q depth rest (exprs context depth rest) →
      Q depth (first :: rest) (do
        let code ← expr context depth first
        return (first.pos, code) :: (← exprs context depth rest))) :
    (∀ depth tree, P depth tree (expr context depth tree)) ∧
      ∀ depth trees, Q depth trees (exprs context depth trees) := by
  have refuse {depth : Nat} (above : depth ≠ maxExprDepth) {tree : ExprTree} {pos : Position}
      {problem : Problem} (form : Refused tree pos problem) :
      P depth tree (expr context depth tree) := by
    rw [expr_refused above form]
    exact refused depth above _ _ _ form
  apply expr.mutual_induct
  case case1 =>
    intro tree
    rw [expr_limit]
    exact limit tree
  case case2 =>
    intro depth above pos place value
    rw [expr, if_neg above]
    exact literal depth above pos place value
  case case3 =>
    intro depth above pos opening inner ih
    rw [expr, if_neg above]
    exact paren depth above pos opening inner ih
  case case4 =>
    intro depth above pos qualified names
    rw [expr, if_neg above]
    exact path depth above pos qualified names
  case case5 =>
    intro depth above pos place start literalPlace value
    rw [expr, if_neg above]
    exact minusLiteral depth above pos place start literalPlace value
  case case6 =>
    intro depth above pos place operand other ih
    rw [expr_minus above other]
    exact minus depth above pos place operand other ih
  case case7 =>
    intro depth above pos place operand ih
    rw [expr, if_neg above]
    exact not depth above pos place operand ih
  case case8 =>
    intro depth above pos place operand
    exact refuse above (.dereference pos place operand)
  case case9 =>
    intro depth above pos place op left right unknown
    exact refuse above (.operator unknown pos place left right)
  case case10 =>
    intro depth above pos place op left right found symbol known left_ih right_ih
    rw [expr, if_neg above, known]
    exact binary depth above pos place op left right found symbol known left_ih right_ih
  case case11 =>
    intro depth above pos place operand type ih
    rw [expr, if_neg above]
    exact cast depth above pos place operand type ih
  case case12 =>
    intro depth above pos receiver ident args
    exact refuse above (.generics pos receiver ident args)
  case case13 =>
    intro depth above pos receiver ident generic args plain ih
    obtain rfl : generic = false := Bool.eq_false_iff.mpr plain
    rw [expr, if_neg above, if_neg plain]
    cases args with
    | nil => exact method depth above pos receiver ident ih
    | cons first rest => exact methodArguments depth above pos receiver ident first rest ih
  case case14 =>
    intro depth above pos opening functionPos names args ih
    rw [expr, if_neg above]
    exact call depth above pos opening functionPos names args ih
  case case15 =>
    intro depth above pos opening functionPos names args
    exact refuse above (.qualified pos opening functionPos names args)
  case case16 =>
    intro depth above pos opening function args plain qualified
    refine refuse above (.callee ?_ pos opening args)
    intro pos isQualified names
    cases isQualified with
    | true => exact qualified pos names
    | false => exact plain pos names
  case case17 =>
    intro depth above pos place operand ih
    rw [expr, if_neg above]
    exact reference depth above pos place operand ih
  case case18 =>
    intro depth above pos qualified names fields base
    exact refuse above (.nested pos qualified names fields base)
  case case19 =>
    -- What is left are the forms that no unit can use.
    intro depth above tree literal paren path _ neg not deref binary cast method _ _ call
      reference structLiteral
    cases tree with
    | literal => exact (literal _ _ _ rfl).elim
    | paren => exact (paren _ _ _ rfl).elim
    | path => exact (path _ _ _ rfl).elim
    | unary pos place op operand =>
        cases op with
        | neg => exact (neg _ _ _ rfl).elim
        | not => exact (not _ _ _ rfl).elim
        | deref => exact (deref _ _ _ rfl).elim
    | binary => exact (binary _ _ _ _ _ rfl).elim
    | cast => exact (cast _ _ _ _ rfl).elim
    | methodCall => exact (method _ _ _ _ _ rfl).elim
    | call => exact (call _ _ _ _ rfl).elim
    | structLiteral => exact (structLiteral _ _ _ _ _ rfl).elim
    | reference pos place isMutable operand =>
        cases isMutable with
        | true => exact refuse above (.exclusive pos place operand)
        | false => exact (reference _ _ _ rfl).elim
    | other pos form => exact refuse above (.other pos form)
  case case20 =>
    intro depth
    rw [exprs]
    exact nil depth
  case case21 =>
    intro depth first rest ih ihRest
    rw [exprs]
    exact cons depth first rest ih ihRest

end Induction

/-! ## Statements -/

/-- The statements that bind no name, each with the place and the problem that are reported. -/
inductive RefusedStatement : StmtTree → Position → Problem → Prop
  | item (pos : Position) : RefusedStatement (.item pos) pos .nestedItem
  | macroCall (pos : Position) : RefusedStatement (.macroCall pos) pos .macroCall
  | expr (value : ExprTree) (semicolon : Bool) :
    RefusedStatement (.expr value semicolon) value.pos .onlyBindings
  | empty : RefusedStatement .empty ⟨1, 1⟩ .onlyBindings
  | withoutValue (pos start : Position) (ident : Ident) (type : Option TypeTree)
    (otherwise : Option Position) :
    RefusedStatement (.binding pos (.ident start true ident) type none otherwise) pos
      .bindingWithoutValue
  | otherwise (pos start : Position) (ident : Ident) (type : Option TypeTree) (value : ExprTree)
    (elsePos : Position) :
    RefusedStatement (.binding pos (.ident start true ident) type (some value) (some elsePos))
      elsePos .bindingElse
  | pattern {pattern : Pattern} (noName : ∀ start ident, pattern ≠ .ident start true ident)
    (pos : Position) (type : Option TypeTree) (init : Option ExprTree)
    (otherwise : Option Position) :
    RefusedStatement (.binding pos pattern type init otherwise) pattern.pos .bindingPattern

theorem RefusedStatement.severity {tree : StmtTree} (refused : RefusedStatement tree pos problem) :
    problem.severity = .error := by
  cases refused <;> rfl

theorem statement_refused {tree : StmtTree} (refused : RefusedStatement tree pos problem) :
    statement context tree = (do complain context pos problem; return none) := by
  cases refused with
  | @pattern pattern noName =>
      rcases pattern with ⟨start, _ | _, ident⟩ | ⟨start, dots⟩ | ⟨start⟩
      · rfl
      · exact absurd rfl (noName start ident)
      · rfl
      · rfl
  | _ => rfl

/-- What is shown of refused statements and of bindings is shown of every statement. -/
theorem statement_forms {P : StmtTree → Lower σ (Option Stmt) → Prop}
    (refused : ∀ tree pos problem, RefusedStatement tree pos problem →
      P tree (do complain context pos problem; return none))
    (binding : ∀ pos start ident type value,
      P (.binding pos (.ident start true ident) type (some value) none)
        (statement.bindTo context ident type value))
    (tree : StmtTree) : P tree (statement context tree) := by
  have refuse {tree : StmtTree} {pos : Position} {problem : Problem}
      (form : RefusedStatement tree pos problem) : P tree (statement context tree) := by
    rw [statement_refused form]
    exact refused _ _ _ form
  cases tree with
  | item pos => exact refuse (.item pos)
  | macroCall pos => exact refuse (.macroCall pos)
  | expr value semicolon => exact refuse (.expr value semicolon)
  | empty => exact refuse .empty
  | binding pos pattern type init otherwise =>
      rcases pattern with ⟨start, _ | _, ident⟩ | ⟨start, dots⟩ | ⟨start⟩
      · exact refuse (.pattern (by simp) _ _ _ _)
      · rcases init with _ | value
        · exact refuse (.withoutValue _ _ _ _ _)
        · rcases otherwise with _ | elsePos
          · exact binding _ _ _ _ _
          · exact refuse (.otherwise _ _ _ _ _ _)
      · exact refuse (.pattern (by simp) _ _ _ _)
      · exact refuse (.pattern (by simp) _ _ _ _)

/-! ## Constructors -/

def codeOf (sig : ConstructorSig) (scope : Scope) (body : List Stmt) (init : List Expr) :
    Option ConstructorDecl :=
  (paramDecls sig.params).map fun params =>
    { name := sig.name, params, locals := scope.length.toUInt32, body, init }

def conclude (context : LoweringContext σ) (sig : ConstructorSig) (body : List Stmt)
    (init : List Expr) : Lower σ (Option ConstructorDecl) := do
  let scope := (← get).scope
  scope.unused.forM fun binding =>
    check (context.decls.complain binding.pos (.unusedVariable binding.name))
  if (← get).complete then return codeOf sig scope body init
  else return none

theorem constructor_eq (context : LoweringContext σ) (sig : ConstructorSig)
    (function : FunctionTree) : constructor context sig function = (do
      sig.params.forM fun param => do
        let _ ← bind param.name param.type param.pos
      let body ← (splitBody function.body).1.filterMapM (statement context)
      match (splitBody function.body).2 with
      | some tree => do conclude context sig body (← final context tree)
      | none => do
        complain context function.closing (.mismatch context.owner.name "()")
        conclude context sig body []) := by
  unfold constructor
  rcases splitBody function.body with ⟨statements, last⟩
  cases last with
  | none => rfl
  | some tree => rfl

end Lower

end UnitForge
