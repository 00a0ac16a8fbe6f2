import UnitForge.Proofs.Lowering.Units
import UnitForge.Proofs.Lowering.Faithful

/-! # Lowering from a depth on

The lowering of a constructor whose expressions are lowered as if they lay a number of levels deep.
From the top it is the lowering of the constructor; from below the deepest level there is no limit,
since an expression is only reported on the deepest level itself. -/
set_option autoImplicit false
namespace UnitForge

open Source Step

variable {σ : Type}

namespace Lower

variable (context : LoweringContext σ) (depth : Nat)

/-! ## Bodies -/

def bindDeclared (ident : Ident) (pos : Position) (found : TypedCode) (declared : Option TypeRef) :
    Lower σ (Option Stmt) := do
  match declared with
  | none => giveUp
  | some _ => expect context pos declared found.type
  statement.finish ident found.code declared

def bindFound (ident : Ident) (type : Option TypeTree) (pos : Position) (found : TypedCode) :
    Lower σ (Option Stmt) :=
  match type with
  | none => statement.finish ident found.code found.type
  | some tree => do
    let declared ← check (context.decls.resolveType context.manager context.owner.name tree)
    bindDeclared context ident pos found declared

def bindToFrom (ident : Ident) (type : Option TypeTree) (value : ExprTree) :
    Lower σ (Option Stmt) := do
  bindFound context ident type value.pos (← expr context depth value)

def statementFrom (tree : StmtTree) : Lower σ (Option Stmt) :=
  match tree with
  | .binding _ (.ident _ true ident) type (some value) none =>
    bindToFrom context depth ident type value
  | tree => statement context tree

def literalFieldsFrom (owner : UnitSig) :
    List (Nat × Expr) → List (String × Position × ExprTree) → Lower σ (List (Nat × Expr))
  | done, [] => return done
  | done, (name, pos, value) :: rest => do
    match owner.fields.findIdx? (·.name = name) with
    | none =>
      complain context pos (.unknownField owner.name name)
      literalFieldsFrom owner done rest
    | some index =>
      if (done.lookup index).isSome then
        complain context pos (.repeatedField name)
        literalFieldsFrom owner done rest
      else
        let found ← expr context depth value
        expect context value.pos ((owner.fields[index]?).bind (·.type)) found.type
        literalFieldsFrom owner (done ++ [(index, found.code)]) rest

def structLiteralFrom (pos : Position) (fields : List (String × Position × ExprTree)) :
    Lower σ (List Expr) := do
  let done ← literalFieldsFrom context depth context.owner [] fields
  expectFields context pos context.owner done
  return initOf context.owner done

def refuseFound (tree : ExprTree) (found : TypedCode) : Lower σ (List Expr) := do
  let expected := TypeRef.unit context.owner.fullName
  match found.type with
  | some type =>
    if type = expected then complain context tree.pos .finalLiteral
    else mismatch context tree.pos expected type
  | none => pure ()
  return []

def otherFrom (tree : ExprTree) : Lower σ (List Expr) := do
  refuseFound context tree (← expr context depth tree)

def finalFrom (tree : ExprTree) : Lower σ (List Expr) := do
  match tree with
  | .path _ qualified names =>
    let scope := (← get).scope
    match (namesOwner context.owner.name qualified names).filter fun ident =>
        ident.is "Self" || (scope.slot? ident.name).isNone with
    | some ident =>
      expectFields context ident.pos context.owner []
      return []
    | none => otherFrom context depth tree
  | .structLiteral _ qualified names fields base =>
    if (namesOwner context.owner.name qualified names).isNone then
      complain context names.pos (.otherLiteral context.owner.name)
      return []
    match base with
    | some base =>
      complain context base.pos .updateSyntax
      structLiteralFrom context depth names.pos fields
    | none => structLiteralFrom context depth names.pos fields
  | _ => otherFrom context depth tree

/-- The code of a body behind its statements. -/
def endFrom (function : FunctionTree) (statements : List Stmt) :
    Lower σ (List Stmt × List Expr) := do
  match (splitBody function.body).2 with
  | some tree => return (statements, ← finalFrom context depth tree)
  | none =>
    complain context function.closing (.mismatch context.owner.name "()")
    return (statements, [])

def bodyFrom (sig : ConstructorSig) (function : FunctionTree) :
    Lower σ (List Stmt × List Expr) := do
  sig.params.forM fun param => do
    let _ ← bind param.name param.type param.pos
  let statements ← (splitBody function.body).1.filterMapM (statementFrom context depth)
  endFrom context depth function statements

def constructorFrom (sig : ConstructorSig) (function : FunctionTree) :
    Lower σ (Option ConstructorDecl) := do
  let code ← bodyFrom context depth sig function
  conclude context sig code.1 code.2

/-! ## From the top -/

theorem statementFrom_zero (tree : StmtTree) :
    statementFrom context 0 tree = statement context tree := by
  unfold statementFrom
  split
  · rfl
  · rfl

theorem literalFieldsFrom_zero (owner : UnitSig) (fields : List (String × Position × ExprTree))
    (done : List (Nat × Expr)) :
    literalFieldsFrom context 0 owner done fields = literalFields context owner done fields := by
  induction fields generalizing done with
  | nil => rfl
  | cons first rest ih =>
      obtain ⟨name, pos, value⟩ := first
      unfold literalFieldsFrom literalFields
      cases owner.fields.findIdx? (·.name = name) with
      | none => simp only [ih]
      | some index => simp only [ih]

theorem finalFrom_zero (tree : ExprTree) : finalFrom context 0 tree = final context tree := by
  cases tree with
  | structLiteral pos qualified names fields base =>
      unfold finalFrom structLiteralFrom final
      cases base with
      | none => simp only [literalFieldsFrom_zero]
      | some base => simp only [literalFieldsFrom_zero]
  | _ => rfl

theorem constructorFrom_zero (sig : ConstructorSig) (function : FunctionTree) :
    constructorFrom context 0 sig function = constructor context sig function := by
  rw [constructor_eq, constructorFrom, bodyFrom, funext (statementFrom_zero context)]
  unfold endFrom
  cases (splitBody function.body).2 with
  | none => rfl
  | some tree =>
      simp only [finalFrom_zero]
      rfl

/-! ## Growth -/

variable {context} {depth}

theorem finish_grows (ident : Ident) (code : Expr) (type : Option TypeRef) :
    Grows context (statement.finish (σ := σ) ident code type) :=
  .bind (bind_grows _ _ _) fun _ => .pure _

theorem bindDeclared_onward (ident : Ident) (pos : Position) (found : TypedCode)
    (declared : Option TypeRef) : Onward context (bindDeclared context ident pos found declared) := by
  cases declared with
  | none => exact .bind giveUp_onward fun _ => (finish_grows _ _ _).onward
  | some type => exact .bind (expect_keeps _ _ _).onward fun _ => (finish_grows _ _ _).onward

theorem bindFound_onward (ident : Ident) (type : Option TypeTree) (pos : Position)
    (found : TypedCode) : Onward context (bindFound context ident type pos found) := by
  cases type with
  | none => exact (finish_grows _ _ _).onward
  | some tree =>
      exact .bind (check_keeps (Declarations.resolveType_extends _ _)).onward
        fun declared => bindDeclared_onward _ _ _ _

theorem bindToFrom_onward (ident : Ident) (type : Option TypeTree) (value : ExprTree) :
    Onward context (bindToFrom context depth ident type value) :=
  .bind (expr_keeps depth value).onward fun _ => bindFound_onward _ _ _ _

theorem statementFrom_onward (tree : StmtTree) :
    Onward context (statementFrom context depth tree) := by
  unfold statementFrom
  split
  · exact bindToFrom_onward _ _ _
  · exact (statement_grows _).onward

theorem literalFieldsFrom_keeps (owner : UnitSig) (fields : List (String × Position × ExprTree))
    (done : List (Nat × Expr)) :
    Keeps context (literalFieldsFrom context depth owner done fields) := by
  induction fields generalizing done with
  | nil => exact .pure _
  | cons first rest ih =>
      obtain ⟨name, pos, value⟩ := first
      unfold literalFieldsFrom
      split
      · exact complain_then_keeps rfl (ih _)
      · refine .ite (complain_then_keeps rfl (ih _)) ?_
        apply (expr_keeps depth value).bind
        intro code
        exact .bind (expect_keeps _ _ _) fun _ => ih _

theorem structLiteralFrom_keeps (pos : Position) (fields : List (String × Position × ExprTree)) :
    Keeps context (structLiteralFrom context depth pos fields) :=
  .bind (literalFieldsFrom_keeps _ _ _) fun _ => .bind (expectFields_keeps _ _ _) fun _ => .pure _

theorem refuseFound_keeps (tree : ExprTree) (found : TypedCode) :
    Keeps context (refuseFound context tree found) := by
  unfold refuseFound
  dsimp only
  split
  · exact .ite (complain_then_keeps rfl (.pure _)) (complain_then_keeps rfl (.pure _))
  · exact .pure _

theorem otherFrom_keeps (tree : ExprTree) : Keeps context (otherFrom context depth tree) :=
  .bind (expr_keeps depth tree) fun _ => refuseFound_keeps _ _

theorem finalFrom_keeps (tree : ExprTree) : Keeps context (finalFrom context depth tree) := by
  unfold finalFrom
  split
  · refine .bind .get ?_
    intro _
    dsimp only
    split
    · exact .bind (expectFields_keeps _ _ _) fun _ => .pure _
    · exact otherFrom_keeps _
  · refine .ite (complain_then_keeps rfl (.pure _)) ?_
    split
    · exact complain_then_keeps rfl (structLiteralFrom_keeps _ _)
    · exact structLiteralFrom_keeps _ _
  · exact otherFrom_keeps _

theorem endFrom_onward (function : FunctionTree) (statements : List Stmt) :
    Onward context (endFrom context depth function statements) := by
  unfold endFrom
  split
  · exact .bind (finalFrom_keeps _).onward fun _ => .pure _
  · exact .bind (complain_keeps rfl).onward fun _ => .pure _

theorem statementsFrom_onward (trees : List StmtTree) :
    Onward context (trees.filterMapM (statementFrom context depth)) :=
  .filterMapM statementFrom_onward trees

theorem bodyFrom_onward (sig : ConstructorSig) (function : FunctionTree) :
    Onward context (bodyFrom context depth sig function) := by
  refine .bind (.forM (fun _ => .bind (bind_grows _ _ _).onward fun _ => .pure _) _) ?_
  intro _
  exact .bind (statementsFrom_onward _) fun _ => endFrom_onward _ _

theorem conclude_onward (sig : ConstructorSig) (body : List Stmt) (init : List Expr) :
    Onward context (conclude context sig body init) := by
  refine .bind .get ?_
  intro state
  have warns (binding : Binding) : Onward context
      (check (context.decls.complain binding.pos (.unusedVariable binding.name))) :=
    (check_keeps (Declarations.complain_extends _ _)).onward
  refine .bind (.forM warns _) ?_
  intro _
  exact .bind .get fun _ => .ite (.pure _) (.pure _)

/-- The body of a constructor is lowered first, and nothing is forgotten behind it. -/
theorem constructorFrom_run {sig : ConstructorSig} {function : FunctionTree}
    {found : Option ConstructorDecl} {before after : Lowering σ}
    (run : constructorFrom context depth sig function before = (found, after)) :
    ∃ code finished, bodyFrom context depth sig function before = (code, finished) ∧
      conclude context sig code.1 code.2 finished = (found, after) ∧
      finished.session.Extends context.manager after.session := by
  obtain ⟨code, finished, lowered, run⟩ := bind_run run
  exact ⟨code, finished, lowered, run, ((conclude_onward _ _ _).of_run run).session⟩

end Lower

end UnitForge
