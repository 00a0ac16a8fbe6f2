import UnitForge.Proofs.Lowering.Bodies
import UnitForge.Proofs.Lowering.Elaboration

/-! # The depth of code

Code nests no deeper than the expression that it stands for. A constructor that was lowered without
an error therefore has no code beyond the limit. -/
set_option autoImplicit false
namespace UnitForge

open Source Step

mutual

/-- The levels of code: one for a leaf, and one more than the deepest of its operands for all
else. -/
def Expr.depth : Expr → Nat
  | .unary _ operand => operand.depth + 1
  | .binary _ left right => max left.depth right.depth + 1
  | .cast operand _ => operand.depth + 1
  | .toText operand => operand.depth + 1
  | .length operand => operand.depth + 1
  | .construct _ _ args => Expr.depthAll args + 1
  | _ => 1

def Expr.depthAll : List Expr → Nat
  | [] => 0
  | first :: rest => max first.depth (Expr.depthAll rest)

end

def ConstructorDecl.exprs (ctor : ConstructorDecl) : List Expr :=
  ctor.body.map Stmt.value ++ ctor.init

def UnitImage.exprs (image : UnitImage) : List Expr :=
  image.constructors.flatMap ConstructorDecl.exprs

@[simp] theorem depth_constant (value : Value) : (Expr.constant value).depth = 1 := by
  cases value <;> simp [Expr.constant, Expr.depth]

@[simp] theorem depth_defaultOf (type : TypeRef) : (Lower.defaultOf type).depth = 1 := by
  cases type <;> simp [Lower.defaultOf, Expr.depth]

theorem depthAll_le {args : List Elaborated}
    (each : ∀ arg ∈ args, arg.code.depth ≤ arg.tree.levels) :
    Expr.depthAll (args.map Elaborated.code) ≤ ExprTree.levelsAll (args.map Elaborated.tree) := by
  induction args with
  | nil => simp [Expr.depthAll, ExprTree.levelsAll]
  | cons first rest ih =>
      have here := each first List.mem_cons_self
      have others := ih fun arg member => each arg (List.mem_cons_of_mem _ member)
      simp only [List.map_cons, Expr.depthAll, ExprTree.levelsAll]
      omega

/-! ## Elaborated code -/

variable {refs : References} {locals last : Locals}

theorem Elab.depth_le {tree : ExprTree} {code : Expr} {type : TypeRef}
    (elab_ : Elab refs locals tree code type) : code.depth ≤ tree.levels := by
  induction elab_ with
  | literal => simp [ExprTree.levels]
  | minusLiteral => simp [ExprTree.levels]
  | name => simp [Expr.depth, ExprTree.levels]
  | minus other =>
      rw [ExprTree.levels_minus other, Expr.depth]
      omega
  | construct _ _ _ _ _ _ _ _ ih =>
      have args := depthAll_le ih
      simp only [Expr.depth, ExprTree.levels]
      omega
  | emptyText => simp [Expr.depth, ExprTree.levels]
  | textFrom =>
      simp only [ExprTree.levels, ExprTree.levelsAll]
      omega
  | _ =>
      simp only [Expr.depth, ExprTree.levels]
      omega

theorem ElabBody.depth_le {trees : List StmtTree} {body : List Stmt}
    (elab_ : ElabBody refs locals trees body last) :
    ∀ step ∈ body, ∃ value ∈ trees.filterMap StmtTree.init?,
      step.value.depth ≤ value.levels := by
  induction elab_ with
  | nil => exact List.forall_mem_nil _
  | @cons _ _ _ _ _ _ value _ _ _ _ first _ ih =>
      intro step member
      rw [List.filterMap_cons_some (rfl : StmtTree.init? _ = some value)]
      rcases List.mem_cons.mp member with rfl | later
      · exact ⟨value, List.mem_cons_self, first.depth_le⟩
      · obtain ⟨value, given, bounded⟩ := ih step later
        exact ⟨value, List.mem_cons_of_mem _ given, bounded⟩

theorem ElabFinal.depth_le {fields : List FieldSig} {tree : ExprTree} {init : List Expr}
    (elab_ : ElabFinal refs locals fields tree init) :
    ∀ code ∈ init, ∃ value ∈ tree.inits, code.depth ≤ value.levels := by
  cases elab_ with
  | bare => exact List.forall_mem_nil _
  | @literal _ _ _ values _ given =>
      intro code member
      obtain ⟨field, -, value, type, found, -, elab_⟩ := exists_of_forall₂ given code member
      obtain ⟨entry, searched, rfl⟩ := Option.map_eq_some_iff.mp found
      refine ⟨entry.2.2, ?_, elab_.depth_le⟩
      exact List.mem_map_of_mem (List.mem_of_find?_eq_some searched)

theorem ElabFunction.depth_le {owner : UnitSig} {sig : ConstructorSig} {function : FunctionTree}
    {ctor : ConstructorDecl} (elab_ : ElabFunction refs owner sig function ctor) :
    ∀ code ∈ ctor.exprs, ∃ value ∈ Lower.initialisers function, code.depth ≤ value.levels := by
  obtain ⟨tree, last, ends, body, final, -⟩ := elab_.parts
  intro code member
  rw [Lower.initialisers, ends]
  rcases List.mem_append.mp member with early | late
  · obtain ⟨step, given, rfl⟩ := List.mem_map.mp early
    obtain ⟨value, initial, bounded⟩ := body.depth_le step given
    exact ⟨value, List.mem_append_left _ initial, bounded⟩
  · obtain ⟨value, initial, bounded⟩ := final.depth_le code late
    exact ⟨value, List.mem_append_right _ initial, bounded⟩

/-! ## Lowered code -/

namespace UnitSig

variable {σ : Type} {manager : FileManager σ} {decls : Declarations} {sigs : List UnitSig}
  {owner : UnitSig}

/-- The code of a constructor that is lowered without an error keeps to the limit. -/
theorem lowerConstructor_shallow {sig : ConstructorSig} {ctor : ConstructorDecl}
    {before after : Session σ}
    (run : lowerConstructor manager decls sigs owner sig before = (some ctor, after))
    (quiet : after.errors = before.errors) (elab_ : ElabConstructor refs owner sig ctor) :
    ∀ code ∈ ctor.exprs, code.depth ≤ maxExprDepth := by
  intro code member
  cases elab_ with
  | function given elab_ =>
      obtain ⟨stop, lowered, rfl⟩ := lowerConstructor_function given run
      obtain ⟨told⟩ := Lower.constructor_told lowered
      obtain ⟨value, initial, bounded⟩ := elab_.depth_le code member
      have shallow := told.shallow quiet
      push Not at shallow
      exact Nat.le_trans bounded (shallow value initial)
  | implicit same =>
      obtain ⟨init, defaults, rfl⟩ := Option.map_eq_some_iff.mp same
      obtain ⟨field, -, given⟩ := exists_of_forall₂ (mapM_eq_some_iff.mp defaults) code member
      obtain ⟨type, -, rfl⟩ := Option.map_eq_some_iff.mp given
      rw [depth_defaultOf]
      decide

end UnitSig

end UnitForge
