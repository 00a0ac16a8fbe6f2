import UnitForge.Proofs.Lowering.Elaboration

/-! # References of code

The units that code refers to. What code stands for depends on the images of these units only. -/
set_option autoImplicit false
namespace UnitForge

mutual

def Expr.callees : Expr → List String
  | .unary _ operand | .cast operand _ | .toText operand | .length operand => operand.callees
  | .binary _ left right => left.callees ++ right.callees
  | .construct unit _ args => unit :: Expr.calleesOfAll args
  | _ => []

def Expr.calleesOfAll : List Expr → List String
  | [] => []
  | first :: rest => first.callees ++ Expr.calleesOfAll rest

end

def TypeRef.unit? : TypeRef → Option String
  | .unit name => some name
  | _ => none

/-- The units that a constructor refers to: those that it calls, and those of its parameters. -/
def ConstructorDecl.references (ctor : ConstructorDecl) : List String :=
  ctor.body.flatMap (·.value.callees) ++ ctor.init.flatMap Expr.callees ++
    ctor.paramTypes.filterMap TypeRef.unit?

def UnitImage.references (image : UnitImage) : List String :=
  image.constructors.flatMap ConstructorDecl.references

/-- What is said of some units only. -/
def References.restrict (refs : References) (names : List String) : References :=
  { refs with image? := fun name => if name ∈ names then refs.image? name else none }

theorem Expr.callees_of_mem {code : Expr} {codes : List Expr} (member : code ∈ codes) :
    code.callees ⊆ Expr.calleesOfAll codes := by
  induction codes with
  | nil => cases member
  | cons first rest ih =>
      rw [Expr.calleesOfAll]
      rcases List.mem_cons.mp member with rfl | later
      · exact List.subset_append_left _ _
      · exact List.Subset.trans (ih later) (List.subset_append_right _ _)

variable {refs : References} {names : List String} {locals last : Locals}

theorem References.restrict_iff {name : String} {image : UnitImage} :
    (refs.restrict names).image? name = some image ↔
      name ∈ names ∧ refs.image? name = some image :=
  Option.ite_none_right_eq_some

/-- Code stands for the same if nothing is said of the units that it does not call. -/
theorem Elab.restrict {tree : Source.ExprTree} {code : Expr} {type : TypeRef}
    (elab_ : Elab refs locals tree code type) (called : code.callees ⊆ names) :
    Elab (refs.restrict names) locals tree code type := by
  induction elab_ with
  | literal known => exact .literal known
  | minusLiteral known => exact .minusLiteral known
  | paren _ ih => exact .paren (ih called)
  | name path found => exact .name path found
  | minus other numeric _ ih => exact .minus other numeric (ih called)
  | not admitted _ ih => exact .not admitted (ih called)
  | logical operator isLogical _ _ left right =>
      rw [Expr.callees, List.append_subset] at called
      exact .logical operator isLogical (left called.1) (right called.2)
  | comparison operator isComparison primitive _ _ left right =>
      rw [Expr.callees, List.append_subset] at called
      exact .comparison operator isComparison primitive (left called.1) (right called.2)
  | concat operator _ _ left right =>
      rw [Expr.callees, List.append_subset] at called
      exact .concat operator (left called.1) (right called.2)
  | arithmetic operator isArithmetic numeric _ _ left right =>
      rw [Expr.callees, List.append_subset] at called
      exact .arithmetic operator isArithmetic numeric (left called.1) (right called.2)
  | cast written casts _ ih => exact .cast written casts (ih called)
  | toText method primitive _ ih => exact .toText method primitive (ih called)
  | identity method _ ih => exact .identity method (ih called)
  | length method _ ih => exact .length method (ih called)
  | emptyText path function => exact .emptyText path function
  | textFrom path function _ ih => exact .textFrom path function (ih called)
  | construct some other function unit seen found types _ ih =>
      rw [Expr.callees, List.cons_subset] at called
      refine .construct some other function unit (References.restrict_iff.mpr ⟨called.1, seen⟩) found
        types fun arg member => ih arg member ?_
      exact List.Subset.trans (Expr.callees_of_mem (List.mem_map_of_mem member)) called.2
  | reference _ ih => exact .reference (ih called)

theorem ElabBody.restrict {trees : List Source.StmtTree} {body : List Stmt}
    (elab_ : ElabBody refs locals trees body last)
    (called : ∀ step ∈ body, step.value.callees ⊆ names) :
    ElabBody (refs.restrict names) locals trees body last := by
  induction elab_ with
  | nil => exact .nil
  | cons value _ ih =>
      exact .cons (value.restrict (called _ List.mem_cons_self))
        (ih fun step member => called step (List.mem_cons_of_mem _ member))

theorem ElabFinal.restrict {fields : List FieldSig} {tree : Source.ExprTree} {init : List Expr}
    (elab_ : ElabFinal refs locals fields tree init)
    (called : ∀ code ∈ init, code.callees ⊆ names) :
    ElabFinal (refs.restrict names) locals fields tree init := by
  cases elab_ with
  | bare none => exact .bare none
  | literal values =>
      refine .literal ((forall₂_and_zip values).imp ?_)
      intro field code related
      obtain ⟨member, value, type, found, typed, elab_⟩ := related
      exact ⟨value, type, found, typed, elab_.restrict (called code (List.of_mem_zip member).2)⟩

variable {owner : UnitSig}

theorem ElabConstructor.restrict {sig : ConstructorSig} {ctor : ConstructorDecl}
    (elab_ : ElabConstructor refs owner sig ctor) (called : ctor.references ⊆ names) :
    ElabConstructor (refs.restrict names) owner sig ctor := by
  rw [ConstructorDecl.references, List.append_subset, List.append_subset] at called
  obtain ⟨⟨body, init⟩, -⟩ := called
  cases elab_ with
  | implicit same => exact .implicit same
  | function given elab_ =>
      obtain ⟨tree, last, split, steps, final, locals⟩ := elab_.parts
      refine .function given ⟨elab_.name, elab_.params, tree, last, split, steps.restrict ?_,
        final.restrict ?_, locals⟩
      · intro step member name here
        exact body (List.mem_flatMap.mpr ⟨step, member, here⟩)
      · intro code member name here
        exact init (List.mem_flatMap.mpr ⟨code, member, here⟩)

theorem ElabUnit.restrict {image : UnitImage} (elab_ : ElabUnit refs owner image) :
    ElabUnit (refs.restrict image.references) owner image := by
  refine ⟨elab_.name, elab_.fields, ?_⟩
  apply (forall₂_and_zip elab_.constructors).imp
  rintro sig ctor ⟨member, elab_⟩
  apply elab_.restrict
  exact fun name here => List.mem_flatMap.mpr ⟨ctor, (List.of_mem_zip member).2, here⟩

end UnitForge
