import UnitForge.Dialect.Compiler
import UnitForge.Proofs.Dialect.Agreement
import UnitForge.Proofs.Lowering.Forms

/-! # Agreement on code

The code of a constructor depends on a session through what the class path holds and on nothing
else: whether a constructor is incomplete is remembered apart from the diagnostics that were
delivered. Sessions that agree on the class path therefore find the same code. -/
set_option autoImplicit false
namespace UnitForge

open Source Step

variable {σ τ : Type}

/-- Lowerings that differ in nothing but their sessions and the places of their bindings. -/
structure Lowering.Beside (move : Position → Position) (R : Session σ → Session τ → Prop)
    (state : Lowering σ) (other : Lowering τ) : Prop where
  session : R state.session other.session
  scope : other.scope = state.scope.map (·.relocate move)
  reportedDepth : other.reportedDepth = state.reportedDepth
  complete : other.complete = state.complete

/-- Contexts in which the same names stand for the same units, for constructors of the same
struct. -/
structure LoweringContext.Similar (context : LoweringContext σ) (twin : LoweringContext τ) :
    Prop where
  decls : context.decls.Similar twin.decls
  sigs : ∀ unit, UnitSig.constructorsIn twin.sigs unit = UnitSig.constructorsIn context.sigs unit
  name : twin.owner.name = context.owner.name
  fullName : twin.owner.fullName = context.owner.fullName
  fields : twin.owner.fields = context.owner.fields

/-! ## Scopes -/

namespace Scope

variable (move : Position → Position) (scope : Scope)

abbrev relocate : Scope :=
  scope.map (·.relocate move)

theorem relocate_slot? (name : String) : (relocate move scope).slot? name = slot? scope name := by
  have back : (relocate move scope).reverse.findIdx? (·.name = name) =
      scope.reverse.findIdx? (·.name = name) := by
    rw [← List.map_reverse, List.findIdx?_map]
    rfl
  rw [slot?, slot?, back, List.length_map]

theorem relocate_find? (name : String) : (relocate move scope).find? name =
    (find? scope name).map fun (slot, binding) => (slot, binding.relocate move) := by
  unfold find?
  rw [relocate_slot?]
  cases slot? scope name with
  | none => rfl
  | some slot =>
      have at_ : (relocate move scope)[slot]? = scope[slot]?.map (·.relocate move) :=
        List.getElem?_map
      simp only [Option.bind_eq_bind, Option.bind_some, at_]
      cases scope[slot]? <;> rfl

theorem relocate_use (slot : Nat) :
    (relocate move scope).use slot = relocate move (use scope slot) := by
  apply List.ext_getElem?
  intro i
  simp only [use, relocate, List.getElem?_modify, List.getElem?_map]
  cases scope[i]? with
  | none => rfl
  | some binding => by_cases same : slot = i <;> simp [same, Binding.relocate]

theorem relocate_unused : (relocate move scope).unused = relocate move (unused scope) := by
  rw [unused, relocate, List.filter_map]
  rfl

end Scope

variable {move : Position → Position} {R : Session σ → Session τ → Prop}

namespace Lower

variable {α : Type} {context : LoweringContext σ} {twin : LoweringContext τ}

abbrev Agree (move : Position → Position) (R : Session σ → Session τ → Prop) (step : Lower σ α)
    (other : Lower τ α) : Prop :=
  Alike (Lowering.Beside move R) step other

/-! ## Changes of the state -/

theorem check_agree {step : Check σ α} {other : Check τ α} (alike : Alike R step other) :
    Agree move R (check step) (check other) := by
  intro s t beside
  have ⟨same, after⟩ := alike _ _ beside.session
  exact ⟨same, { beside with session := after }⟩

theorem giveUp_agree : Agree move R giveUp giveUp :=
  fun _ _ beside => ⟨rfl, { beside with complete := rfl }⟩

theorem use_agree (slot : Nat) :
    Agree move R (modify fun state => { state with scope := state.scope.use slot })
      (modify fun state => { state with scope := state.scope.use slot }) := by
  intro s t beside
  refine ⟨rfl, { beside with scope := ?_ }⟩
  exact (congrArg (Scope.use · slot) beside.scope).trans (Scope.relocate_use move s.scope slot)

theorem bind_agree (name : String) (type : Option TypeRef) (pos : Position) :
    Agree move R (bind name type pos) (bind name type (move pos)) := by
  intro s t beside
  refine ⟨?_, { beside with scope := ?_ }⟩
  · have same : t.scope.length = s.scope.length := by
      rw [beside.scope, List.length_map]
    exact congrArg Nat.toUInt32 same.symm
  · change t.scope ++ [_] = (s.scope ++ [_]).map _
    rw [beside.scope, List.map_append]
    rfl

variable (agree : Session.Agreement move R context.manager twin.manager)
  (similar : context.Similar twin)
include agree similar

/-! ## Reports -/

theorem complain_agree (pos : Position) (problem : Problem) :
    Agree move R (complain context pos problem) (complain twin (move pos) problem) :=
  .bind (check_agree (Declarations.complain_alike agree similar.decls.uri _ _)) fun _ =>
    giveUp_agree

theorem refuse_agree (answer : α) (pos : Position) (problem : Problem) :
    Agree move R (do complain context pos problem; return answer)
      (do complain twin (move pos) problem; return answer) :=
  .bind (complain_agree agree similar _ _) fun _ => .pure rfl

theorem fail_agree (pos : Position) (problem : Problem) :
    Agree move R (fail context pos problem) (fail twin (move pos) problem) :=
  refuse_agree agree similar _ _ _

theorem expect_agree (pos : Position) (expected found : Option TypeRef) :
    Agree move R (expect context pos expected found) (expect twin (move pos) expected found) := by
  unfold expect
  cases expected with
  | none => exact .pure rfl
  | some expected =>
      cases found with
      | none => exact .pure rfl
      | some found => exact .ite (complain_agree agree similar _ _) (.pure rfl)

/-! ## Leaves -/

theorem literal_agree (negated : Bool) (place : Position) (value : Literal) :
    Agree move R (literal context negated place value)
      (literal twin negated (move place) value) := by
  have failed (problem : Problem) :
      Agree move R (fail context place problem) (fail twin (move place) problem) :=
    fail_agree agree similar place problem
  unfold literal
  cases value with
  | int value suffix => exact .ite (.pure rfl) (.ite (.pure rfl) (failed _))
  | float digits suffix => exact .ite (.pure rfl) (failed _)
  | bool value => exact .ite (failed _) (.pure rfl)
  | str value => exact .ite (failed _) (.pure rfl)
  | other => exact failed _

theorem namedValue_agree (pos : Position) (qualified : Bool) (names : NamePath) :
    Agree move R (namedValue context pos qualified names)
      (namedValue twin (move pos) qualified (names.relocate move)) := by
  have moved : (if qualified then none else (names.relocate move).ident?) =
      (if qualified then none else names.ident?).map (·.relocate move) := by
    cases qualified with
    | true => rfl
    | false => exact NamePath.ident?_relocate move names
  unfold namedValue
  rw [moved]
  cases if qualified then none else names.ident? with
  | none => exact fail_agree agree similar _ _
  | some ident =>
      refine .get_bind ?_
      intro s t beside
      rw [beside.scope, Ident.relocate_name, Scope.relocate_find?]
      cases s.scope.find? ident.name with
      | none => exact fail_agree agree similar _ _
      | some found => exact .bind (use_agree _) fun _ => .pure rfl

/-! ## Operators -/

theorem unary_agree (pos : Position) (op : UnaryOp) (operand : TypedCode) :
    Agree move R (unary context pos op operand) (unary twin (move pos) op operand) := by
  obtain ⟨code, type⟩ := operand
  cases type with
  | none => cases op <;> exact .pure rfl
  | some type => cases op <;> exact .ite (.pure rfl) (fail_agree agree similar _ _)

theorem comparison_agree (op : BinaryOp) (symbol : String) (place rightPos : Position)
    (left right : TypedCode) :
    Agree move R (comparison context op symbol place rightPos left right)
      (comparison twin op symbol (move place) (move rightPos) left right) := by
  obtain ⟨leftCode, leftType⟩ := left
  obtain ⟨rightCode, rightType⟩ := right
  have told (pos : Position) (problem : Problem) (answer : TypedCode) :
      Agree move R (do complain context pos problem; return answer)
        (do complain twin (move pos) problem; return answer) :=
    refuse_agree agree similar answer pos problem
  cases leftType with
  | none => exact .pure rfl
  | some l =>
      cases rightType with
      | none => exact .pure rfl
      | some r => exact .ite (told _ _ _) (.ite (told _ _ _) (.pure rfl))

theorem arithmetic_agree (op : BinaryOp) (symbol : String) (place rightPos : Position)
    (left right : TypedCode) :
    Agree move R (arithmetic context op symbol place rightPos left right)
      (arithmetic twin op symbol (move place) (move rightPos) left right) := by
  unfold arithmetic
  refine .ite (.pure rfl) ?_
  cases left.type with
  | none => exact .pure rfl
  | some l =>
      refine .ite (.bind (expect_agree agree similar _ _ _) fun _ => .pure rfl)
        (.ite (.pure rfl) ?_)
      exact fail_agree agree similar _ _

theorem binary_agree (op : BinaryOp) (symbol : String) (place leftPos rightPos : Position)
    (left right : TypedCode) :
    Agree move R (binary context op symbol place leftPos rightPos left right)
      (binary twin op symbol (move place) (move leftPos) (move rightPos) left right) := by
  have logical : Agree move R (logical context op leftPos rightPos left right)
      (logical twin op (move leftPos) (move rightPos) left right) :=
    .bind (expect_agree agree similar _ _ _) fun _ =>
      .bind (expect_agree agree similar _ _ _) fun _ => .pure rfl
  cases op with
  | and | or => exact logical
  | eq | ne | lt | le | gt | ge => exact comparison_agree agree similar _ _ _ _ _ _
  | _ => exact arithmetic_agree agree similar _ _ _ _ _ _

theorem cast_agree (pos : Position) (operand : TypedCode) (type : TypeTree) :
    Agree move R (cast context pos operand type)
      (cast twin (move pos) operand (type.relocate move)) := by
  have failed (pos : Position) (problem : Problem) :
      Agree move R (fail context pos problem) (fail twin (move pos) problem) :=
    fail_agree agree similar pos problem
  cases type with
  | path start qualified names =>
      cases qualified with
      | true => exact failed _ _
      | false =>
          simp only [cast, TypeTree.relocate, NamePath.ident?_relocate]
          cases names.ident? with
          | none => exact failed _ _
          | some ident =>
              dsimp only [Option.map_some, Option.bind_some]
              rw [Ident.relocate_written]
              cases Declarations.primitive? ident.written with
              | none => exact failed _ _
              | some target =>
                  refine .ite (failed _ _) ?_
                  cases operand.type with
                  | none => exact .pure rfl
                  | some source =>
                      cases source with
                      | int | float => exact .pure rfl
                      | bool => exact .ite (.pure rfl) (failed _ _)
                      | _ => exact failed _ _
  | paren | other => exact failed _ _

theorem method_agree (receiver : TypedCode) (ident : Ident) :
    Agree move R (method context receiver ident)
      (method twin receiver (ident.relocate move)) := by
  unfold method
  cases receiver.type with
  | none => exact .pure rfl
  | some type =>
      refine .ite (.pure rfl) (.ite (.pure rfl) (.ite (.pure rfl) (.ite (.pure rfl) ?_)))
      exact fail_agree agree similar _ _

/-! ## Calls -/

def relocateArgs (move : Position → Position) (args : List (Position × TypedCode)) :
    List (Position × TypedCode) :=
  args.map fun (pos, code) => (move pos, code)

omit agree similar in
theorem length_relocateArgs (args : List (Position × TypedCode)) :
    (relocateArgs move args).length = args.length :=
  List.length_map ..

omit agree similar in
theorem codes_relocateArgs (args : List (Position × TypedCode)) :
    (relocateArgs move args).map (·.2.code) = args.map (·.2.code) := by
  simp [relocateArgs]

theorem constructorsOf_alike (unit : String) :
    Alike R (constructorsOf context unit) (constructorsOf twin unit) := by
  have known := similar.sigs unit
  unfold UnitSig.constructorsIn at known
  unfold constructorsOf
  cases found : context.sigs.find? (·.fullName = unit) with
  | some sig =>
      rw [found] at known
      obtain ⟨image, there, same⟩ := Option.map_eq_some_iff.mp known
      rw [there]
      exact .pure same.symm
  | none =>
      rw [found] at known
      rw [Option.map_eq_none_iff.mp known]
      exact .bind (agree.classPathUnit _) fun _ => .pure rfl

theorem expectArguments_agree (types : List (Option TypeRef))
    (args : List (Position × TypedCode)) :
    Agree move R (expectArguments context types args)
      (expectArguments twin types (relocateArgs move args)) := by
  induction types generalizing args with
  | nil => exact .pure rfl
  | cons expected types ih =>
      cases args with
      | nil => exact .pure rfl
      | cons arg args => exact .bind (expect_agree agree similar _ _ _) fun _ => ih args

theorem textCall_agree (pos : Position) (function : String) (args : List (Position × TypedCode)) :
    Agree move R (textCall context pos function args)
      (textCall twin (move pos) function (relocateArgs move args)) := by
  have failed (problem : Problem) :
      Agree move R (fail context pos problem) (fail twin (move pos) problem) :=
    fail_agree agree similar pos problem
  have empty : (relocateArgs move args).isEmpty = args.isEmpty := List.isEmpty_map
  unfold textCall
  rw [length_relocateArgs, empty]
  refine .ite (.ite (.pure rfl) (failed _)) (.ite ?_ (failed _))
  match args with
  | [(argPos, arg)] =>
      exact .ite (.pure rfl) (.bind (expect_agree agree similar _ _ _) fun _ => .pure rfl)
  | [] | _ :: _ :: _ => exact failed _

theorem constructorCall_agree (pos functionPos : Position) (unit function : String)
    (args : List (Position × TypedCode)) :
    Agree move R (constructorCall context pos functionPos unit function args)
      (constructorCall twin (move pos) (move functionPos) unit function
        (relocateArgs move args)) := by
  unfold constructorCall
  rw [length_relocateArgs, codes_relocateArgs]
  apply (check_agree (constructorsOf_alike agree similar unit)).bind
  intro constructors
  cases constructors.lookup function with
  | none => exact fail_agree agree similar _ _
  | some params =>
      refine .ite (fail_agree agree similar _ _) ?_
      exact .bind (expectArguments_agree agree similar _ _) fun _ => .pure rfl

theorem call_agree (pos functionPos : Position) (names : List String)
    (args : List (Position × TypedCode)) :
    Agree move R (call context pos functionPos names args)
      (call twin (move pos) (move functionPos) names (relocateArgs move args)) := by
  unfold call
  rw [similar.name]
  split
  · exact fail_agree agree similar _ _
  · exact textCall_agree agree similar _ _ _
  · apply (check_agree (Declarations.resolveUnit_alike agree similar.decls _ _ _)).bind
    intro unit
    cases unit with
    | none => exact .bind giveUp_agree fun _ => .pure rfl
    | some unit => exact constructorCall_agree agree similar _ _ _ _ _

/-! ## Expressions -/

theorem atLimit_agree (tree : ExprTree) :
    Agree move R (atLimit context tree) (atLimit twin (tree.relocate move)) := by
  have reports : Agree move R (modify fun state => { state with reportedDepth := true })
      (modify fun state => { state with reportedDepth := true }) :=
    fun _ _ beside => ⟨rfl, { beside with reportedDepth := rfl }⟩
  refine .get_bind ?_
  intro s t beside
  rw [beside.reportedDepth, ExprTree.headPos_relocate]
  refine .ite (.bind giveUp_agree fun _ => .pure rfl) ?_
  exact .bind reports fun _ => fail_agree agree similar _ _

omit agree similar in
theorem relocate_ne_literal {operand : ExprTree}
    (literal : ∀ pos place value, operand ≠ .literal pos place value) (pos place : Position)
    (value : Literal) : operand.relocate move ≠ .literal pos place value := by
  intro same
  cases operand with
  | literal pos place value => exact literal pos place value rfl
  | _ =>
      rw [ExprTree.relocate] at same
      cases same

omit agree similar in
theorem relocate_ne_path {function : ExprTree}
    (path : ∀ pos qualified names, function ≠ .path pos qualified names) (pos : Position)
    (qualified : Bool) (names : NamePath) :
    function.relocate move ≠ .path pos qualified names := by
  intro same
  cases function with
  | path pos qualified names => exact path pos qualified names rfl
  | _ =>
      rw [ExprTree.relocate] at same
      cases same

omit agree similar in
theorem Refused.relocate {tree : ExprTree} {pos : Position} {problem : Problem}
    (refused : Refused tree pos problem) :
    Refused (tree.relocate move) (move pos) problem := by
  cases refused with
  | operator unknown =>
      rw [ExprTree.relocate]
      exact .operator unknown _ _ _ _
  | qualified =>
      rw [ExprTree.relocate, ExprTree.relocate]
      exact .qualified _ _ _ _ _
  | callee noPath =>
      rw [ExprTree.relocate, ← @ExprTree.relocate_pos move]
      exact .callee (relocate_ne_path noPath) _ _ _
  | _ =>
      rw [ExprTree.relocate]
      constructor

theorem expr_exprs_agree :
    (∀ depth tree,
      Agree move R (expr context depth tree) (expr twin depth (tree.relocate move))) ∧
    ∀ depth trees, Along (Lowering.Beside move R) (relocateArgs move) (exprs context depth trees)
      (exprs twin depth (ExprTree.relocateAll move trees)) := by
  apply expr_exprs_induct
    (P := fun depth tree step => Agree move R step (expr twin depth (tree.relocate move)))
    (Q := fun depth trees step => Along (Lowering.Beside move R) (relocateArgs move) step
      (exprs twin depth (ExprTree.relocateAll move trees)))
  case limit =>
    intro tree
    rw [expr_limit]
    exact atLimit_agree agree similar tree
  case refused =>
    intro depth above tree pos problem form
    rw [expr_refused above form.relocate]
    exact fail_agree agree similar _ _
  case literal =>
    intro depth above pos place value
    rw [ExprTree.relocate, expr, if_neg above]
    exact literal_agree agree similar _ _ _
  case minusLiteral =>
    intro depth above pos place start literalPlace value
    rw [ExprTree.relocate, ExprTree.relocate, expr, if_neg above]
    exact literal_agree agree similar _ _ _
  case paren =>
    intro depth above pos opening inner ih
    rw [ExprTree.relocate, expr, if_neg above]
    exact ih
  case path =>
    intro depth above pos qualified names
    rw [ExprTree.relocate, expr, if_neg above]
    exact namedValue_agree agree similar _ _ _
  case minus =>
    intro depth above pos place operand other ih
    rw [ExprTree.relocate, expr_minus above (relocate_ne_literal other)]
    exact .bind ih fun _ => unary_agree agree similar _ _ _
  case not =>
    intro depth above pos place operand ih
    rw [ExprTree.relocate, expr, if_neg above]
    exact .bind ih fun _ => unary_agree agree similar _ _ _
  case binary =>
    intro depth above pos place op left right found symbol known ihLeft ihRight
    rw [ExprTree.relocate, expr, if_neg above, known, ExprTree.relocate_pos, ExprTree.relocate_pos]
    exact .bind ihLeft fun _ => .bind ihRight fun _ => binary_agree agree similar _ _ _ _ _ _ _
  case cast =>
    intro depth above pos place operand type ih
    rw [ExprTree.relocate, expr, if_neg above]
    exact .bind ih fun _ => cast_agree agree similar _ _ _
  case method =>
    intro depth above pos receiver ident ih
    rw [ExprTree.relocate, expr, if_neg above, if_neg Bool.false_ne_true]
    exact .bind ih fun _ => method_agree agree similar _ _
  case methodArguments =>
    intro depth above pos receiver ident first rest ih
    rw [ExprTree.relocate, expr, if_neg above, if_neg Bool.false_ne_true,
      ExprTree.length_relocateAll]
    dsimp only [ExprTree.relocateAll]
    rw [ExprTree.relocate_pos]
    exact .bind ih fun _ => fail_agree agree similar _ _
  case call =>
    intro depth above pos opening functionPos names args ih
    rw [ExprTree.relocate, ExprTree.relocate, expr, if_neg above]
    apply (check_agree (Declarations.plainNames_alike agree similar.decls.uri _)).bind
    intro names
    cases names with
    | none => exact .bind giveUp_agree fun _ => .pure rfl
    | some names => exact .bind ih fun _ => call_agree agree similar _ _ _ _
  case reference =>
    intro depth above pos place operand ih
    rw [ExprTree.relocate, expr, if_neg above]
    exact .bind ih fun _ => .ite (.pure rfl) (fail_agree agree similar _ _)
  case nil =>
    intro depth
    exact .pure rfl
  case cons =>
    intro depth first rest ih ihRest
    rw [ExprTree.relocateAll, exprs, ExprTree.relocate_pos]
    exact .bind ih fun _ => .bind ihRest fun _ => .pure rfl

theorem expr_agree (depth : Nat) (tree : ExprTree) :
    Agree move R (expr context depth tree) (expr twin depth (tree.relocate move)) :=
  (expr_exprs_agree agree similar).1 depth tree

/-! ## Statements and literals -/

omit agree similar in
theorem RefusedStatement.relocate (nowhere : move ⟨1, 1⟩ = ⟨1, 1⟩) {tree : StmtTree}
    {pos : Position} {problem : Problem} (refused : RefusedStatement tree pos problem) :
    RefusedStatement (tree.relocate move) (move pos) problem := by
  cases refused with
  | item pos => exact .item _
  | macroCall pos => exact .macroCall _
  | expr value semicolon =>
      rw [← @ExprTree.relocate_pos move]
      exact .expr _ _
  | empty =>
      rw [nowhere]
      exact .empty
  | withoutValue => exact .withoutValue _ _ _ _ _
  | otherwise => exact .otherwise _ _ _ _ _ _
  | @pattern pattern noName =>
      rw [← @Pattern.relocate_pos move]
      refine .pattern ?_ _ _ _ _
      intro start ident same
      cases pattern with
      | ident pos plain ident =>
          cases same
          exact noName _ _ rfl
      | openRange | other => cases same

theorem statement_agree (tree : StmtTree) :
    Agree move R (statement context tree) (statement twin (tree.relocate move)) := by
  have finish (ident : Ident) (code : Expr) (type : Option TypeRef) :
      Agree move R (statement.finish ident code type)
        (statement.finish (ident.relocate move) code type) :=
    .bind (bind_agree _ _ _) fun _ => .pure rfl
  apply statement_forms
    (P := fun tree step => Agree move R step (statement twin (tree.relocate move)))
  case refused =>
    intro tree pos problem form
    rw [statement_refused (form.relocate agree.nowhere)]
    exact refuse_agree agree similar none pos problem
  case binding =>
    intro pos start ident type value
    apply (expr_agree agree similar 0 value).bind
    intro found
    cases type with
    | none => exact finish _ _ _
    | some tree =>
        dsimp only [Option.map_some]
        rw [similar.name, ExprTree.relocate_pos]
        apply (check_agree (Declarations.resolveType_alike agree similar.decls _ _)).bind
        intro declared
        cases declared with
        | none => exact .bind giveUp_agree fun _ => finish _ _ _
        | some type => exact .bind (expect_agree agree similar _ _ _) fun _ => finish _ _ _

theorem literalFields_agree {owner owner' : UnitSig} (name : owner'.name = owner.name)
    (typed : owner'.fields = owner.fields) (fields : List (String × Position × ExprTree))
    (done : List (Nat × Expr)) : Agree move R (literalFields context owner done fields)
      (literalFields twin owner' done (ExprTree.relocateFields move fields)) := by
  induction fields generalizing done with
  | nil => exact .pure rfl
  | cons first rest ih =>
      obtain ⟨field, pos, value⟩ := first
      unfold literalFields ExprTree.relocateFields
      dsimp only
      rw [name, typed]
      cases owner.fields.findIdx? (·.name = field) with
      | none => exact .bind (complain_agree agree similar _ _) fun _ => ih _
      | some index =>
          refine .ite (.bind (complain_agree agree similar _ _) fun _ => ih _) ?_
          apply (expr_agree agree similar 0 value).bind
          intro found
          rw [ExprTree.relocate_pos]
          exact .bind (expect_agree agree similar _ _ _) fun _ => ih _

theorem expectFields_agree {owner owner' : UnitSig} (name : owner'.name = owner.name)
    (typed : owner'.fields = owner.fields) (pos : Position) (done : List (Nat × Expr)) :
    Agree move R (expectFields context pos owner done)
      (expectFields twin (move pos) owner' done) := by
  unfold expectFields
  rw [name, typed]
  exact .ite (complain_agree agree similar _ _) (.pure rfl)

omit agree similar in
theorem relocate_namesOwner (owner : String) (qualified : Bool) (names : NamePath) :
    namesOwner owner qualified (names.relocate move) =
      (namesOwner owner qualified names).map (·.relocate move) := by
  cases qualified with
  | true => rfl
  | false =>
      unfold namesOwner
      rw [NamePath.ident?_relocate]
      exact Option.filter_map ..

theorem other_agree (tree : ExprTree) :
    Agree move R (final.other context tree) (final.other twin (tree.relocate move)) := by
  unfold final.other
  rw [ExprTree.relocate_pos, similar.fullName]
  apply (expr_agree agree similar 0 tree).bind
  intro found
  cases found.type with
  | none => exact .pure rfl
  | some type =>
      exact .ite (refuse_agree agree similar [] _ _) (refuse_agree agree similar [] _ _)

theorem fieldValues_agree (pos : Position) (fields : List (String × Position × ExprTree)) :
    Agree move R
      (do
        let done ← literalFields context context.owner [] fields
        expectFields context pos context.owner done
        return initOf context.owner done)
      (do
        let done ← literalFields twin twin.owner [] (ExprTree.relocateFields move fields)
        expectFields twin (move pos) twin.owner done
        return initOf twin.owner done) := by
  apply (literalFields_agree agree similar similar.name similar.fields _ _).bind
  intro done
  apply (expectFields_agree agree similar similar.name similar.fields _ _).bind
  intro _
  have same : initOf context.owner done = initOf twin.owner done := by
    unfold initOf
    rw [similar.fields]
  exact .pure same

theorem final_agree (tree : ExprTree) :
    Agree move R (final context tree) (final twin (tree.relocate move)) := by
  cases tree with
  | path pos qualified names =>
      unfold final
      refine .get_bind ?_
      intro s t beside
      have named : (namesOwner context.owner.name qualified (names.relocate move)).filter
            (fun ident => ident.is "Self" || (t.scope.slot? ident.name).isNone) =
          ((namesOwner context.owner.name qualified names).filter
            fun ident => ident.is "Self" || (s.scope.slot? ident.name).isNone).map
              (·.relocate move) := by
        rw [relocate_namesOwner, Option.filter_map, beside.scope]
        simp only [Function.comp_def, Scope.relocate_slot?, Ident.relocate_is,
          Ident.relocate_name]
      simp only [ExprTree.relocate]
      rw [similar.name, named]
      cases (namesOwner context.owner.name qualified names).filter
          fun ident => ident.is "Self" || (s.scope.slot? ident.name).isNone with
      | none => exact other_agree agree similar (.path pos qualified names)
      | some ident =>
          exact .bind (expectFields_agree agree similar similar.name similar.fields _ _)
            fun _ => .pure rfl
  | structLiteral pos qualified names fields base =>
      simp only [final, ExprTree.relocate]
      rw [relocate_namesOwner, Option.isNone_map, similar.name]
      refine .ite (refuse_agree agree similar [] _ _) ?_
      cases base with
      | none => exact fieldValues_agree agree similar _ _
      | some base =>
          simp only [ExprTree.relocateBase]
          rw [ExprTree.relocate_pos]
          exact .bind (complain_agree agree similar _ _) fun _ =>
            fieldValues_agree agree similar _ _
  | _ => exact other_agree agree similar _

/-! ## Constructors -/

omit agree similar in
theorem splitBody_relocate (body : List StmtTree) :
    splitBody (body.map (·.relocate move)) =
      ((splitBody body).1.map (·.relocate move), (splitBody body).2.map (·.relocate move)) := by
  unfold splitBody
  rw [List.getLast?_map]
  cases body.getLast? with
  | none => rfl
  | some last =>
      cases last with
      | expr value semicolon => cases semicolon <;> simp [StmtTree.relocate]
      | binding | item | macroCall | empty => rfl

theorem warn_agree (scope : Scope) : Agree move R
    (scope.forM fun binding =>
      check (context.decls.complain binding.pos (.unusedVariable binding.name)))
    ((Scope.relocate move scope).forM fun binding =>
      check (twin.decls.complain binding.pos (.unusedVariable binding.name))) := by
  refine Alike.forM_map ?_ scope
  intro binding
  exact check_agree (Declarations.complain_alike agree similar.decls.uri _ _)

theorem conclude_agree (sig : ConstructorSig) (body : List Stmt) (init : List Expr) :
    Agree move R (conclude context sig body init)
      (conclude twin (sig.relocate move) body init) := by
  have params : paramDecls (sig.relocate move).params = paramDecls sig.params :=
    List.mapM_map ..
  refine .get_bind ?_
  intro s t beside
  dsimp only
  rw [beside.scope, Scope.relocate_unused, codeOf, codeOf, List.length_map, params]
  apply (warn_agree agree similar _).bind
  intro _
  refine .get_bind ?_
  intro s t beside
  rw [beside.complete]
  exact .ite (.pure rfl) (.pure rfl)

theorem constructor_agree (sig : ConstructorSig) (function : FunctionTree) :
    Agree move R (constructor context sig function)
      (constructor twin (sig.relocate move) (function.relocate move)) := by
  have parameters : Agree move R
      (sig.params.forM fun param => do let _ ← bind param.name param.type param.pos)
      ((sig.params.map (·.relocate move)).forM fun param => do
        let _ ← bind param.name param.type param.pos) := by
    refine Alike.forM_map ?_ _
    intro param
    exact .bind (bind_agree _ _ _) fun _ => .pure rfl
  rw [constructor_eq, constructor_eq, FunctionTree.relocate, splitBody_relocate]
  apply parameters.bind
  intro _
  apply (Alike.filterMapM_map (statement_agree agree similar) _).bind
  intro body
  cases (splitBody function.body).2 with
  | none =>
      dsimp only [Option.map_none]
      rw [similar.name]
      exact .bind (complain_agree agree similar _ _) fun _ => conclude_agree agree similar _ _ _
  | some tree =>
      exact .bind (final_agree agree similar _) fun _ => conclude_agree agree similar _ _ _

end Lower

/-! ## Images -/

namespace UnitSig

variable {manager : FileManager σ} {other : FileManager τ} {decls twin : Declarations}
  {sigs sigs' : List UnitSig} (agree : Session.Agreement move R manager other)
  (similar : decls.Similar twin)
  (known : ∀ unit, constructorsIn sigs' unit = constructorsIn sigs unit)
include agree similar known

theorem lowerConstructor_alike (owner : UnitSig) (sig : ConstructorSig) :
    Alike R (lowerConstructor manager decls sigs owner sig)
      (lowerConstructor other twin sigs' (owner.relocate move) (sig.relocate move)) := by
  intro s t related
  obtain ⟨name, params, function⟩ := sig
  cases function with
  | none => exact ⟨rfl, related⟩
  | some function =>
      let context : LoweringContext σ := { manager, decls, sigs, owner }
      let context' : LoweringContext τ :=
        { manager := other, decls := twin, sigs := sigs', owner := owner.relocate move }
      have contexts : context.Similar context' := ⟨similar, known, rfl, rfl, rfl⟩
      have code : Lower.Agree move R
          (Lower.constructor context { name, params, function := some function } function)
          (Lower.constructor context'
            (ConstructorSig.relocate move { name, params, function := some function })
            (function.relocate move)) :=
        Lower.constructor_agree agree contexts _ function
      have ⟨same, after⟩ := code
        { session := s, scope := [], reportedDepth := false, complete := true }
        { session := t, scope := [], reportedDepth := false, complete := true }
        ⟨related, rfl, rfl, rfl⟩
      exact ⟨same, after.session⟩

theorem lower_alike (owner : UnitSig) :
    Alike R (lower manager decls sigs owner) (lower other twin sigs' (owner.relocate move)) := by
  apply (Alike.mapM_map (lowerConstructor_alike agree similar known owner) _).bind
  intro constructors
  refine .pure ?_
  rw [similar.uri]
  rfl

omit known in
theorem lowerAll_alike (sigs : List UnitSig) :
    Alike R (lowerAll manager decls sigs)
      (lowerAll other twin (sigs.map (·.relocate move))) :=
  .bind (Alike.mapM_map (lower_alike agree similar (constructorsIn_relocate move sigs)) _)
    fun _ => .pure rfl

end UnitSig

/-! ## Sources -/

namespace UnitCompiler

/-- The images of a source that is well-formed, whatever was reported. -/
def images (manager : FileManager σ) (file : Source.File) (unit : SourceUnit) :
    Check σ (Option (List UnitImage)) := do
  let decls ← Declarations.collect manager file unit
  let sigs ← UnitSig.ofDeclarations manager decls
  UnitSig.lowerAll manager decls sigs

variable {manager : FileManager σ} {other : FileManager τ}

theorem analyse_ok {unit : SourceUnit} {file : Source.File}
    (parsed : Source.File.parse? unit.text = .ok file) (before : Session σ) :
    analyse manager unit before =
      let found := images manager file unit before
      (if found.2.errors = before.errors then found.1 else none, found.2) := by
  unfold analyse
  simp only [parsed]
  rfl

theorem images_alike (agree : Session.Agreement move R manager other) (file : Source.File)
    (unit : SourceUnit) :
    Alike R (images manager file unit)
      (images other (file.relocate move (TypeTree.relocate move)) unit) := by
  apply (Declarations.collect_moves agree file unit).bind
  intro decls
  have similar := decls.similar_relocate move (TypeTree.relocate move)
  apply (UnitSig.ofDeclarations_along agree decls fun struct _ field _ =>
    Declarations.resolveType_alike agree similar _ _).bind
  intro sigs
  exact UnitSig.lowerAll_alike agree similar sigs

theorem images_agree (agree : Session.Agreement id R manager other) (file : Source.File)
    (unit : SourceUnit) : Alike R (images manager file unit) (images other file unit) := by
  have types : TypeTree.relocate id = id := funext TypeTree.relocate_id
  have alike := images_alike agree file unit
  rwa [types, File.relocate_id] at alike

end UnitCompiler

end UnitForge
