import UnitForge.Proofs.Dialect.Composition
import UnitForge.Proofs.Lowering.Forms

/-! # What a lowering is made of

Beside its session a lowering keeps what it needs for one constructor. Its steps are taken here as
steps of the session that carry the rest along, and they are put together from plain steps and
questions about the class path. -/
set_option autoImplicit false
namespace UnitForge

open Source Check

variable {σ : Type}

namespace Lower

variable {α β : Type}

/-- What a lowering keeps beside its session. -/
structure Notes where
  scope : Scope
  reportedDepth : Bool
  complete : Bool

def Notes.of (state : Lowering σ) : Notes :=
  { scope := state.scope, reportedDepth := state.reportedDepth, complete := state.complete }

def Notes.beside (notes : Notes) (session : Session σ) : Lowering σ :=
  { notes with session }

def onSession (step : Lower σ α) (notes : Notes) : Check σ (α × Notes) := fun session =>
  let (value, after) := step (notes.beside session)
  ((value, .of after), after.session)

/-- Whatever the lowering keeps, the step is put together from plain ones and questions. -/
def Composed (manager : FileManager σ) (step : Lower σ α) : Prop :=
  ∀ notes, Check.Composed manager (onSession step notes)

namespace Composed

variable {manager : FileManager σ}

theorem pure (value : α) : Composed manager (Pure.pure value : Lower σ α) :=
  fun notes => .pure (value, notes)

theorem bind {step : Lower σ β} {next : β → Lower σ α} (first : Composed manager step)
    (rest : ∀ value, Composed manager (next value)) : Composed manager (step >>= next) := by
  intro notes
  have later (found : β × Notes) : Check.Composed manager (onSession (next found.1) found.2) :=
    rest found.1 found.2
  exact (first notes).bind later

theorem check {step : Check σ α} (composed : Check.Composed manager step) :
    Composed manager (Lower.check step) :=
  fun notes => composed.bind fun value => .pure (value, notes)

theorem ite {condition : Prop} [Decidable condition] {yes no : Lower σ α}
    (whenTrue : Composed manager yes) (whenFalse : Composed manager no) :
    Composed manager (if condition then yes else no) := by
  split <;> assumption

theorem forM {f : α → Lower σ PUnit} (each : ∀ item, Composed manager (f item))
    (items : List α) : Composed manager (items.forM f) := by
  induction items with
  | nil => exact .pure PUnit.unit
  | cons first rest ih => exact .bind (each first) fun _ => ih

theorem filterMapM {f : α → Lower σ (Option β)} (each : ∀ item, Composed manager (f item))
    (items : List α) : Composed manager (items.filterMapM f) := by
  induction items with
  | nil => exact .pure []
  | cons first rest ih =>
      rw [List.filterMapM_cons]
      apply (each first).bind
      intro found
      cases found with
      | none => exact ih
      | some value => exact .bind ih fun _ => .pure _

section Kept
variable [Nonempty σ]

theorem get_bind {next : Lowering σ → Lower σ α}
    (blind : ∀ state session, next { state with session } = next state)
    (rest : ∀ state, Composed manager (next state)) : Composed manager (get >>= next) := by
  intro notes
  obtain ⟨files⟩ := ‹Nonempty σ›
  -- Any session will do.
  let state : Lowering σ := notes.beside (.start files)
  have same : onSession (get >>= next) notes = onSession (next state) notes := by
    funext session
    change onSession (next { state with session }) notes session = _
    rw [blind]
  rw [same]
  exact rest state notes

theorem modify {change : Lowering σ → Lowering σ}
    (blind : ∀ state session, change { state with session } = { change state with session }) :
    Composed manager (modify change : Lower σ Unit) := by
  intro notes
  obtain ⟨files⟩ := ‹Nonempty σ›
  let state : Lowering σ := notes.beside (.start files)
  have same : onSession (MonadState.modifyGet fun state => ((), change state) : Lower σ Unit) notes
      = Pure.pure ((), .of (change state)) := by
    funext session
    exact congrArg (fun after : Lowering σ => (((), Notes.of after), after.session))
      (blind state session)
  exact same ▸ .pure _

end Kept

end Composed

variable [Nonempty σ] (context : LoweringContext σ)

theorem giveUp_composed : Composed context.manager (giveUp (σ := σ)) :=
  .modify fun _ _ => rfl

theorem complain_composed (pos : Position) {problem : Problem}
    (other : problem.isOfUnitFile = false) :
    Composed context.manager (complain context pos problem) :=
  .bind (.check (context.decls.complain_composed pos other)) fun _ => giveUp_composed context

theorem refuse_composed (answer : α) (pos : Position) {problem : Problem}
    (other : problem.isOfUnitFile = false) :
    Composed context.manager (do complain context pos problem; return answer) :=
  .bind (complain_composed context pos other) fun _ => .pure answer

theorem fail_composed (pos : Position) {problem : Problem} (other : problem.isOfUnitFile = false) :
    Composed context.manager (fail context pos problem) :=
  refuse_composed context _ pos other

theorem expect_composed (pos : Position) (expected found : Option TypeRef) :
    Composed context.manager (expect context pos expected found) := by
  unfold expect
  split
  · exact .ite (complain_composed context _ rfl) (.pure _)
  · exact .pure _

theorem bind_composed (name : String) (type : Option TypeRef) (pos : Position) :
    Composed context.manager (bind (σ := σ) name type pos) := by
  refine .get_bind (fun _ _ => rfl) ?_
  intro state
  exact .bind (.modify fun _ _ => rfl) fun _ => .pure _

/-! ## Leaves -/

theorem literal_composed (negated : Bool) (place : Position) (value : Literal) :
    Composed context.manager (literal context negated place value) := by
  have failed {problem : Problem} (other : problem.isOfUnitFile = false) :
      Composed context.manager (fail context place problem) :=
    fail_composed context place other
  unfold literal
  cases value with
  | int value suffix => exact .ite (.pure _) (.ite (.pure _) (failed rfl))
  | float digits suffix => exact .ite (.pure _) (failed rfl)
  | bool value => exact .ite (failed rfl) (.pure _)
  | str value => exact .ite (failed rfl) (.pure _)
  | other => exact failed rfl

theorem namedValue_composed (pos : Position) (qualified : Bool) (names : NamePath) :
    Composed context.manager (namedValue context pos qualified names) := by
  unfold namedValue
  split
  · exact fail_composed context _ rfl
  · refine .get_bind (fun _ _ => rfl) ?_
    intro state
    split
    · exact fail_composed context _ rfl
    · exact .bind (.modify fun _ _ => rfl) fun _ => .pure _

/-! ## Operators -/

theorem unary_composed (pos : Position) (op : UnaryOp) (operand : TypedCode) :
    Composed context.manager (unary context pos op operand) := by
  unfold unary
  split
  split
  · exact .ite (.pure _) (fail_composed context _ rfl)
  · exact .pure _

theorem comparison_composed (op : BinaryOp) (symbol : String) (place rightPos : Position)
    (left right : TypedCode) :
    Composed context.manager (comparison context op symbol place rightPos left right) := by
  unfold comparison
  dsimp only
  split
  · exact .ite (.bind (complain_composed context _ rfl) fun _ => .pure _)
      (.ite (.bind (complain_composed context _ rfl) fun _ => .pure _) (.pure _))
  · exact .pure _

theorem arithmetic_composed (op : BinaryOp) (symbol : String) (place rightPos : Position)
    (left right : TypedCode) :
    Composed context.manager (arithmetic context op symbol place rightPos left right) := by
  unfold arithmetic
  refine .ite (.pure _) ?_
  split
  · exact .pure _
  · refine .ite (.bind (expect_composed context _ _ _) fun _ => .pure _) (.ite (.pure _) ?_)
    exact fail_composed context _ rfl

theorem binary_composed (op : BinaryOp) (symbol : String) (place leftPos rightPos : Position)
    (left right : TypedCode) :
    Composed context.manager (binary context op symbol place leftPos rightPos left right) := by
  have logical (op : BinaryOp) :
      Composed context.manager (logical context op leftPos rightPos left right) :=
    .bind (expect_composed context _ _ _) fun _ =>
      .bind (expect_composed context _ _ _) fun _ => .pure _
  unfold binary
  split
  iterate 2 exact logical _
  iterate 6 exact comparison_composed context _ _ _ _ _ _
  exact arithmetic_composed context _ _ _ _ _ _

theorem cast_composed (pos : Position) (operand : TypedCode) (type : TypeTree) :
    Composed context.manager (cast context pos operand type) := by
  unfold cast
  dsimp only
  split
  · exact fail_composed context _ rfl
  · refine .ite (fail_composed context _ rfl) ?_
    split
    · exact .pure _
    · exact .pure _
    · exact .pure _
    · exact .ite (.pure _) (fail_composed context _ rfl)
    · exact fail_composed context _ rfl

theorem method_composed (receiver : TypedCode) (ident : Ident) :
    Composed context.manager (method context receiver ident) := by
  unfold method
  split
  · exact .pure _
  · refine .ite (.pure _) (.ite (.pure _) (.ite (.pure _) (.ite (.pure _) ?_)))
    exact fail_composed context _ rfl

/-! ## Calls -/

omit [Nonempty σ] in
theorem constructorsOf_composed (unit : String) :
    Check.Composed context.manager (constructorsOf context unit) := by
  unfold constructorsOf
  split
  · exact .pure _
  · exact .bind (.unit _) fun _ => .pure _

theorem expectArguments_composed (types : List (Option TypeRef))
    (args : List (Position × TypedCode)) :
    Composed context.manager (expectArguments context types args) := by
  induction types generalizing args with
  | nil => exact .pure _
  | cons expected types ih =>
      cases args with
      | nil => exact .pure _
      | cons arg args => exact .bind (expect_composed context _ _ _) fun _ => ih args

theorem textCall_composed (pos : Position) (function : String)
    (args : List (Position × TypedCode)) :
    Composed context.manager (textCall context pos function args) := by
  unfold textCall
  refine .ite (.ite (.pure _) (fail_composed context _ rfl))
    (.ite ?_ (fail_composed context _ rfl))
  split
  · exact .ite (.pure _) (.bind (expect_composed context _ _ _) fun _ => .pure _)
  · exact fail_composed context _ rfl

theorem constructorCall_composed (pos functionPos : Position) (unit function : String)
    (args : List (Position × TypedCode)) :
    Composed context.manager (constructorCall context pos functionPos unit function args) := by
  refine .bind (.check (constructorsOf_composed context unit)) ?_
  intro constructors
  split
  · exact fail_composed context _ rfl
  · refine .ite (fail_composed context _ rfl) ?_
    exact .bind (expectArguments_composed context _ _) fun _ => .pure _

theorem call_composed (pos functionPos : Position) (names : List String)
    (args : List (Position × TypedCode)) :
    Composed context.manager (call context pos functionPos names args) := by
  unfold call
  split
  · exact fail_composed context _ rfl
  · exact textCall_composed context _ _ _
  · refine .bind (.check (context.decls.resolveUnit_composed _ _ _)) ?_
    intro unit
    cases unit with
    | none => exact .bind (giveUp_composed context) fun _ => .pure _
    | some unit => exact constructorCall_composed context _ _ _ _ _

/-! ## Expressions -/

theorem atLimit_composed (tree : ExprTree) :
    Composed context.manager (atLimit context tree) := by
  refine .get_bind (fun _ _ => rfl) ?_
  intro state
  refine .ite ?_ ?_
  · exact .bind (giveUp_composed context) fun _ => .pure _
  · exact .bind (.modify fun _ _ => rfl) fun _ => fail_composed context _ rfl

theorem expr_exprs_composed :
    (∀ depth tree, Composed context.manager (expr context depth tree)) ∧
    ∀ depth trees, Composed context.manager (exprs context depth trees) := by
  apply expr_exprs_induct (P := fun _ _ step => Composed context.manager step)
    (Q := fun _ _ step => Composed context.manager step)
  case limit =>
    intro tree
    exact atLimit_composed context tree
  case refused =>
    intro depth above tree pos problem form
    exact fail_composed context _ (by cases form <;> rfl)
  case literal =>
    intro depth above pos place value
    exact literal_composed context _ _ _
  case minusLiteral =>
    intro depth above pos place start literalPlace value
    exact literal_composed context _ _ _
  case paren =>
    intro depth above pos opening inner ih
    exact ih
  case path =>
    intro depth above pos qualified names
    exact namedValue_composed context _ _ _
  case minus =>
    intro depth above pos place operand other ih
    exact .bind ih fun _ => unary_composed context _ _ _
  case not =>
    intro depth above pos place operand ih
    exact .bind ih fun _ => unary_composed context _ _ _
  case binary =>
    intro depth above pos place op left right found symbol known ihLeft ihRight
    exact .bind ihLeft fun _ => .bind ihRight fun _ => binary_composed context _ _ _ _ _ _ _
  case cast =>
    intro depth above pos place operand type ih
    exact .bind ih fun _ => cast_composed context _ _ _
  case method =>
    intro depth above pos receiver ident ih
    exact .bind ih fun _ => method_composed context _ _
  case methodArguments =>
    intro depth above pos receiver ident first rest ih
    exact .bind ih fun _ => fail_composed context _ rfl
  case call =>
    intro depth above pos opening functionPos names args ih
    refine .bind (.check (context.decls.plainNames_composed _)) ?_
    intro names
    cases names with
    | none => exact .bind (giveUp_composed context) fun _ => .pure _
    | some names => exact .bind ih fun _ => call_composed context _ _ _ _
  case reference =>
    intro depth above pos place operand ih
    exact .bind ih fun _ => .ite (.pure _) (fail_composed context _ rfl)
  case nil =>
    intro depth
    exact .pure _
  case cons =>
    intro depth first rest ih ihRest
    exact .bind ih fun _ => .bind ihRest fun _ => .pure _

theorem expr_composed (depth : Nat) (tree : ExprTree) :
    Composed context.manager (expr context depth tree) :=
  (expr_exprs_composed context).1 depth tree

/-! ## Statements and literals -/

theorem statement_composed (tree : StmtTree) :
    Composed context.manager (statement context tree) := by
  have finish (ident : Ident) (code : Expr) (type : Option TypeRef) :
      Composed context.manager (statement.finish (σ := σ) ident code type) :=
    .bind (bind_composed context _ _ _) fun _ => .pure _
  apply statement_forms (P := fun _ step => Composed context.manager step)
  case refused =>
    intro tree pos problem form
    exact refuse_composed context none pos (by cases form <;> rfl)
  case binding =>
    intro pos start ident type value
    apply (expr_composed context 0 value).bind
    intro found
    cases type with
    | none => exact finish _ _ _
    | some tree =>
        refine .bind (.check (context.decls.resolveType_composed _ _)) ?_
        intro declared
        cases declared with
        | none => exact .bind (giveUp_composed context) fun _ => finish _ _ _
        | some type => exact .bind (expect_composed context _ _ _) fun _ => finish _ _ _

theorem literalFields_composed (owner : UnitSig) (done : List (Nat × Expr))
    (fields : List (String × Position × ExprTree)) :
    Composed context.manager (literalFields context owner done fields) := by
  induction fields generalizing done with
  | nil => exact .pure _
  | cons first rest ih =>
      obtain ⟨name, pos, value⟩ := first
      unfold literalFields
      split
      · exact .bind (complain_composed context _ rfl) fun _ => ih _
      · refine .ite (.bind (complain_composed context _ rfl) fun _ => ih _) ?_
        apply (expr_composed context 0 value).bind
        intro found
        exact .bind (expect_composed context _ _ _) fun _ => ih _

theorem expectFields_composed (pos : Position) (owner : UnitSig) (done : List (Nat × Expr)) :
    Composed context.manager (expectFields context pos owner done) :=
  .ite (complain_composed context _ rfl) (.pure _)

theorem final_composed (tree : ExprTree) : Composed context.manager (final context tree) := by
  have elsewhere (tree : ExprTree) : Composed context.manager (final.other context tree) := by
    apply (expr_composed context 0 tree).bind
    intro found
    cases found.type with
    | none => exact .pure _
    | some type =>
        exact .ite (.bind (complain_composed context _ rfl) fun _ => .pure _)
          (.bind (complain_composed context _ rfl) fun _ => .pure _)
  cases tree with
  | path pos qualified names =>
      refine .get_bind (fun _ _ => rfl) ?_
      intro state
      dsimp only
      split
      · exact .bind (expectFields_composed context _ _ _) fun _ => .pure _
      · exact elsewhere _
  | structLiteral pos qualified names fields base =>
      have filled : Composed context.manager (do
          let done ← literalFields context context.owner [] fields
          expectFields context names.pos context.owner done
          return initOf context.owner done) :=
        .bind (literalFields_composed context _ _ _) fun done =>
          .bind (expectFields_composed context _ _ _) fun _ => .pure _
      refine .ite (refuse_composed context _ _ rfl) ?_
      cases base with
      | none => exact filled
      | some base => exact .bind (complain_composed context _ rfl) fun _ => filled
  | _ => exact elsewhere _

/-! ## Constructors -/

theorem conclude_composed (sig : ConstructorSig) (body : List Stmt) (init : List Expr) :
    Composed context.manager (conclude context sig body init) := by
  refine .get_bind (fun _ _ => rfl) ?_
  intro state
  refine .bind (.forM (fun binding => ?_) _) ?_
  · exact .check (context.decls.complain_composed _ rfl)
  · intro _
    exact .get_bind (fun _ _ => rfl) fun state => .ite (.pure _) (.pure _)

theorem constructor_composed (sig : ConstructorSig) (function : FunctionTree) :
    Composed context.manager (constructor context sig function) := by
  rw [constructor_eq]
  refine .bind (.forM (fun param => ?_) _) fun _ => ?_
  · exact .bind (bind_composed context _ _ _) fun _ => .pure _
  refine .bind (.filterMapM (statement_composed context) _) ?_
  intro body
  cases (splitBody function.body).2 with
  | none =>
      exact .bind (complain_composed context _ rfl) fun _ => conclude_composed context _ _ _
  | some tree => exact .bind (final_composed context tree) fun _ => conclude_composed context _ _ _

end Lower

/-! ## Images -/

namespace UnitSig

variable [Nonempty σ] (manager : FileManager σ) (decls : Declarations) (sigs : List UnitSig)

theorem lowerConstructor_composed (owner : UnitSig) (sig : ConstructorSig) :
    Check.Composed manager (lowerConstructor manager decls sigs owner sig) := by
  obtain ⟨name, params, function⟩ := sig
  cases function with
  | none => exact .pure _
  | some function =>
      let sig : ConstructorSig := { name, params, function := some function }
      let context : LoweringContext σ := { manager, decls, sigs, owner }
      let start : Lower.Notes := { scope := [], reportedDepth := false, complete := true }
      have step : Check.Composed manager
          (Prod.fst <$> Lower.onSession (Lower.constructor context sig function) start) :=
        .map Prod.fst (Lower.constructor_composed context sig function start)
      exact step

theorem lower_composed (owner : UnitSig) :
    Check.Composed manager (lower manager decls sigs owner) :=
  .bind (.mapM (lowerConstructor_composed manager decls sigs owner) _) fun _ => .pure _

theorem lowerAll_composed : Check.Composed manager (lowerAll manager decls sigs) :=
  .bind (.mapM (lower_composed manager decls sigs) _) fun _ => .pure _

end UnitSig

end UnitForge
