import UnitForge.Proofs.Dialect.Resolution
import UnitForge.Proofs.Lowering.Forms

/-! # Steps of lowering

The lowering of a constructor never takes back that it is incomplete, and it is incomplete only
because something was reported: giving up without a word would let a source compile to nothing. An
expression leaves the names and types of the scope as they are. -/
set_option autoImplicit false
namespace UnitForge

variable {σ : Type}

def Scope.locals (scope : Scope) : List (String × Option TypeRef) :=
  scope.map fun binding => (binding.name, binding.type)

namespace Lowering

/-- Whatever makes a lowering incomplete has been reported. -/
structure Accounted (state : Lowering σ) : Prop where
  depth : state.reportedDepth = true → state.complete = false
  missing : state.complete = false → ¬state.session.Clean

/-- A later state of the lowering of a constructor. -/
structure Extends (context : LoweringContext σ) (before after : Lowering σ) : Prop where
  session : before.session.Extends context.manager after.session
  complete : after.complete = true → before.complete = true
  accounted : context.decls.Resolved → before.Accounted → after.Accounted

structure Keeps (context : LoweringContext σ) (before after : Lowering σ) : Prop
    extends Extends context before after where
  locals : after.scope.locals = before.scope.locals

variable {context : LoweringContext σ}

theorem Extends.refl (state : Lowering σ) : state.Extends context state :=
  ⟨.refl _, id, fun _ accounted => accounted⟩

theorem Extends.trans {first second third : Lowering σ} (h : first.Extends context second)
    (k : second.Extends context third) : first.Extends context third where
  session := h.session.trans k.session
  complete done := h.complete (k.complete done)
  accounted resolved accounted := k.accounted resolved (h.accounted resolved accounted)

instance : IsPreorder (Lowering σ) (Extends context) where
  refl := Extends.refl
  trans _ _ _ := Extends.trans

theorem Keeps.refl (state : Lowering σ) : state.Keeps context state :=
  ⟨.refl _, rfl⟩

theorem Keeps.trans {first second third : Lowering σ} (h : first.Keeps context second)
    (k : second.Keeps context third) : first.Keeps context third :=
  ⟨h.toExtends.trans k.toExtends, k.locals.trans h.locals⟩

instance : IsPreorder (Lowering σ) (Keeps context) where
  refl := Keeps.refl
  trans _ _ _ := Keeps.trans

end Lowering

namespace Lower

open Step Lowering

variable {context : LoweringContext σ} {α β : Type}

abbrev Keeps (context : LoweringContext σ) {α : Type} (step : Lower σ α) : Prop :=
  Within (Lowering.Keeps context) step

theorem check_keeps {step : Check σ α} (grows : Check.Extends context.manager step) :
    Keeps context (check step) := fun before => {
  session := grows before.session
  complete := id
  accounted := fun _ accounted =>
    ⟨accounted.depth, fun incomplete clean =>
      accounted.missing incomplete ((grows before.session).clean clean)⟩
  locals := rfl }

theorem giveUp_keeps {before : Lowering σ}
    (reported : context.decls.Resolved → before.Accounted → ¬before.session.Clean) :
    before.Keeps context (giveUp before).2 where
  session := .refl _
  complete := nofun
  accounted resolved accounted := ⟨fun _ => rfl, fun _ => reported resolved accounted⟩
  locals := rfl

theorem complain_keeps {pos : Position} {problem : Problem} (grave : problem.severity = .error) :
    Keeps context (complain context pos problem) := fun before =>
  have told : before.Keeps context (check (context.decls.complain pos problem) before).2 :=
    check_keeps (Declarations.complain_extends pos problem) before
  told.trans (giveUp_keeps fun _ _ => Declarations.not_clean_complain grave _)

theorem complain_then_keeps {pos : Position} {problem : Problem} {next : Lower σ α}
    (grave : problem.severity = .error) (rest : Keeps context next) :
    Keeps context (do complain context pos problem; next) :=
  .bind (complain_keeps grave) fun _ => rest

theorem not_complete_of_complain {pos : Position} {problem : Problem} {before after : Lowering σ}
    {value : Unit} (run : complain context pos problem before = (value, after)) :
    after.complete = false := by
  obtain ⟨_, middle, _, run⟩ := bind_run run
  cases run
  rfl

theorem fail_keeps {pos : Position} {problem : Problem} (grave : problem.severity = .error) :
    Keeps context (fail context pos problem) :=
  .bind (complain_keeps grave) fun _ => .pure _

theorem mismatch_keeps (pos : Position) (expected found : TypeRef) :
    Keeps context (mismatch context pos expected found) :=
  complain_keeps rfl

theorem expect_keeps (pos : Position) (expected found : Option TypeRef) :
    Keeps context (expect context pos expected found) := by
  unfold expect
  split
  · exact .ite (mismatch_keeps _ _ _) (.pure _)
  · exact .pure _

/-! ## Leaves -/

theorem literal_keeps (negated : Bool) (place : Position) (value : Source.Literal) :
    Keeps context (literal context negated place value) := by
  unfold literal
  cases value with
  | int value suffix =>
      refine .ite (.pure _) (.ite (.pure _) ?_)
      exact fail_keeps rfl
  | float digits suffix =>
      refine .ite (.pure _) ?_
      exact fail_keeps rfl
  | bool value =>
      refine .ite ?_ (.pure _)
      exact fail_keeps rfl
  | str value =>
      refine .ite ?_ (.pure _)
      exact fail_keeps rfl
  | other => exact fail_keeps rfl

theorem locals_use (scope : Scope) (slot : Nat) : (scope.use slot).locals = scope.locals := by
  apply List.ext_getElem?
  intro index
  simp only [Scope.use, Scope.locals, List.getElem?_map, List.getElem?_modify]
  cases scope[index]? with
  | none => rfl
  | some binding => by_cases same : slot = index <;> simp [same]

theorem use_keeps (slot : Nat) :
    Keeps context (modify fun (state : Lowering σ) =>
      { state with scope := state.scope.use slot }) := fun _ => {
  session := .refl _
  complete := id
  accounted := fun _ accounted => ⟨accounted.depth, accounted.missing⟩
  locals := locals_use _ _ }

theorem namedValue_keeps (pos : Position) (qualified : Bool) (names : Source.NamePath) :
    Keeps context (namedValue context pos qualified names) := by
  unfold namedValue
  split
  · exact fail_keeps rfl
  · refine .bind .get ?_
    intro state
    split
    · exact fail_keeps rfl
    · exact .bind (use_keeps _) fun _ => .pure _

/-! ## Operators -/

theorem unary_keeps (pos : Position) (op : UnaryOp) (operand : TypedCode) :
    Keeps context (unary context pos op operand) := by
  unfold unary
  split
  split
  · refine .ite (.pure _) ?_
    exact fail_keeps rfl
  · exact .pure _

theorem logical_keeps (op : BinaryOp) (leftPos rightPos : Position) (left right : TypedCode) :
    Keeps context (logical context op leftPos rightPos left right) :=
  .bind (expect_keeps _ _ _) fun _ => .bind (expect_keeps _ _ _) fun _ => .pure _

theorem comparison_keeps (op : BinaryOp) (symbol : String) (place rightPos : Position)
    (left right : TypedCode) :
    Keeps context (comparison context op symbol place rightPos left right) := by
  unfold comparison
  dsimp only
  split
  · refine .ite (complain_then_keeps rfl (.pure _)) ?_
    exact .ite (complain_then_keeps rfl (.pure _)) (.pure _)
  · exact .pure _

theorem arithmetic_keeps (op : BinaryOp) (symbol : String) (place rightPos : Position)
    (left right : TypedCode) :
    Keeps context (arithmetic context op symbol place rightPos left right) := by
  unfold arithmetic
  refine .ite (.pure _) ?_
  split
  · exact .pure _
  · refine .ite (.bind (expect_keeps _ _ _) fun _ => .pure _) (.ite (.pure _) ?_)
    exact fail_keeps rfl

theorem binary_keeps (op : BinaryOp) (symbol : String) (place leftPos rightPos : Position)
    (left right : TypedCode) :
    Keeps context (binary context op symbol place leftPos rightPos left right) := by
  unfold binary
  split
  all_goals first
    | exact logical_keeps _ _ _ _ _
    | exact comparison_keeps _ _ _ _ _ _
    | exact arithmetic_keeps _ _ _ _ _ _

theorem cast_keeps (pos : Position) (operand : TypedCode) (type : Source.TypeTree) :
    Keeps context (cast context pos operand type) := by
  unfold cast
  dsimp only
  split
  · exact fail_keeps rfl
  · refine .ite ?_ ?_
    · exact fail_keeps rfl
    · split
      · exact .pure _
      · exact .pure _
      · exact .pure _
      · refine .ite (.pure _) ?_
        exact fail_keeps rfl
      · exact fail_keeps rfl

theorem method_keeps (receiver : TypedCode) (ident : Source.Ident) :
    Keeps context (method context receiver ident) := by
  unfold method
  split
  · exact .pure _
  · refine .ite (.pure _) (.ite (.pure _) (.ite (.pure _) (.ite (.pure _) ?_)))
    exact fail_keeps rfl

/-! ## Calls -/

theorem constructorsOf_extends (unit : String) :
    Check.Extends context.manager (constructorsOf context unit) := by
  unfold constructorsOf
  split
  · exact .pure _
  · exact .bind (Session.classPathUnit_extends _) fun _ => .pure _

theorem expectArguments_keeps (types : List (Option TypeRef))
    (args : List (Position × TypedCode)) : Keeps context (expectArguments context types args) := by
  induction types generalizing args with
  | nil => exact .pure _
  | cons expected types ih =>
      cases args with
      | nil => exact .pure _
      | cons arg args => exact .bind (expect_keeps _ _ _) fun _ => ih args

theorem textCall_keeps (pos : Position) (function : String) (args : List (Position × TypedCode)) :
    Keeps context (textCall context pos function args) := by
  unfold textCall
  have count (expected : Nat) :
      Keeps context (fail context pos (.argumentCount expected args.length)) := fail_keeps rfl
  refine .ite (.ite (.pure _) (count _)) (.ite ?_ ?_)
  · split
    · exact .ite (.pure _) (.bind (expect_keeps _ _ _) fun _ => .pure _)
    · exact count _
  · exact fail_keeps rfl

theorem constructorCall_keeps (pos functionPos : Position) (unit function : String)
    (args : List (Position × TypedCode)) :
    Keeps context (constructorCall context pos functionPos unit function args) := by
  apply (check_keeps (constructorsOf_extends unit)).bind
  intro constructors
  split
  · exact fail_keeps rfl
  · refine .ite ?_ (.bind (expectArguments_keeps _ _) fun _ => .pure _)
    exact fail_keeps rfl

theorem bind_check_within {R : Lowering σ → Lowering σ → Prop} [IsTrans _ R]
    (weaker : ∀ before after, before.Keeps context after → R before after)
    {step : Check σ (Option α)} {next : Option α → Lower σ β}
    (grows : Check.Extends context.manager step)
    (reported : ∀ before after, step before = (none, after) → context.decls.Resolved →
      ¬after.Clean)
    (missing : ∀ before, R before (giveUp before).2 → R before (next none before).2)
    (found : ∀ value, Within R (next (some value))) : Within R (check step >>= next) := by
  intro before
  have first : R before (check step before).2 := weaker _ _ (check_keeps grows before)
  rcases run : step before.session with ⟨answer, after⟩
  have same : check step before = (answer, { before with session := after }) := by
    simp only [check, run]
  rw [same] at first
  change R before (next (check step before).1 (check step before).2).2
  rw [same]
  cases answer with
  | some value => exact IsTrans.trans _ _ _ first (found value _)
  | none =>
      refine IsTrans.trans _ _ _ first (missing _ (weaker _ _ (giveUp_keeps ?_)))
      intro resolved _
      exact reported _ _ run resolved

theorem plainNames_reported {path : Source.NamePath} (before after : Session σ)
    (run : context.decls.plainNames path before = (none, after))
    (_ : context.decls.Resolved) : ¬after.Clean := by
  rcases Declarations.plainNames_run run with ⟨absurd, -⟩ | ⟨-, reported⟩
  · cases absurd
  · exact reported

theorem call_keeps (pos functionPos : Position) (names : List String)
    (args : List (Position × TypedCode)) :
    Keeps context (call context pos functionPos names args) := by
  unfold call
  split
  · exact fail_keeps rfl
  · exact textCall_keeps _ _ _
  · have reported (owner : String) (before after : Session σ)
        (run : context.decls.resolveUnit context.manager owner names.dropLast functionPos before =
          (none, after)) : context.decls.Resolved → ¬after.Clean :=
      (Declarations.resolveUnit_run run .rfl).2 rfl
    apply bind_check_within (fun _ _ keeps => keeps) (Declarations.resolveUnit_extends _ _ _)
      (reported _) (fun _ gaveUp => gaveUp)
    intro unit
    exact constructorCall_keeps _ _ _ _ _

/-! ## Expressions -/

theorem atLimit_keeps (tree : Source.ExprTree) : Keeps context (atLimit context tree) := by
  intro ⟨session, scope, reportedDepth, complete⟩
  cases reportedDepth with
  | true => exact giveUp_keeps fun _ accounted => accounted.missing (accounted.depth rfl)
  | false => exact {
      session := Declarations.complain_extends (headPos tree) (.tooDeep maxExprDepth) session
      complete := nofun
      accounted := fun _ _ =>
        ⟨fun _ => rfl, fun _ => Declarations.not_clean_complain rfl session⟩
      locals := rfl }

theorem expr_exprs_keeps :
    (∀ depth tree, Keeps context (expr context depth tree)) ∧
      ∀ depth trees, Keeps context (exprs context depth trees) := by
  apply expr_exprs_induct (P := fun _ _ step => Keeps context step)
    (Q := fun _ _ step => Keeps context step)
  case limit =>
    intro tree
    exact atLimit_keeps tree
  case refused =>
    intro depth above tree pos problem form
    exact fail_keeps form.severity
  case literal =>
    intro depth above pos place value
    exact literal_keeps _ _ _
  case minusLiteral =>
    intro depth above pos place start literalPlace value
    exact literal_keeps _ _ _
  case paren =>
    intro depth above pos opening inner ih
    exact ih
  case path =>
    intro depth above pos qualified names
    exact namedValue_keeps _ _ _
  case minus =>
    intro depth above pos place operand other ih
    exact .bind ih fun _ => unary_keeps _ _ _
  case not =>
    intro depth above pos place operand ih
    exact .bind ih fun _ => unary_keeps _ _ _
  case binary =>
    intro depth above pos place op left right found symbol known ihLeft ihRight
    exact .bind ihLeft fun _ => .bind ihRight fun _ => binary_keeps _ _ _ _ _ _ _
  case cast =>
    intro depth above pos place operand type ih
    exact .bind ih fun _ => cast_keeps _ _ _
  case method =>
    intro depth above pos receiver ident ih
    exact .bind ih fun _ => method_keeps _ _
  case methodArguments =>
    intro depth above pos receiver ident first rest ih
    exact .bind ih fun _ => fail_keeps rfl
  case call =>
    intro depth above pos opening functionPos names args ih
    apply bind_check_within (fun _ _ keeps => keeps) (Declarations.plainNames_extends _)
      plainNames_reported (fun _ gaveUp => gaveUp)
    intro names
    exact .bind ih fun _ => call_keeps _ _ _ _
  case reference =>
    intro depth above pos place operand ih
    exact .bind ih fun _ => .ite (.pure _) (fail_keeps rfl)
  case nil =>
    intro depth
    exact .pure _
  case cons =>
    intro depth first rest ih ihRest
    exact .bind ih fun _ => .bind ihRest fun _ => .pure _

theorem expr_keeps (depth : Nat) (tree : Source.ExprTree) :
    Keeps context (expr context depth tree) :=
  expr_exprs_keeps.1 depth tree

theorem exprs_keeps (depth : Nat) (trees : List Source.ExprTree) :
    Keeps context (exprs context depth trees) :=
  expr_exprs_keeps.2 depth trees

/-! ## Statements and literals -/

abbrev Grows (context : LoweringContext σ) {α : Type} (step : Lower σ α) : Prop :=
  Within (Lowering.Extends context) step

theorem Keeps.grows {step : Lower σ α} (keeps : Keeps context step) : Grows context step :=
  fun before => (keeps before).toExtends

theorem bind_grows (name : String) (type : Option TypeRef) (pos : Position) :
    Grows context (bind name type pos) := fun _ => {
  session := .refl _
  complete := id
  accounted := fun _ accounted => ⟨accounted.depth, accounted.missing⟩ }

theorem resolveType_reported {owner : String} {tree : Source.TypeTree} (before after : Session σ)
    (run : context.decls.resolveType context.manager owner tree before = (none, after))
    (resolved : context.decls.Resolved) : ¬after.Clean :=
  Declarations.resolveType_known run resolved

theorem statement_grows (tree : Source.StmtTree) : Grows context (statement context tree) := by
  have finish (ident : Source.Ident) (code : Expr) (type : Option TypeRef) :
      Grows context (statement.finish (σ := σ) ident code type) :=
    .bind (bind_grows _ _ _) fun _ => .pure _
  apply statement_forms (P := fun _ step => Grows context step)
  case refused =>
    intro tree pos problem form
    exact .bind (complain_keeps form.severity).grows fun _ => .pure _
  case binding =>
    intro pos start ident type value
    unfold statement.bindTo
    refine .bind (expr_keeps 0 _).grows ?_
    intro found
    split
    · exact finish _ _ _
    · apply bind_check_within (fun _ _ keeps => keeps.toExtends)
        (Declarations.resolveType_extends _ _) resolveType_reported
        (fun _ gaveUp => gaveUp.trans (finish _ _ _ _))
      intro _
      exact .bind (expect_keeps _ _ _).grows fun _ => finish _ _ _

theorem literalFields_keeps (owner : UnitSig)
    (fields : List (String × Position × Source.ExprTree)) (done : List (Nat × Expr)) :
    Keeps context (literalFields context owner done fields) := by
  induction fields generalizing done with
  | nil => exact .pure _
  | cons first rest ih =>
      obtain ⟨name, pos, value⟩ := first
      unfold literalFields
      split
      · exact complain_then_keeps rfl (ih _)
      · refine .ite (complain_then_keeps rfl (ih _)) ?_
        apply (expr_keeps 0 value).bind
        intro code
        exact .bind (expect_keeps _ _ _) fun _ => ih _

theorem expectFields_keeps (pos : Position) (owner : UnitSig) (done : List (Nat × Expr)) :
    Keeps context (expectFields context pos owner done) := by
  refine .ite ?_ (.pure _)
  exact complain_keeps rfl

theorem final_keeps (tree : Source.ExprTree) : Keeps context (final context tree) := by
  have other (tree : Source.ExprTree) : Keeps context (final.other context tree) := by
    apply (expr_keeps 0 tree).bind
    intro found
    dsimp only
    split
    · exact .ite (complain_then_keeps rfl (.pure _)) (complain_then_keeps rfl (.pure _))
    · exact .pure _
  unfold final
  dsimp only
  split
  · refine .bind .get ?_
    intro _
    split
    · exact .bind (expectFields_keeps _ _ _) fun _ => .pure _
    · exact other _
  · have literal (fields : List (String × Position × Source.ExprTree)) (pos : Position) :
        Keeps context (do
          let done ← literalFields context context.owner [] fields
          expectFields context pos context.owner done
          return initOf context.owner done) :=
      .bind (literalFields_keeps _ _ _) fun _ => .bind (expectFields_keeps _ _ _) fun _ => .pure _
    refine .ite (complain_then_keeps rfl (.pure _)) ?_
    split
    · exact complain_then_keeps rfl (literal _ _)
    · exact literal _ _
  · exact other _

/-! ## Constructors -/

theorem conclude_grows (sig : ConstructorSig) (body : List Stmt) (init : List Expr) :
    Grows context (conclude context sig body init) := by
  refine .bind .get ?_
  intro state
  have warns (binding : Binding) :
      Grows context (check (context.decls.complain binding.pos (.unusedVariable binding.name))) :=
    (check_keeps (Declarations.complain_extends _ _)).grows
  refine .bind (.forM warns _) ?_
  intro _
  exact .bind .get fun _ => .ite (.pure _) (.pure _)

theorem constructor_grows (sig : ConstructorSig) (function : Source.FunctionTree) :
    Grows context (constructor context sig function) := by
  rw [constructor_eq]
  refine .bind (.forM (fun param => .bind (bind_grows _ _ _) fun _ => .pure _) _) ?_
  intro _
  refine .bind (.filterMapM statement_grows _) ?_
  intro body
  split
  · exact .bind (final_keeps _).grows fun _ => conclude_grows _ _ _
  · exact .bind (complain_keeps rfl).grows fun _ => conclude_grows _ _ _

end Lower

end UnitForge
