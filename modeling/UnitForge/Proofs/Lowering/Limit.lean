import UnitForge.Proofs.Lowering.Bodies
import UnitForge.Proofs.Lowering.Unlimited

/-! # The limit on nesting

A body is compared with the same body lowered without a limit. A constructor without an error but
the depth of its expressions is told of the depth once where an initialiser nests too deeply, and of
no error otherwise. -/
set_option autoImplicit false
namespace UnitForge

open Source Step

variable {σ : Type}

namespace Lower

namespace Shadows

variable {α β α' β' : Type} {context : LoweringContext σ} {view : ClassPathView}
  {P : α' → β' → Prop} {Q : α → β → Prop} {depth deeper : Nat}

/-! ## Statements -/

theorem finish (ident : Ident) (code code' : Expr) {type type' : Option TypeRef}
    (vaguer : Vaguer type type') :
    Shadows context view (Lower.statement.finish ident code type)
      (Lower.statement.finish ident code' type') fun found other => found.isSome = other.isSome :=
  fun _ _ scopes _ _ _ => ⟨Session.Silent.tellsDepth rfl, scopes.concat rfl vaguer, rfl⟩

theorem bindDeclared (ident : Ident) (pos : Position) {found other : TypedCode}
    (vaguer : Vaguer found.type other.type) (declared : Option TypeRef) :
    Shadows context view (Lower.bindDeclared context ident pos found declared)
      (Lower.bindDeclared context ident pos other declared)
      fun found other => found.isSome = other.isSome := by
  have goesOn (code : Expr) (type : Option TypeRef) :
      Onward context (Lower.statement.finish (σ := σ) ident code type) :=
    (finish_grows _ _ _).onward
  cases declared with
  | none =>
      apply bind (fun _ => goesOn _ _) (fun _ => goesOn _ _) giveUp_onward giveUp
      intro _ _ _
      exact finish _ _ _ (.refl _)
  | some declared =>
      apply bind (fun _ => goesOn _ _) (fun _ => goesOn _ _) (expect_keeps _ _ _).onward
        (expect _ _ vaguer)
      intro _ _ _
      exact finish _ _ _ (.refl _)

theorem bindTo (below : maxExprDepth < deeper) (ident : Ident) (type : Option TypeTree)
    (value : ExprTree) :
    Shadows context view (bindToFrom context depth ident type value)
      (bindToFrom context deeper ident type value)
      fun found other => found.isSome = other.isSome := by
  have lowered : Fades context view (expr context depth value) (expr context deeper value) :=
    expr_exprs.1 depth value deeper below
  apply bind (fun _ => bindFound_onward _ _ _ _) (fun _ => bindFound_onward _ _ _ _)
    (expr_keeps deeper value).onward lowered
  intro typed found vaguer
  cases type with
  | none => exact finish _ _ _ vaguer
  | some tree =>
      apply bind (fun _ => bindDeclared_onward _ _ _ _) (fun _ => bindDeclared_onward _ _ _ _)
        (check_keeps (Declarations.resolveType_extends _ _)).onward
        (check (Declarations.resolveType_repeats _ tree))
      intro declared declared' same
      subst same
      exact bindDeclared ident value.pos vaguer declared

theorem statement_refuses {tree : StmtTree} (unbound : ∀ pos start ident type value,
    tree ≠ .binding pos (.ident start true ident) type (some value) none) :
    Refuses (Lower.statement context tree) := by
  revert unbound
  apply statement_forms (P := fun tree step => (∀ pos start ident type value,
    tree ≠ .binding pos (.ident start true ident) type (some value) none) → Refuses step)
  case refused =>
    intro tree pos problem form _
    exact .andThen context (.complain form.severity) fun _ => .pure _
  case binding =>
    intro pos start ident type value unbound
    exact absurd rfl (unbound _ _ _ _ _)

theorem statement (below : maxExprDepth < deeper) (tree : StmtTree) :
    Shadows context view (statementFrom context depth tree) (statementFrom context deeper tree)
      fun found other => found.isSome = other.isSome := by
  unfold statementFrom
  split
  · exact bindTo below _ _ _
  · rename_i unbound
    exact refused (statement_refuses unbound)

theorem filterMapM {f f' : α' → Lower σ (Option α)} (onward : ∀ item, Onward context (f item))
    (onward' : ∀ item, Onward context (f' item))
    (each : ∀ item, Shadows context view (f item) (f' item)
      fun found other => found.isSome = other.isSome) (items : List α') :
    Shadows context view (items.filterMapM f) (items.filterMapM f') fun _ _ => True := by
  induction items with
  | nil => exact pure trivial
  | cons first rest ih =>
      have goesOn {f : α' → Lower σ (Option α)} (onward : ∀ item, Onward context (f item))
          (found : Option α) : Onward context (match found with
            | none => rest.filterMapM f
            | some value => do return value :: (← rest.filterMapM f)) := by
        cases found with
        | none => exact .filterMapM onward rest
        | some value => exact .bind (.filterMapM onward rest) fun _ => .pure _
      rw [List.filterMapM_cons, List.filterMapM_cons]
      apply bind (goesOn onward) (goesOn onward') (onward' first) (each first)
      intro found other same
      cases found with
      | none =>
          cases other with
          | none => exact ih
          | some value => cases same
      | some value =>
          cases other with
          | none => cases same
          | some value' =>
              apply ending (.filterMapM onward' rest) ih
              intro _ _ _
              exact trivial

/-! ## The final expression -/

/-- The same fields, whatever their code. -/
def SameKeys (done others : List (Nat × Expr)) : Prop :=
  List.Forall₂ (fun here there => here.1 = there.1) done others

theorem SameKeys.lookup {done others : List (Nat × Expr)} (same : SameKeys done others)
    (index : Nat) : (done.lookup index).isSome = (others.lookup index).isSome := by
  induction same with
  | nil => rfl
  | @cons here there done others first _ ih =>
      rw [List.lookup_cons, List.lookup_cons, first]
      split
      · rfl
      · exact ih

theorem literalFields (below : maxExprDepth < deeper) (owner : UnitSig)
    (fields : List (String × Position × ExprTree)) {done others : List (Nat × Expr)}
    (same : SameKeys done others) :
    Shadows context view (literalFieldsFrom context depth owner done fields)
      (literalFieldsFrom context deeper owner others fields) SameKeys := by
  induction fields generalizing done others with
  | nil => exact pure same
  | cons first rest ih =>
      obtain ⟨name, pos, value⟩ := first
      have goesOn (depth : Nat) (done : List (Nat × Expr)) :
          Onward context (literalFieldsFrom context depth owner done rest) :=
        (literalFieldsFrom_keeps _ _ _).onward
      unfold literalFieldsFrom
      split
      · exact refused (.andThen context (.complain rfl) fun _ => goesOn _ _)
      · rw [same.lookup]
        apply ite (refused (.andThen context (.complain rfl) fun _ => goesOn _ _))
        apply bind
        case onward | onward' =>
          intro _
          exact .bind (expect_keeps _ _ _).onward fun _ => goesOn _ _
        case keeps => exact (expr_keeps _ _).onward
        case first => exact expr_exprs.1 depth value deeper below
        case rest =>
          intro typed found vaguer
          apply bind (fun _ => goesOn _ _) (fun _ => goesOn _ _) (expect_keeps _ _ _).onward
            (expect _ _ vaguer)
          intro _ _ _
          apply ih
          exact List.rel_append same (.cons rfl .nil)

theorem expectFields (pos : Position) (owner : UnitSig) {done others : List (Nat × Expr)}
    (same : SameKeys done others) :
    Shadows context view (Lower.expectFields context pos owner done)
      (Lower.expectFields context pos owner others) fun _ _ => True := by
  have none (index : Nat) : (done.lookup index).isNone = (others.lookup index).isNone := by
    rw [← Option.not_isSome, ← Option.not_isSome, same.lookup]
  have equal : Lower.expectFields context pos owner done =
      Lower.expectFields context pos owner others := by
    simp only [Lower.expectFields, none]
  rw [equal]
  exact ite (refused (.complain rfl)) (pure trivial)

theorem structLiteral (below : maxExprDepth < deeper) (pos : Position)
    (fields : List (String × Position × ExprTree)) :
    Shadows context view (structLiteralFrom context depth pos fields)
      (structLiteralFrom context deeper pos fields) fun _ _ => True := by
  apply bind
  case onward | onward' => exact fun _ => .bind (expectFields_keeps _ _ _).onward fun _ => .pure _
  case keeps => exact (literalFieldsFrom_keeps _ _ _).onward
  case first => exact literalFields below _ _ .nil
  case rest =>
    intro done others same
    apply ending (expectFields_keeps _ _ _).onward (expectFields _ _ same)
    intro _ _ _
    exact trivial

theorem other (below : maxExprDepth < deeper) (tree : ExprTree) :
    Shadows context view (otherFrom context depth tree) (otherFrom context deeper tree)
      fun _ _ => True := by
  have lowered : Fades context view (expr context depth tree) (expr context deeper tree) :=
    expr_exprs.1 depth tree deeper below
  apply bind (fun _ => (refuseFound_keeps _ _).onward) (fun _ => (refuseFound_keeps _ _).onward)
    (expr_keeps deeper tree).onward lowered
  intro typed found vaguer
  unfold refuseFound
  dsimp only
  cases known : found.type with
  | some type =>
      apply refused
      dsimp only
      split
      · exact .andThen context (.complain rfl) fun _ => .pure _
      · exact .andThen context (.complain rfl) fun _ => .pure _
  | none =>
      rw [known] at vaguer
      rw [or_self_iff.mp vaguer]
      exact pure trivial

theorem final (below : maxExprDepth < deeper) (tree : ExprTree) :
    Shadows context view (finalFrom context depth tree) (finalFrom context deeper tree)
      fun _ _ => True := by
  unfold finalFrom
  split
  · apply get_bind
    intro first second scopes
    dsimp only
    simp only [Scope.slot?_congr scopes.names]
    split
    · apply ending (expectFields_keeps _ _ _).onward (expectFields _ _ .nil)
      intro _ _ _
      exact trivial
    · exact other below _
  · apply ite (refused (.andThen context (.complain rfl) fun _ => .pure _))
    split
    · exact refused (.andThen context (.complain rfl) fun _ => (structLiteralFrom_keeps _ _).onward)
    · exact structLiteral below _ _
  · exact other below _

/-! ## Bodies -/

theorem params (params : List ParamSig) :
    Shadows context view (params.forM fun param => do
      let _ ← Lower.bind (σ := σ) param.name param.type param.pos) (params.forM fun param => do
      let _ ← Lower.bind (σ := σ) param.name param.type param.pos) fun _ _ => True := by
  intro first second scopes _ _ _
  rw [bindParams_run, bindParams_run]
  refine ⟨Session.Silent.tellsDepth rfl, ?_, trivial⟩
  have same : Scope.Vaguer (params.map paramBinding) (params.map paramBinding) :=
    List.forall₂_same.mpr fun _ _ => ⟨rfl, .refl _⟩
  rw [Scope.Vaguer, Scope.locals, Scope.locals, List.map_append, List.map_append]
  exact List.rel_append scopes same

theorem body (below : maxExprDepth < deeper) (sig : ConstructorSig) (function : FunctionTree) :
    Shadows context view (bodyFrom context depth sig function)
      (bodyFrom context deeper sig function) fun _ _ => True := by
  apply bind
  case onward | onward' =>
    intro _
    exact .bind (statementsFrom_onward _) fun _ => endFrom_onward _ _
  case keeps => exact .forM (fun _ => .bind (bind_grows _ _ _).onward fun _ => .pure _) _
  case first => exact params sig.params
  case rest =>
    intro _ _ _
    apply bind (fun _ => endFrom_onward _ _) (fun _ => endFrom_onward _ _)
      (statementsFrom_onward _)
      (filterMapM statementFrom_onward statementFrom_onward (statement below) _)
    intro found other _
    unfold endFrom
    cases (splitBody function.body).2 with
    | some tree =>
        apply ending (finalFrom_keeps _).onward (final below tree)
        intro _ _ _
        exact trivial
    | none => exact refused (.andThen context (.complain rfl) fun _ => .pure _)

end Shadows

end Lower

/-! ## Constructors -/

def Session.errorsBetween (before after : Session σ) : List Diagnostic :=
  (after.delivered.drop before.delivered.length).filter (·.severity = .error)

theorem Session.errorsBetween_eq {before after : Session σ} {told : List Diagnostic}
    (delivered : after.delivered = before.delivered ++ told) :
    before.errorsBetween after = told.filter (·.severity = .error) := by
  rw [errorsBetween, delivered, List.drop_left]

theorem WarningPolicy.apply_mild {policy : WarningPolicy} (mild : policy.deny = false)
    {diagnostic told : Diagnostic} (warns : diagnostic.severity = .warning)
    (applied : policy.apply diagnostic = some told) : told.severity = .warning := by
  rw [apply, if_pos warns, mild] at applied
  split at applied
  · cases applied
  · cases applied
    exact warns

namespace Lower

/-- The session behind a constructor that is lowered without a limit. An expression is too deep on
the last level and on no other one, so there is no limit for what starts behind it. -/
def unlimited (context : LoweringContext σ) (sig : ConstructorSig) (function : FunctionTree)
    (before : Session σ) : Session σ :=
  (constructorFrom context (maxExprDepth + 1) sig function (UnitSig.lowering before)).2.session

/-- A constructor that is lowered between two sessions and has no error but the depth of its
expressions: it is told of no other one, or it would be told of none without a limit, in a session
that finds the same on the class path. -/
inductive DepthOnly (context : LoweringContext σ) (sig : ConstructorSig) (function : FunctionTree)
    (before after : Session σ) : Prop
  | told (only : ∀ diagnostic ∈ before.errorsBetween after,
      ∃ pos, diagnostic = depthReport context.decls.uri pos)
  | unlimited {view : ClassPathView} {other : Session σ} (seen : after.SeenIn view)
      (seen' : (unlimited context sig function other).SeenIn view)
      (quiet : (unlimited context sig function other).errors = other.errors)

variable {context : LoweringContext σ} {sig : ConstructorSig} {function : FunctionTree}
  {session : Session σ} {after : Lowering σ}

namespace Told

theorem errors_eq (told : Told context sig function (UnitSig.lowering session) after)
    (mild : session.policy.deny = false) :
    session.errorsBetween after.session = told.told := by
  have delivered := told.delivered
  rw [List.append_assoc] at delivered
  have errors := Session.errorsBetween_eq delivered
  rw [List.filter_append] at errors
  change session.errorsBetween after.session = _ at errors
  have grave : told.told.filter (·.severity = .error) = told.told := by
    rw [List.filter_eq_self]
    intro diagnostic member
    exact decide_eq_true (told.tells.grave diagnostic member)
  rw [errors, grave, List.append_right_eq_self, List.filter_eq_nil_iff]
  intro diagnostic member
  obtain ⟨binder, -, given⟩ := List.mem_flatMap.mp member
  have warning := WarningPolicy.apply_mild mild rfl (Option.mem_toList.mp given)
  simp [warning]

/-- Nothing is told but the depth if nothing would be told without a limit. -/
theorem only_of_unlimited (told : Told context sig function (UnitSig.lowering session) after)
    {view : ClassPathView} {other : Session σ} (seen : after.session.SeenIn view)
    (seen' : (unlimited context sig function other).SeenIn view)
    (quiet : (unlimited context sig function other).errors = other.errors) :
    ∀ diagnostic ∈ told.told, isDepthReport context.decls.uri diagnostic = true := by
  obtain ⟨code, finished, lowered, -, kept⟩ := constructorFrom_run
    (run_eta (constructorFrom context (maxExprDepth + 1) sig function) (UnitSig.lowering other))
  change finished.session.Extends context.manager (unlimited context sig function other) at kept
  -- The body is as quiet as what it is part of.
  have started : other.errors ≤ finished.session.errors :=
    ((bodyFrom_onward sig function).of_run lowered).session.errors_le
  have ended := kept.errors_le
  have shadows : Shadows context view (bodyFrom context 0 sig function)
      (bodyFrom context (maxExprDepth + 1) sig function) fun _ _ => True :=
    .body (Nat.lt_succ_self maxExprDepth) sig function
  have told' := shadows (UnitSig.lowering session) (UnitSig.lowering other) .nil
  rw [told.lowered, lowered] at told'
  obtain ⟨⟨reports, delivered, depth⟩, -, -⟩ := told' (told.kept.seenIn seen)
    (kept.seenIn seen') (show finished.session.errors = other.errors by omega)
  rw [told.tells.delivered] at delivered
  rwa [List.append_cancel_left delivered]

theorem only (told : Told context sig function (UnitSig.lowering session) after)
    (mild : session.policy.deny = false)
    (depthOnly : DepthOnly context sig function session after.session) :
    ∀ diagnostic ∈ told.told, isDepthReport context.decls.uri diagnostic = true := by
  cases depthOnly with
  | told only =>
      rw [told.errors_eq mild] at only
      intro diagnostic member
      exact isDepthReport_iff.mpr (only diagnostic member)
  | unlimited seen seen' quiet => exact told.only_of_unlimited seen seen' quiet

/-- The depth is told once if an initialiser nests too deeply, and no error otherwise. -/
theorem errors_depth (told : Told context sig function (UnitSig.lowering session) after)
    (mild : session.policy.deny = false)
    (depthOnly : DepthOnly context sig function session after.session) :
    ∃ pos, session.errorsBetween after.session =
      if ∃ value ∈ initialisers function, maxExprDepth < value.levels
        then [depthReport context.decls.uri pos] else [] := by
  have only := told.only mild depthOnly
  have length := told.length_eq only
  rw [told.errors_eq mild]
  split at length
  · rename_i deep
    obtain ⟨diagnostic, single⟩ := List.length_eq_one_iff.mp length
    rw [single] at only
    obtain ⟨pos, rfl⟩ := isDepthReport_iff.mp (only diagnostic List.mem_cons_self)
    exact ⟨pos, by rw [single, if_pos deep]⟩
  · rename_i shallow
    exact ⟨⟨0, 0⟩, by rw [List.length_eq_zero_iff.mp length, if_neg shallow]⟩

end Told

end Lower

end UnitForge
