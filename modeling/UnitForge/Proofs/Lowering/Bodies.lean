import UnitForge.Proofs.Lowering.Depths
import UnitForge.Proofs.Lowering.Tracing

/-! # The trace of a body

A body is lowered statement by statement. As long as nothing is reported but the depth of
expressions, it is marked that the depth was reported just where an initialiser nests too deeply,
and else every name is in scope from the end of its statement on, used where it occurs. -/
set_option autoImplicit false
namespace UnitForge

open Source Step

variable {σ : Type}

namespace Lower

def fresh (binder : Binder) : Binding :=
  { name := binder.name, type := none, pos := binder.pos, used := false }

def afterStatement (tree : StmtTree) (scope : Scope) : Scope :=
  scope.useNames tree.occurrences ++
    (tree.binder?.map fresh).toList

def afterStatements (trees : List StmtTree) (scope : Scope) : Scope :=
  trees.foldl (fun scope tree => afterStatement tree scope) scope

namespace Traces

variable {α β : Type} {context : LoweringContext σ} {effect : Scope → Scope} {deep : Prop}
  {Q : α → Prop}

theorem expr (tree : ExprTree) :
    Traces context (Scope.useNames tree.occurrences) (maxExprDepth < tree.levels)
      (Lower.expr context 0 tree) fun _ => True :=
  (expr_exprs_traces.1 0 tree (Nat.zero_le maxExprDepth)).congr_deep (by rw [Nat.zero_add])

/-! ## Statements -/

theorem finish (ident : Ident) (code : Expr) (type : Option TypeRef) :
    Traces context (fun scope => scope ++ [fresh ⟨ident.name, ident.pos⟩]) False
      (Lower.statement.finish ident code type) fun _ => True := by
  intro before after value run
  cases run
  exact ⟨[], .silent rfl rfl, fun _ => ⟨trivial, .of_scope rfl List.map_append⟩⟩

theorem bindTo (ident : Ident) (type : Option TypeTree) (value : ExprTree) :
    Traces context
      ((fun scope => scope ++ [fresh ⟨ident.name, ident.pos⟩]) ∘
        Scope.useNames value.occurrences)
      (maxExprDepth < value.levels) (Lower.statement.bindTo context ident type value)
      fun _ => True := by
  unfold statement.bindTo
  apply congr_deep _ (or_iff_left id)
  apply andThen (expr value)
  intro found
  cases type with
  | none => exact finish _ _ _
  | some tree =>
      refine .before (check (Q := fun _ => True) (Declarations.resolveType_tellsOther _ tree)
        fun _ _ => trivial) ?_
      intro declared
      cases declared with
      | none => exact .before giveUp fun _ => finish _ _ _
      | some type => exact .before (expect _ _ _) fun _ => finish _ _ _

theorem statement (tree : StmtTree) :
    Traces context (afterStatement tree) (∃ value ∈ tree.init?, maxExprDepth < value.levels)
      (Lower.statement context tree) fun _ => True := by
  apply statement_forms (P := fun tree step => Traces context (afterStatement tree)
    (∃ value ∈ tree.init?, maxExprDepth < value.levels) step fun _ => True)
  case refused =>
    intro tree pos problem form
    exact complain_then form.severity (by cases form <;> rfl)
      (pure (Q := fun _ => True) trivial).accounts
  case binding =>
    intro pos start ident type value
    apply (bindTo _ _ _).congr_deep
    simp [StmtTree.init?]

theorem filterMapM {f : β → Lower σ (Option α)} {effect : β → Scope → Scope} {deep : β → Prop}
    (each : ∀ item, Traces context (effect item) (deep item) (f item) fun _ => True)
    (items : List β) :
    Traces context (fun scope => items.foldl (fun scope item => effect item scope) scope)
      (∃ item ∈ items, deep item) (items.filterMapM f) fun _ => True := by
  induction items with
  | nil => exact (pure trivial).congr_deep (by simp)
  | cons first rest ih =>
      rw [List.filterMapM_cons]
      change Traces context ((fun scope => rest.foldl (fun scope item => effect item scope) scope) ∘
        effect first) _ _ _
      have either : (deep first ∨ ∃ item ∈ rest, deep item) ↔
          ∃ item ∈ first :: rest, deep item := by
        simp
      apply congr_deep _ either
      apply andThen (each first)
      intro found
      cases found with
      | none => exact ih
      | some value => exact behind ih fun _ => pure trivial

/-! ## The final expression -/

theorem literalFields (owner : UnitSig) (fields : List (String × Position × ExprTree))
    (done : List (Nat × Expr)) :
    Traces context (Scope.useNames (ExprTree.occurrencesIn fields))
      (∃ value ∈ fields.map (fun field => field.2.2), maxExprDepth < value.levels)
      (Lower.literalFields context owner done fields) fun _ => True := by
  induction fields generalizing done with
  | nil => exact (pure trivial).congr_deep (by simp)
  | cons first rest ih =>
      obtain ⟨name, pos, value⟩ := first
      unfold Lower.literalFields
      split
      · exact complain_then rfl rfl (ih _).accounts
      · split
        · exact complain_then rfl rfl (ih _).accounts
        · rw [ExprTree.occurrencesIn, Scope.useNames_comp]
          have others (index : Nat) (expected : Option TypeRef) (code : TypedCode) :=
            before (expect value.pos expected code.type) fun _ =>
              ih (done ++ [(index, code.code)])
          apply (andThen (expr value) (others _ _)).congr_deep
          simp

theorem expectFields (pos : Position) (owner : UnitSig) (done : List (Nat × Expr)) :
    Traces context id False (Lower.expectFields context pos owner done) fun _ => True := by
  refine ite ?_ (pure trivial)
  exact complain rfl rfl _

theorem other (tree : ExprTree) :
    Traces context (Scope.useNames tree.occurrences) (maxExprDepth < tree.levels)
      (Lower.final.other context tree) fun _ => True := by
  apply behind (expr tree)
  intro found
  dsimp only
  split
  · split
    · exact complain_then rfl rfl (pure (Q := fun _ => True) trivial).accounts
    · exact complain_then rfl rfl (pure (Q := fun _ => True) trivial).accounts
  · exact pure trivial

theorem structLiteral (pos : Position) (fields : List (String × Position × ExprTree)) :
    Traces context (Scope.useNames (ExprTree.occurrencesIn fields))
      (∃ value ∈ fields.map (fun field => field.2.2), maxExprDepth < value.levels) (do
        let done ← Lower.literalFields context context.owner [] fields
        Lower.expectFields context pos context.owner done
        return initOf context.owner done) fun _ => True :=
  behind (literalFields _ _ _) fun _ => .before (expectFields _ _ _) fun _ => pure trivial

theorem useNames_bare {owner : String} {scope : Scope} {qualified : Bool} {names : NamePath}
    {ident : Ident} (pos : Position)
    (named : (namesOwner owner qualified names).filter (fun ident =>
      ident.is "Self" || (scope.slot? ident.name).isNone) = some ident) :
    scope.untyped.useNames (ExprTree.path pos qualified names).finalOccurrences =
      scope.untyped := by
  obtain ⟨known, bare⟩ := Option.filter_eq_some_iff.mp named
  cases qualified with
  | true => cases known
  | false =>
      have single := (Option.filter_eq_some_iff.mp known).1
      rw [ExprTree.finalOccurrences, ExprTree.occurrences, single, Option.any_some]
      cases keyword : ident.is "Self" with
      | true => rfl
      | false =>
          rw [keyword, Bool.false_or, Option.isNone_iff_eq_none] at bare
          simp [Scope.useNames, Scope.useName, Scope.slot?_untyped, bare]

/-- A path that does not stand for a struct is no bare `Self`. -/
theorem finalOccurrences_path {owner : String} {scope : Scope} {qualified : Bool}
    {names : NamePath} (pos : Position)
    (unnamed : (namesOwner owner qualified names).filter (fun ident =>
      ident.is "Self" || (scope.slot? ident.name).isNone) = none) :
    (ExprTree.path pos qualified names).finalOccurrences =
      (ExprTree.path pos qualified names).occurrences := by
  rw [ExprTree.finalOccurrences, ExprTree.occurrences]
  cases qualified with
  | true => simp
  | false =>
      cases single : names.ident? with
      | none => rfl
      | some ident =>
          cases keyword : ident.is "Self" with
          | false => simp [keyword]
          | true => simp [namesOwner, single, keyword] at unnamed

theorem final (tree : ExprTree) :
    Traces context (Scope.useNames tree.finalOccurrences)
      (∃ value ∈ tree.inits, maxExprDepth < value.levels) (Lower.final context tree)
      fun _ => True := by
  have whole : (maxExprDepth < tree.levels) ↔ ∃ value ∈ [tree], maxExprDepth < value.levels := by
    simp
  unfold Lower.final
  dsimp only
  cases tree with
  | path pos qualified names =>
      intro before after value run
      obtain ⟨_, _, got, run⟩ := bind_run run
      cases got
      cases named : (namesOwner context.owner.name qualified names).filter fun ident =>
          ident.is "Self" || (before.scope.slot? ident.name).isNone with
      | none =>
          simp only [named] at run
          rw [finalOccurrences_path pos named]
          exact (other _).congr_deep whole _ _ _ run
      | some ident =>
          simp only [named] at run
          have bare : Traces context id False (do
              Lower.expectFields context ident.pos context.owner []
              return ([] : List Expr)) fun _ => True :=
            .before (expectFields _ _ _) fun _ => pure trivial
          obtain ⟨told, tells, marks⟩ := bare _ _ _ run
          refine ⟨told, tells, fun only => ⟨trivial, ?_, fun _ => ?_⟩⟩
          · refine (marks only).2.depth.trans (or_congr_right (iff_of_false id ?_))
            intro deep
            exact absurd (whole.mpr deep) (by decide : ¬maxExprDepth < 1)
          · rw [useNames_bare pos named]
            exact (marks only).2.scope id
  | structLiteral pos qualified names fields base =>
      dsimp only
      split
      · exact complain_then rfl rfl (pure (Q := fun _ => True) trivial).accounts
      · cases base with
        | some base => exact complain_then rfl rfl (structLiteral _ _).accounts
        | none =>
            have occurrences : (ExprTree.structLiteral pos qualified names fields
                none).finalOccurrences = ExprTree.occurrencesIn fields := by
              simp [ExprTree.finalOccurrences, ExprTree.occurrences, ExprTree.occurrencesOf]
            rw [occurrences]
            exact structLiteral _ _
  | _ => exact (other _).congr_deep whole

end Traces

/-! ## Bodies -/

/-- The expressions that a body initialises names and fields with. A body that has no error ends in
a literal of the struct. The last expression of any other body counts as a whole, since it is lowered
for its type. -/
def initialisers (function : FunctionTree) : List ExprTree :=
  (splitBody function.body).1.filterMap StmtTree.init? ++
    ((splitBody function.body).2.map ExprTree.inits).getD []

def paramBinder (param : ParamSig) : Binder :=
  { name := param.name, pos := param.pos }

def afterBody (sig : ConstructorSig) (function : FunctionTree) (scope : Scope) : Scope :=
  (afterStatements (splitBody function.body).1
    (scope ++ (sig.params.map paramBinder).map fresh)).useNames
    (((splitBody function.body).2.map ExprTree.finalOccurrences).getD [])

theorem exists_initialiser {P : ExprTree → Prop} (statements : List StmtTree)
    (others : List ExprTree) :
    (∃ value ∈ statements.filterMap StmtTree.init? ++ others, P value) ↔
      (∃ tree ∈ statements, ∃ value ∈ tree.init?, P value) ∨ ∃ value ∈ others, P value := by
  simp only [List.mem_append, List.mem_filterMap, or_and_right, exists_or]
  refine or_congr_left ⟨?_, ?_⟩
  · rintro ⟨value, ⟨tree, member, given⟩, holds⟩
    exact ⟨tree, member, value, given, holds⟩
  · rintro ⟨tree, member, value, given, holds⟩
    exact ⟨value, ⟨tree, member, given⟩, holds⟩

variable {context : LoweringContext σ}

theorem body_traces (sig : ConstructorSig) (function : FunctionTree) :
    Traces context (afterBody sig function)
      (∃ value ∈ initialisers function, maxExprDepth < value.levels)
      (bodyFrom context 0 sig function) fun _ => True := by
  have params : Traces context
      (fun scope => scope ++ (sig.params.map paramBinder).map fresh) False
      (sig.params.forM fun param => do
        let _ ← bind (σ := σ) param.name param.type param.pos) fun _ => True := by
    intro before after value run
    rw [bindParams_run] at run
    cases run
    refine ⟨[], .silent rfl rfl, fun _ => ⟨trivial, .of_scope rfl ?_⟩⟩
    simp [Scope.untyped, paramBinding, paramBinder, fresh]
  have statements : Traces context (afterStatements (splitBody function.body).1)
      (∃ tree ∈ (splitBody function.body).1, ∃ value ∈ tree.init?, maxExprDepth < value.levels)
      ((splitBody function.body).1.filterMapM (statement context)) fun _ => True :=
    .filterMapM .statement _
  unfold bodyFrom endFrom afterBody initialisers
  simp only [funext (statementFrom_zero context), finalFrom_zero]
  cases (splitBody function.body).2 with
  | some tree =>
      have ends (found : List Stmt) : Traces context (Scope.useNames tree.finalOccurrences)
          (∃ value ∈ tree.inits, maxExprDepth < value.levels)
          (do return (found, ← final context tree)) fun _ => True :=
        .behind (.final tree) fun _ => .pure trivial
      apply (params.andThen fun _ => statements.andThen ends).congr_deep
      rw [exists_initialiser, false_or]
      rfl
  | none =>
      have ends (found : List Stmt) : Traces context id False (do
          complain context function.closing (.mismatch context.owner.name "()")
          return (found, ([] : List Expr))) fun _ => True :=
        .complain_then rfl rfl (Traces.pure (Q := fun _ => True) trivial).accounts
      apply (params.andThen fun _ => statements.andThen ends).congr_deep
      rw [exists_initialiser, false_or]
      simp

/-! ## Constructors -/

def binderOf (binding : Binding) : Binder :=
  { name := binding.name, pos := binding.pos }

def unusedWarning (uri : String) (binder : Binder) : Diagnostic :=
  (Problem.unusedVariable binder.name).diagnostic (some uri) (some binder.pos)

theorem warn_delivered (context : LoweringContext σ) (bindings : List Binding)
    (before : Lowering σ) :
    (bindings.forM (fun binding => check (context.decls.complain binding.pos
        (.unusedVariable binding.name))) before).2.session.delivered =
      before.session.delivered ++ (bindings.map binderOf).flatMap fun binder =>
        (before.session.policy.apply (unusedWarning context.decls.uri binder)).toList := by
  induction bindings generalizing before with
  | nil => exact (List.append_nil _).symm
  | cons first rest ih =>
      have others := ih (check (context.decls.complain first.pos
        (.unusedVariable first.name)) before).2
      rw [List.map_cons, List.flatMap_cons, ← List.append_assoc]
      exact others

theorem conclude_delivered (context : LoweringContext σ) (sig : ConstructorSig)
    (body : List Stmt) (init : List Expr) (before : Lowering σ) :
    (conclude context sig body init before).2.session.delivered =
      before.session.delivered ++ (before.scope.unused.map binderOf).flatMap fun binder =>
        (before.session.policy.apply (unusedWarning context.decls.uri binder)).toList := by
  rcases run : conclude context sig body init before with ⟨found, after⟩
  obtain ⟨_, _, got, run⟩ := bind_run run
  cases got
  obtain ⟨_, warned, warns, run⟩ := bind_run run
  obtain ⟨_, _, got, run⟩ := bind_run run
  cases got
  have told := warn_delivered context before.scope.unused before
  rw [warns] at told
  split at run
  · cases run
    exact told
  · cases run
    exact told

/-- What the lowering of a constructor tells: first errors, with the depth once where an initialiser
nests too deeply, and at the end a warning of each name that nothing refers to. -/
structure Told (context : LoweringContext σ) (sig : ConstructorSig) (function : FunctionTree)
    (before after : Lowering σ) where
  finished : Lowering σ
  told : List Diagnostic
  lowered : (bodyFrom context 0 sig function before).2 = finished
  kept : finished.session.Extends context.manager after.session
  tells : before.Tells context.decls.uri finished told
  marks : (∀ diagnostic ∈ told, isDepthReport context.decls.uri diagnostic = true) →
    before.Marks (afterBody sig function)
      (∃ value ∈ initialisers function, maxExprDepth < value.levels) finished
  delivered : after.session.delivered = before.session.delivered ++ told ++
    (finished.scope.unused.map binderOf).flatMap fun binder =>
      (before.session.policy.apply (unusedWarning context.decls.uri binder)).toList

theorem constructor_told {sig : ConstructorSig} {function : FunctionTree}
    {found : Option ConstructorDecl} {before after : Lowering σ}
    (run : constructor context sig function before = (found, after)) :
    Nonempty (Told context sig function before after) := by
  rw [← constructorFrom_zero] at run
  obtain ⟨code, finished, lowered, run, kept⟩ := constructorFrom_run run
  obtain ⟨told, tells, marks⟩ := body_traces sig function _ _ _ lowered
  have policy : finished.session.policy = before.session.policy :=
    ((bodyFrom_onward sig function).of_run lowered).session.policy
  have delivered := conclude_delivered context sig code.1 code.2 finished
  rw [run, tells.delivered, policy] at delivered
  exact ⟨finished, told, by rw [lowered], kept, tells, fun only => (marks only).2, delivered⟩

namespace Told

variable {sig : ConstructorSig} {function : FunctionTree} {session : Session σ}
  {after : Lowering σ}

/-- If nothing is told but the depth, it is told once or never. -/
theorem length_eq (told : Told context sig function (UnitSig.lowering session) after)
    (only : ∀ diagnostic ∈ told.told, isDepthReport context.decls.uri diagnostic = true) :
    told.told.length =
      if ∃ value ∈ initialisers function, maxExprDepth < value.levels then 1 else 0 := by
  have count := told.tells.depth
  have depth := (told.marks only).depth
  rw [List.countP_eq_length.mpr only] at count
  simp only [UnitSig.lowering, Bool.false_eq_true, false_or, Bool.toNat_false, Nat.add_zero]
    at count depth
  split
  · rename_i deep
    rw [count, depth.mpr deep]
    rfl
  · rename_i shallow
    rw [count, Bool.eq_false_iff.mpr (shallow ∘ depth.mp)]
    rfl

theorem silent (told : Told context sig function (UnitSig.lowering session) after)
    (quiet : after.session.errors = session.errors) : told.told = [] := by
  have grave : Diagnostic.count .error told.told = told.told.length :=
    List.countP_eq_length.mpr fun diagnostic member =>
      decide_eq_true (told.tells.grave diagnostic member)
  have errors := congrArg (Diagnostic.count .error) told.delivered
  change after.session.errors = _ at errors
  rw [quiet, Session.errors] at errors
  simp only [Diagnostic.count, List.countP_append, UnitSig.lowering] at errors grave
  exact List.length_eq_zero_iff.mp (by omega)

theorem shallow (told : Told context sig function (UnitSig.lowering session) after)
    (quiet : after.session.errors = session.errors) :
    ¬∃ value ∈ initialisers function, maxExprDepth < value.levels := by
  intro deep
  have none := told.silent quiet
  have length := told.length_eq (by rw [none]; exact List.forall_mem_nil _)
  rw [none, if_pos deep] at length
  cases length

end Told

end Lower

end UnitForge
