import UnitForge.Proofs.Dialect.Telling
import UnitForge.Proofs.Lowering.Units
import UnitForge.Proofs.Lowering.Faithful
import UnitForge.Proofs.Source.Nesting
import UnitForge.Proofs.Source.Scoping
import Mathlib.Data.List.Induction

/-! # The trace of a lowering

What a lowering leaves behind as long as nothing is reported but the depth of expressions: it is
marked that the depth was reported just where an expression nests too deeply, and else the names in
scope are marked as used in the order of their occurrences. Whatever is reported before the end of a
constructor is an error, and the depth is reported just where it is marked. -/
set_option autoImplicit false
namespace UnitForge

open Source Step

variable {σ : Type}

/-! ## Slots and uses -/

namespace Scope

theorem getElem?_concat_eq_some {α : Type} {items : List α} {last item : α} {index : Nat} :
    (items ++ [last])[index]? = some item ↔
      items[index]? = some item ∨ index = items.length ∧ last = item := by
  rw [List.getElem?_append]
  by_cases within : index < items.length
  · rw [if_pos within]
    exact ⟨.inl, fun either => either.resolve_right fun absurd => by omega⟩
  · rw [if_neg within, List.getElem?_singleton, List.getElem?_eq_none (by omega)]
    by_cases last : index - items.length = 0
    · rw [if_pos last]
      have same : index = items.length := by omega
      simp [same]
    · rw [if_neg last]
      have other : index ≠ items.length := by omega
      simp [other]

theorem slot?_eq_some_iff {scope : Scope} {name : String} {slot : Nat} :
    scope.slot? name = some slot ↔ (scope.map Binding.name)[slot]? = some name ∧
      ∀ later, slot < later → (scope.map Binding.name)[later]? ≠ some name := by
  induction scope using List.reverseRecOn with
  | nil => simp [slot?]
  | append_singleton scope last ih =>
      simp only [slot?_append, List.map_append, List.map_cons, List.map_nil, ne_eq,
        getElem?_concat_eq_some, List.length_map]
      by_cases same : last.name = name
      · rw [if_pos same, Option.some.injEq]
        simp only [same, and_true, not_or]
        constructor
        · rintro rfl
          refine ⟨.inr rfl, fun later behind => ⟨?_, by omega⟩⟩
          rw [List.getElem?_eq_none (by rw [List.length_map]; omega)]
          nofun
        · rintro ⟨found | rfl, latest⟩
          · obtain ⟨within, -⟩ := List.getElem?_eq_some_iff.mp found
            rw [List.length_map] at within
            exact absurd rfl (latest scope.length within).2
          · rfl
      · rw [if_neg same, ih]
        simp [same]

theorem slot?_congr {scope other : Scope} (same : scope.map Binding.name = other.map Binding.name)
    (name : String) : scope.slot? name = other.slot? name := by
  ext slot
  rw [slot?_eq_some_iff, slot?_eq_some_iff, same]

def untyped (scope : Scope) : Scope :=
  scope.map fun binding => { binding with type := none }

def useName (scope : Scope) (name : String) : Scope :=
  match scope.slot? name with
  | some slot => scope.use slot
  | none => scope

def useNames (names : List String) (scope : Scope) : Scope :=
  names.foldl useName scope

theorem useNames_append (earlier later : List String) (scope : Scope) :
    scope.useNames (earlier ++ later) = (scope.useNames earlier).useNames later :=
  List.foldl_append

theorem useNames_comp (earlier later : List String) :
    useNames (earlier ++ later) = useNames later ∘ useNames earlier :=
  funext (useNames_append earlier later)

theorem slot?_untyped (scope : Scope) (name : String) :
    scope.untyped.slot? name = scope.slot? name := by
  unfold slot? untyped
  rw [← List.map_reverse, List.findIdx?_map, List.length_map]
  rfl

theorem untyped_use (scope : Scope) (slot : Nat) :
    (scope.use slot).untyped = scope.untyped.use slot := by
  unfold use untyped
  apply List.ext_getElem?
  intro index
  simp only [List.getElem?_map, List.getElem?_modify]
  cases scope[index]? with
  | none => rfl
  | some binding => by_cases same : slot = index <;> simp [same]

end Scope

/-! ## Traces -/

/-- What was told between two states of a lowering: errors, and the depth just where it is marked in
between. -/
structure Lowering.Tells (uri : String) (before after : Lowering σ) (told : List Diagnostic) :
    Prop where
  delivered : after.session.delivered = before.session.delivered ++ told
  grave : ∀ diagnostic ∈ told, diagnostic.severity = .error
  depth : told.countP (isDepthReport uri) + before.reportedDepth.toNat = after.reportedDepth.toNat

/-- What is marked between two states of a lowering. -/
structure Lowering.Marks (effect : Scope → Scope) (deep : Prop) (before after : Lowering σ) :
    Prop where
  depth : after.reportedDepth = true ↔ before.reportedDepth = true ∨ deep
  scope : ¬deep → after.scope.untyped = effect before.scope.untyped

namespace Lowering

variable {uri : String} {before middle after : Lowering σ} {effect later : Scope → Scope}
  {deep deeper : Prop}

theorem Tells.trans {earlier more : List Diagnostic} (h : before.Tells uri middle earlier)
    (k : middle.Tells uri after more) : before.Tells uri after (earlier ++ more) where
  delivered := by rw [k.delivered, h.delivered, List.append_assoc]
  grave := List.forall_mem_append.mpr ⟨h.grave, k.grave⟩
  depth := by
    have earlierDepth := h.depth
    have laterDepth := k.depth
    rw [List.countP_append]
    omega

theorem Tells.silent (delivered : after.session.delivered = before.session.delivered)
    (depth : after.reportedDepth = before.reportedDepth) : before.Tells uri after [] where
  delivered := by rw [delivered, List.append_nil]
  grave := nofun
  depth := by rw [depth, List.countP_nil, Nat.zero_add]

theorem Marks.trans (h : before.Marks effect deep middle) (k : middle.Marks later deeper after) :
    before.Marks (later ∘ effect) (deep ∨ deeper) after where
  depth := by rw [k.depth, h.depth, or_assoc]
  scope shallow := by
    rw [not_or] at shallow
    rw [k.scope shallow.2, h.scope shallow.1]
    rfl

theorem Marks.of_scope (depth : after.reportedDepth = before.reportedDepth)
    (scope : after.scope.untyped = effect before.scope.untyped) :
    before.Marks effect False after where
  depth := by rw [depth, or_false]
  scope _ := scope

end Lowering

namespace Lower

variable {α β : Type} {context : LoweringContext σ} {effect later : Scope → Scope}
  {deep deeper : Prop} {P : β → Prop} {Q : α → Prop}

def Accounts (context : LoweringContext σ) (step : Lower σ α) : Prop :=
  ∀ (before after : Lowering σ) (value : α), step before = (value, after) →
    ∃ told, before.Tells context.decls.uri after told

/-- What a step tells and, if that is of the depth alone, what it gives and marks. -/
def Traces (context : LoweringContext σ) (effect : Scope → Scope) (deep : Prop) (step : Lower σ α)
    (Q : α → Prop) : Prop :=
  ∀ (before after : Lowering σ) (value : α), step before = (value, after) → ∃ told,
    before.Tells context.decls.uri after told ∧
      ((∀ diagnostic ∈ told, isDepthReport context.decls.uri diagnostic = true) →
        Q value ∧ before.Marks effect deep after)

namespace Traces

theorem accounts {step : Lower σ α} (traces : Traces context effect deep step Q) :
    Accounts context step := by
  intro before after value run
  obtain ⟨told, tells, -⟩ := traces _ _ _ run
  exact ⟨told, tells⟩

theorem congr_deep {step : Lower σ α} (traces : Traces context effect deep step Q)
    (same : deep ↔ deeper) : Traces context effect deeper step Q := by
  rwa [← propext same]

theorem pure {value : α} (holds : Q value) :
    Traces context id False (Pure.pure value : Lower σ α) Q := by
  intro before after found run
  cases run
  exact ⟨[], .silent rfl rfl, fun _ => ⟨holds, .of_scope rfl rfl⟩⟩

/-- One step and then another: what the first one gives is relied upon, and what is told after it
gives something else is accounted for. -/
theorem bind {step : Lower σ β} {next : β → Lower σ α}
    (first : Traces context effect deep step P)
    (accounts : ∀ value, ¬P value → Accounts context (next value))
    (rest : ∀ value, P value → Traces context later deeper (next value) Q) :
    Traces context (later ∘ effect) (deep ∨ deeper) (step >>= next) Q := by
  intro before after value run
  obtain ⟨found, middle, ran, run⟩ := bind_run run
  obtain ⟨earlier, tells, marks⟩ := first _ _ _ ran
  by_cases given : P found
  · obtain ⟨more, tells', marks'⟩ := rest found given _ _ _ run
    refine ⟨earlier ++ more, tells.trans tells', ?_⟩
    intro only
    obtain ⟨only, only'⟩ := List.forall_mem_append.mp only
    obtain ⟨-, marks⟩ := marks only
    obtain ⟨holds, marks'⟩ := marks' only'
    exact ⟨holds, marks.trans marks'⟩
  · obtain ⟨more, tells'⟩ := accounts found given _ _ _ run
    refine ⟨earlier ++ more, tells.trans tells', ?_⟩
    intro only
    obtain ⟨only, -⟩ := List.forall_mem_append.mp only
    exact absurd (marks only).1 given

theorem andThen {step : Lower σ β} {next : β → Lower σ α}
    (first : Traces context effect deep step P)
    (rest : ∀ value, Traces context later deeper (next value) Q) :
    Traces context (later ∘ effect) (deep ∨ deeper) (step >>= next) Q :=
  bind first (fun value _ => (rest value).accounts) fun value _ => rest value

theorem before {step : Lower σ β} {next : β → Lower σ α}
    (first : Traces context id False step P)
    (rest : ∀ value, Traces context later deeper (next value) Q) :
    Traces context later deeper (step >>= next) Q :=
  (andThen first rest).congr_deep (by simp)

theorem behind {step : Lower σ β} {next : β → Lower σ α}
    (first : Traces context effect deep step P)
    (rest : ∀ value, Traces context id False (next value) Q) :
    Traces context effect deep (step >>= next) Q :=
  (andThen first rest).congr_deep (by simp)

theorem ite {condition : Prop} [Decidable condition] {yes no : Lower σ α}
    (whenTrue : Traces context effect deep yes Q) (whenFalse : Traces context effect deep no Q) :
    Traces context effect deep (if condition then yes else no) Q := by
  split <;> assumption

/-- A question is answered without a word, or something else than the depth is reported. -/
theorem check {step : Check σ α} (within : Within (Session.TellsOther context.decls.uri) step)
    (answers : ∀ session, (step session).2.delivered = session.delivered → Q (step session).1) :
    Traces context id False (Lower.check step) Q := by
  intro before after value run
  cases run
  obtain ⟨told, delivered, each⟩ := within before.session
  have none : told.countP (isDepthReport context.decls.uri) = 0 :=
    List.countP_eq_zero.mpr fun diagnostic member => by simp [(each diagnostic member).2]
  refine ⟨told, ⟨delivered, fun diagnostic member => (each diagnostic member).1, ?_⟩, ?_⟩
  · rw [none, Nat.zero_add]
  · intro only
    cases told with
    | nil =>
        rw [List.append_nil] at delivered
        exact ⟨answers _ delivered, .of_scope rfl rfl⟩
    | cons first rest =>
        have other := (each first List.mem_cons_self).2
        rw [only first List.mem_cons_self] at other
        cases other

theorem giveUp : Traces context id False (Lower.giveUp (σ := σ)) fun _ => True := by
  intro before after value run
  cases run
  exact ⟨[], .silent rfl rfl, fun _ => ⟨trivial, .of_scope rfl rfl⟩⟩

theorem complain {pos : Position} {problem : Problem} (grave : problem.severity = .error)
    (other : problem.isOther = true) (Q : Unit → Prop) :
    Traces context effect deep (Lower.complain context pos problem) Q := by
  intro before after value run
  cases run
  have apart : isDepthReport context.decls.uri
      (problem.diagnostic (some context.decls.uri) (some pos)) = false :=
    isDepthReport_other other _ _
  refine ⟨[problem.diagnostic (some context.decls.uri) (some pos)], ⟨?_, ?_, ?_⟩, ?_⟩
  · exact Session.delivered_report grave before.session
  · intro diagnostic member
    rw [List.mem_singleton.mp member]
    exact grave
  · rw [List.countP_singleton, apart]
    exact Nat.zero_add _
  · intro only
    rw [only _ List.mem_cons_self] at apart
    cases apart

theorem complain_then {pos : Position} {problem : Problem} (grave : problem.severity = .error)
    (other : problem.isOther = true) {next : Lower σ α} (accounts : Accounts context next) :
    Traces context effect deep (do Lower.complain context pos problem; next) Q := by
  have whole : Traces context (id ∘ effect) (deep ∨ False)
      (do Lower.complain context pos problem; next) Q :=
    bind (complain grave other fun _ => False) (fun _ _ => accounts) fun _ absurd => absurd.elim
  exact whole.congr_deep (by simp)

theorem bind_refused {step : Lower σ β} {next : β → Lower σ α} (accounts : Accounts context step)
    (refuses : ∀ value, Traces context id False (next value) fun _ => False) :
    Traces context effect deep (step >>= next) Q := by
  intro before after value run
  obtain ⟨found, middle, ran, run⟩ := bind_run run
  obtain ⟨earlier, tells⟩ := accounts _ _ _ ran
  obtain ⟨more, tells', refused⟩ := refuses found _ _ _ run
  refine ⟨earlier ++ more, tells.trans tells', ?_⟩
  intro only
  exact (refused (List.forall_mem_append.mp only).2).1.elim

theorem fail {pos : Position} {problem : Problem} (grave : problem.severity = .error)
    (other : problem.isOther = true) (Q : TypedCode → Prop) :
    Traces context effect deep (Lower.fail context pos problem) Q :=
  complain_then grave other (pure (Q := fun _ => True) trivial).accounts

theorem expect (pos : Position) (expected found : Option TypeRef) :
    Traces context id False (Lower.expect context pos expected found) fun _ => True := by
  unfold Lower.expect
  split
  · exact .ite (complain rfl rfl _) (.pure trivial)
  · exact .pure trivial

/-! ## Leaves -/

theorem literal (negated : Bool) (place : Position) (value : Literal) :
    Traces context id False (Lower.literal context negated place value) fun _ => True := by
  unfold Lower.literal
  cases value with
  | int value suffix =>
      refine .ite (.pure trivial) (.ite (.pure trivial) ?_)
      exact fail rfl rfl _
  | float digits suffix =>
      refine .ite (.pure trivial) ?_
      exact fail rfl rfl _
  | bool value =>
      refine .ite ?_ (.pure trivial)
      exact fail rfl rfl _
  | str value =>
      refine .ite ?_ (.pure trivial)
      exact fail rfl rfl _
  | other => exact fail rfl rfl _

theorem namedValue (pos : Position) (qualified : Bool) (names : NamePath) :
    Traces context
      (Scope.useNames (if qualified then [] else (names.ident?.map Ident.name).toList)) False
      (Lower.namedValue context pos qualified names) fun _ => True := by
  unfold Lower.namedValue
  cases qualified with
  | true => exact fail rfl rfl _
  | false =>
      cases names.ident? with
      | none => exact fail rfl rfl _
      | some ident =>
          refine fun before after value run => ?_
          obtain ⟨_, _, got, run⟩ := bind_run run
          cases got
          cases found : before.scope.find? ident.name with
          | none =>
              simp only [found] at run
              have refused : Traces context (Scope.useNames [ident.name]) False
                  (Lower.fail context ident.pos (.unknownValue ident.name)) fun _ => True :=
                fail rfl rfl _
              exact refused _ _ _ run
          | some place =>
              obtain ⟨slot, binding⟩ := place
              simp only [found] at run
              cases run
              have looked : before.scope.slot? ident.name = some slot := by
                obtain ⟨slot', looked, rest⟩ := Option.bind_eq_some_iff.mp found
                obtain ⟨_, -, same⟩ := Option.bind_eq_some_iff.mp rest
                cases same
                exact looked
              have uses : (before.scope.use slot).untyped =
                  before.scope.untyped.useNames [ident.name] := by
                simp only [Scope.useNames, List.foldl_cons, List.foldl_nil, Scope.useName,
                  Scope.slot?_untyped, looked, Scope.untyped_use]
              exact ⟨[], .silent rfl rfl, fun _ => ⟨trivial, .of_scope rfl uses⟩⟩

/-! ## Operators -/

theorem unary (pos : Position) (op : UnaryOp) (operand : TypedCode) :
    Traces context id False (Lower.unary context pos op operand) fun _ => True := by
  unfold Lower.unary
  split
  split
  · refine .ite (.pure trivial) ?_
    exact fail rfl rfl _
  · exact .pure trivial

theorem binary (op : BinaryOp) (symbol : String) (place leftPos rightPos : Position)
    (left right : TypedCode) :
    Traces context id False (Lower.binary context op symbol place leftPos rightPos left right)
      fun _ => True := by
  have logical : Traces context id False (Lower.logical context op leftPos rightPos left right)
      fun _ => True :=
    .before (expect _ _ _) fun _ => .before (expect _ _ _) fun _ => .pure trivial
  have comparison : Traces context id False
      (Lower.comparison context op symbol place rightPos left right) fun _ => True := by
    have silent {typed : TypedCode} : Accounts context (Pure.pure typed : Lower σ TypedCode) :=
      (pure (Q := fun _ => True) trivial).accounts
    unfold Lower.comparison
    dsimp only
    split
    · refine .ite (complain_then rfl rfl silent) ?_
      exact .ite (complain_then rfl rfl silent) (.pure trivial)
    · exact .pure trivial
  have arithmetic : Traces context id False
      (Lower.arithmetic context op symbol place rightPos left right) fun _ => True := by
    unfold Lower.arithmetic
    refine .ite (.pure trivial) ?_
    split
    · exact .pure trivial
    · refine .ite (.before (expect _ _ _) fun _ => .pure trivial) (.ite (.pure trivial) ?_)
      exact fail rfl rfl _
  unfold Lower.binary
  split
  all_goals first
    | exact logical
    | exact comparison
    | exact arithmetic

theorem cast (pos : Position) (operand : TypedCode) (type : TypeTree) :
    Traces context id False (Lower.cast context pos operand type) fun _ => True := by
  unfold Lower.cast
  dsimp only
  split
  · exact fail rfl rfl _
  · refine .ite ?_ ?_
    · exact fail rfl rfl _
    · split
      · exact .pure trivial
      · exact .pure trivial
      · exact .pure trivial
      · refine .ite (.pure trivial) ?_
        exact fail rfl rfl _
      · exact fail rfl rfl _

theorem method (receiver : TypedCode) (ident : Ident) :
    Traces context id False (Lower.method context receiver ident) fun _ => True := by
  unfold Lower.method
  split
  · exact .pure trivial
  · refine .ite (.pure trivial) (.ite (.pure trivial) (.ite (.pure trivial)
      (.ite (.pure trivial) ?_)))
    exact fail rfl rfl _

/-! ## Calls -/

theorem expectArguments (types : List (Option TypeRef)) (args : List (Position × TypedCode)) :
    Traces context id False (Lower.expectArguments context types args) fun _ => True := by
  induction types generalizing args with
  | nil => exact .pure trivial
  | cons expected types ih =>
      cases args with
      | nil => exact .pure trivial
      | cons arg args => exact .before (expect _ _ _) fun _ => ih args

theorem textCall (pos : Position) (function : String) (args : List (Position × TypedCode)) :
    Traces context id False (Lower.textCall context pos function args) fun _ => True := by
  unfold Lower.textCall
  have count (expected : Nat) : Traces context id False
      (Lower.fail context pos (.argumentCount expected args.length)) fun _ => True :=
    fail rfl rfl _
  refine .ite (.ite (.pure trivial) (count _)) (.ite ?_ ?_)
  · split
    · exact .ite (.pure trivial) (.before (expect _ _ _) fun _ => .pure trivial)
    · exact count _
  · exact fail rfl rfl _

theorem constructorCall (pos functionPos : Position) (unit function : String)
    (args : List (Position × TypedCode)) :
    Traces context id False (Lower.constructorCall context pos functionPos unit function args)
      fun _ => True := by
  refine .before (check (Q := fun _ => True) (constructorsOf_tellsOther context unit)
    fun _ _ => trivial) ?_
  intro constructors
  split
  · exact fail rfl rfl _
  · refine .ite ?_ (.before (expectArguments _ _) fun _ => .pure trivial)
    exact fail rfl rfl _

theorem call (pos functionPos : Position) (names : List String)
    (args : List (Position × TypedCode)) :
    Traces context id False (Lower.call context pos functionPos names args) fun _ => True := by
  unfold Lower.call
  split
  · exact fail rfl rfl _
  · exact textCall _ _ _
  · refine .before (check (Q := fun _ => True) (Declarations.resolveUnit_tellsOther _ _ _)
      fun _ _ => trivial) ?_
    intro unit
    cases unit with
    | none => exact .before giveUp fun _ => .pure trivial
    | some unit => exact constructorCall _ _ _ _ _

/-! ## Expressions -/

theorem atLimit (tree : ExprTree) :
    Traces context effect True (Lower.atLimit context tree) fun _ => True := by
  intro ⟨session, scope, reportedDepth, complete⟩ after value run
  cases reportedDepth with
  | true =>
      cases run
      refine ⟨[], .silent rfl rfl, ?_⟩
      intro _
      exact ⟨trivial, ⟨by simp, fun shallow => absurd trivial shallow⟩⟩
  | false =>
      cases run
      refine ⟨[depthReport context.decls.uri (headPos tree)], ⟨?_, ?_, ?_⟩, ?_⟩
      · exact Session.delivered_report rfl session
      · simp [depthReport, Problem.diagnostic, Problem.severity]
      · have known : isDepthReport context.decls.uri
            (depthReport context.decls.uri (headPos tree)) = true :=
          isDepthReport_iff.mpr ⟨_, rfl⟩
        rw [List.countP_singleton, known]
        rfl
      · intro _
        exact ⟨trivial, ⟨by simp, fun shallow => absurd trivial shallow⟩⟩

/-- What an expression marks at a depth that is not below the deepest level. -/
def Follows (context : LoweringContext σ) (depth : Nat) (tree : ExprTree) : Prop :=
  depth ≤ maxExprDepth → Traces context (Scope.useNames tree.occurrences)
    (maxExprDepth < depth + tree.levels) (expr context depth tree) fun _ => True

def FollowsAll (context : LoweringContext σ) (depth : Nat) (trees : List ExprTree) : Prop :=
  depth ≤ maxExprDepth → Traces context (Scope.useNames (ExprTree.occurrencesAll trees))
    (maxExprDepth < depth + ExprTree.levelsAll trees) (exprs context depth trees) fun _ => True

theorem plainNames_silent {path : NamePath} (session : Session σ)
    (silent : (context.decls.plainNames path session).2.delivered = session.delivered) :
    (context.decls.plainNames path session).1 = some path.names := by
  unfold Declarations.plainNames at silent ⊢
  cases generic : path.segments.findSome? Segment.arguments with
  | none => rfl
  | some arguments =>
      simp only [generic] at silent
      have told : (context.decls.complain arguments.pos .genericArguments session).2.delivered =
          session.delivered := silent
      rw [Declarations.complain, Session.complain, Session.delivered_report rfl] at told
      simp at told

theorem names_of_ident? {path : NamePath} {ident : Ident} (single : path.ident? = some ident) :
    path.names = [ident.name] := by
  unfold NamePath.ident? at single
  split at single
  · rename_i segments
    cases single
    rw [NamePath.names, segments]
    rfl
  · cases single

theorem expr_exprs_traces :
    (∀ depth tree, Follows context depth tree) ∧ ∀ depth trees, FollowsAll context depth trees := by
  apply expr_exprs_induct
    (P := fun depth tree step => depth ≤ maxExprDepth → Traces context
      (Scope.useNames tree.occurrences) (maxExprDepth < depth + tree.levels) step fun _ => True)
    (Q := fun depth trees step => depth ≤ maxExprDepth → Traces context
      (Scope.useNames (ExprTree.occurrencesAll trees))
      (maxExprDepth < depth + ExprTree.levelsAll trees) step fun _ => True)
  case limit =>
    intro tree _
    have deep : maxExprDepth < maxExprDepth + tree.levels :=
      Nat.lt_add_of_pos_right tree.levels_pos
    exact (atLimit tree).congr_deep (by simp [deep])
  case refused =>
    intro depth above tree pos problem form _
    exact fail form.severity (by cases form <;> rfl) _
  case literal =>
    intro depth above pos place value reached
    apply (literal _ _ _).congr_deep
    simp only [ExprTree.levels, false_iff]
    omega
  case minusLiteral =>
    intro depth above pos place start literalPlace value reached
    apply (literal _ _ _).congr_deep
    simp only [ExprTree.levels, false_iff]
    omega
  case paren =>
    intro depth above pos opening inner ih reached
    apply (ih (by omega)).congr_deep
    simp only [ExprTree.levels]
    omega
  case path =>
    intro depth above pos qualified names reached
    apply (namedValue _ _ _).congr_deep
    simp only [ExprTree.levels, false_iff]
    omega
  case minus =>
    intro depth above pos place operand other ih reached
    apply (behind (ih (by omega)) fun _ => unary _ _ _).congr_deep
    rw [ExprTree.levels_minus other]
    omega
  case not =>
    intro depth above pos place operand ih reached
    apply (behind (ih (by omega)) fun _ => unary _ _ _).congr_deep
    simp only [ExprTree.levels]
    omega
  case binary =>
    intro depth above pos place op left right found symbol known ihLeft ihRight reached
    have right (leftCode : TypedCode) := behind (ihRight (by omega)) fun rightCode =>
      binary found symbol place left.pos right.pos leftCode rightCode
    rw [ExprTree.occurrences, Scope.useNames_comp]
    apply (andThen (ihLeft (by omega)) right).congr_deep
    simp only [ExprTree.levels]
    omega
  case cast =>
    intro depth above pos place operand type ih reached
    apply (behind (ih (by omega)) fun _ => cast _ _ _).congr_deep
    simp only [ExprTree.levels]
    omega
  case method =>
    intro depth above pos receiver ident ih reached
    rw [ExprTree.occurrences, ExprTree.occurrencesAll, List.append_nil]
    apply (behind (ih (by omega)) fun _ => method _ _).congr_deep
    simp only [ExprTree.levels, ExprTree.levelsAll]
    omega
  case methodArguments =>
    intro depth above pos receiver ident first rest ih reached
    exact bind_refused (ih (by omega)).accounts fun _ => fail rfl rfl _
  case call =>
    intro depth above pos opening functionPos names args ih reached
    have rest : Traces context (Scope.useNames (ExprTree.call pos opening
          (.path functionPos false names) args).occurrences)
        (maxExprDepth < depth + 1 + ExprTree.levelsAll args) (do
          Lower.call context pos functionPos names.names (← exprs context (depth + 1) args))
        fun _ => True := by
      cases single : names.ident? with
      | none =>
          rw [ExprTree.occurrences, ExprTree.occurrences, single]
          exact behind (ih (by omega)) fun codes => call _ _ _ _
      | some ident =>
          apply bind_refused (ih (by omega)).accounts
          intro codes
          unfold Lower.call
          rw [names_of_ident? single]
          exact fail rfl rfl _
    have asked : Traces context id False (Lower.check (context.decls.plainNames names))
        (· = some names.names) :=
      check (Declarations.plainNames_tellsOther names) plainNames_silent
    have either : (False ∨ maxExprDepth < depth + 1 + ExprTree.levelsAll args) ↔ maxExprDepth <
        depth + (ExprTree.call pos opening (.path functionPos false names) args).levels := by
      simp only [ExprTree.levels, false_or]
      omega
    change Traces context (Scope.useNames (ExprTree.call pos opening
      (.path functionPos false names) args).occurrences ∘ id) _ _ _
    apply congr_deep _ either
    apply bind asked
    · intro found _
      cases found with
      | none => exact (andThen giveUp fun _ => pure (Q := fun _ => True) trivial).accounts
      | some names => exact (andThen (ih (by omega)) fun _ => call _ _ _ _).accounts
    · rintro found rfl
      exact rest
  case reference =>
    intro depth above pos place operand ih reached
    have passed (code : TypedCode) : Traces context id False (if code.type.all (· = .str)
        then Pure.pure code else Lower.fail context pos .unsupportedReference) fun _ => True :=
      ite (pure trivial) (fail rfl rfl _)
    apply (behind (ih (by omega)) passed).congr_deep
    simp only [ExprTree.levels]
    omega
  case nil =>
    intro depth reached
    apply (pure (Q := fun _ => True) trivial).congr_deep
    simp only [ExprTree.levelsAll, false_iff]
    omega
  case cons =>
    intro depth first rest ih ihRest reached
    rw [ExprTree.occurrencesAll, Scope.useNames_comp]
    have others (code : TypedCode) : Traces context
        (Scope.useNames (ExprTree.occurrencesAll rest))
        (maxExprDepth < depth + ExprTree.levelsAll rest)
        (do return (first.pos, code) :: (← exprs context depth rest)) fun _ => True :=
      behind (ihRest reached) fun codes => pure trivial
    apply (andThen (ih reached) others).congr_deep
    simp only [ExprTree.levelsAll]
    omega

end Traces

end Lower

end UnitForge
