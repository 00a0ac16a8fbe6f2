import UnitForge.Proofs.Lowering.Elaboration

/-! # Lowering follows the rules

A lowering that is complete at its end has met nothing to report, so that each step of it has taken
the way that a rule describes. -/
set_option autoImplicit false
namespace UnitForge

open Source Step

variable {σ : Type}

/-! ## Names in scope -/

namespace Scope

theorem slot?_append (scope : Scope) (last : Binding) (name : String) :
    slot? (scope ++ [last]) name =
      if last.name = name then some scope.length else slot? scope name := by
  unfold slot?
  rw [List.reverse_append, List.reverse_singleton, List.singleton_append, List.findIdx?_cons,
    List.length_append, List.length_singleton]
  by_cases same : last.name = name
  · simp [same]
  · simp only [same, decide_false, Bool.false_eq_true, if_false, Option.map_map]
    congr 1
    funext back
    simp only [Function.comp_apply]
    omega

theorem slot?_lt {scope : Scope} {name : String} {slot : Nat}
    (found : slot? scope name = some slot) : slot < scope.length := by
  unfold slot? at found
  obtain ⟨back, here, rfl⟩ := Option.map_eq_some_iff.mp found
  have within := List.findIdx?_eq_some_iff_getElem.mp here |>.1
  rw [List.length_reverse] at within
  omega

theorem find?_locals {scope : Scope} {locals : Locals} (same : scope.locals = locals.bindings)
    {name : String} {slot : Nat} {binding : Binding}
    (found : scope.find? name = some (slot, binding)) :
    ∃ type, binding.type = some type ∧ locals.find? name = some (slot, type) := by
  induction locals generalizing scope with
  | nil =>
      have none : scope = [] := List.map_eq_nil_iff.mp same
      subst none
      cases found
  | cons first earlier ih =>
      obtain ⟨known, type⟩ := first
      rw [Locals.bindings_cons] at same
      obtain ⟨front, rest, rfl, before, last⟩ := List.map_eq_append_iff.mp same
      obtain ⟨binding', others, rfl, here, nothing⟩ := List.map_eq_cons_iff.mp last
      cases List.map_eq_nil_iff.mp nothing
      obtain ⟨rfl, typed⟩ := Prod.mk.inj here
      have lengths : front.length = earlier.length := by
        have := congrArg List.length before
        rwa [List.length_map, Locals.length_bindings] at this
      obtain ⟨slot', looked, rest⟩ := Option.bind_eq_some_iff.mp found
      obtain ⟨binding'', reached, same⟩ := Option.bind_eq_some_iff.mp rest
      cases same
      rw [slot?_append] at looked
      unfold Locals.find?
      split at looked
      · rename_i same
        cases looked
        rw [List.getElem?_concat_length] at reached
        cases reached
        rw [if_pos same, ← lengths]
        exact ⟨type, typed, rfl⟩
      · rename_i other
        rw [List.getElem?_append_left (slot?_lt looked)] at reached
        rw [if_neg other]
        exact ih before (by rw [Scope.find?, looked]; simp [reached])

end Scope

/-! ## Complete runs -/

/-- A later state, which is not complete if the earlier one was not. -/
structure Lowering.Later (context : LoweringContext σ) (before after : Lowering σ) : Prop where
  session : before.session.Extends context.manager after.session
  complete : after.complete = true → before.complete = true

instance {context : LoweringContext σ} : IsPreorder (Lowering σ) (Lowering.Later context) where
  refl _ := ⟨.refl _, id⟩
  trans _ _ _ h k := ⟨h.session.trans k.session, fun done => h.complete (k.complete done)⟩

namespace Lower

variable {context : LoweringContext σ} {view : ClassPathView} {refs : References}
  {locals : Locals} {α β : Type}

/-- Every run of a step goes on to a later state. -/
abbrev Onward (context : LoweringContext σ) (step : Lower σ α) : Prop :=
  Within (Lowering.Later context) step

theorem Grows.onward {step : Lower σ α} (grows : Grows context step) : Onward context step :=
  fun before => ⟨(grows before).session, (grows before).complete⟩

theorem Keeps.onward {step : Lower σ α} (keeps : Keeps context step) : Onward context step :=
  keeps.grows.onward

theorem giveUp_onward : Onward context (giveUp (σ := σ)) :=
  fun _ => ⟨.refl _, nofun⟩

/-- What a complete run of a step with names in scope gives, in a session that remembers no more of
the class path than a view. -/
def Gives (view : ClassPathView) (locals : Locals) (step : Lower σ α) (Q : α → Prop) : Prop :=
  ∀ (before after : Lowering σ) (value : α), step before = (value, after) →
    after.complete = true → after.session.SeenIn view →
    before.scope.locals = locals.bindings → Q value

theorem Gives.pure {value : α} {Q : α → Prop} (holds : Q value) :
    Gives view locals (Pure.pure value : Lower σ α) Q := by
  intro before after found run _ _ _
  cases run
  exact holds

theorem Gives.bind {step : Lower σ α} {next : α → Lower σ β} {P : α → Prop} {Q : β → Prop}
    (keeps : Keeps context step) (onward : ∀ value, Onward context (next value))
    (first : Gives view locals step P) (rest : ∀ value, P value → Gives view locals (next value) Q) :
    Gives view locals (step >>= next) Q := by
  intro before after value run complete seen scope
  obtain ⟨found, middle, ran, run⟩ := bind_run run
  have more := (onward found).of_run run
  have holds := first _ _ _ ran (more.complete complete) (more.session.seenIn seen) scope
  exact rest found holds _ _ _ run complete seen ((keeps.of_run ran).locals.trans scope)

theorem complain_gives (pos : Position) (problem : Problem) (Q : Unit → Prop) :
    Gives view locals (complain context pos problem) Q := by
  intro before after value run complete
  rw [not_complete_of_complain run] at complete
  cases complete

theorem complain_then {next : Lower σ α} (onward : Onward context next) (pos : Position)
    (problem : Problem) (grave : problem.severity = .error) (Q : α → Prop) :
    Gives view locals (do complain context pos problem; next) Q := by
  refine .bind (complain_keeps grave) (fun _ => onward) (complain_gives _ _ fun _ => False) ?_
  intro _ absurd
  exact absurd.elim

theorem fail_gives (pos : Position) (problem : Problem) (Q : TypedCode → Prop) :
    Gives view locals (fail context pos problem) Q := by
  intro before after value run complete
  obtain ⟨_, middle, told, run⟩ := bind_run run
  cases run
  rw [not_complete_of_complain told] at complete
  cases complete

theorem gaveUp_gives (answer : α) (Q : α → Prop) :
    Gives view locals (do giveUp; return answer : Lower σ α) Q := by
  intro before after value run complete
  cases run
  cases complete

theorem expect_gives (pos : Position) (expected found : TypeRef) :
    Gives view locals (expect context pos (some expected) (some found))
      fun _ => expected = found := by
  unfold expect
  dsimp only
  by_cases same : expected = found
  · rw [if_neg (not_not_intro same)]
    exact .pure same
  · rw [if_pos same]
    exact complain_gives _ _ _

theorem check_gives {step : Check σ α} {P : α → Prop}
    (each : ∀ before after value, step before = (value, after) → after.SeenIn view → P value) :
    Gives view locals (check step) P := by
  intro before after value run _ seen _
  obtain ⟨rfl, rfl⟩ := Prod.mk.inj run
  exact each _ _ _ (run_eta step before.session) seen

def Coded (refs : References) (locals : Locals) (tree : ExprTree) (typed : TypedCode) : Prop :=
  ∃ code type, typed = .known code type ∧ Elab refs locals tree code type

/-! ## Leaves and operators -/

theorem literal_gives (negated : Bool) (place : Position) (value : Literal) :
    Gives view locals (literal context negated place value) fun typed =>
      ∃ type, typed = .known (.constant (literalValue negated value)) type ∧
        (literalValue negated value).type? = some type := by
  unfold literal literalValue
  cases value with
  | int value suffix =>
      dsimp only
      generalize (decide (suffix = "f32") || decide (suffix = "f64")) = isFloat
      cases isFloat with
      | true => exact .pure ⟨.float, rfl, rfl⟩
      | false =>
          generalize (if negated = true then -(value : Int) else value) = signed
          by_cases fits : fitsInt64 signed = true
          · rw [if_neg Bool.false_ne_true, if_pos fits]
            exact .pure ⟨.int, rfl, rfl⟩
          · rw [if_neg Bool.false_ne_true, if_neg fits]
            exact fail_gives _ _ _
  | float digits suffix =>
      dsimp only
      split
      · exact .pure ⟨.float, rfl, rfl⟩
      · exact fail_gives _ _ _
  | bool value =>
      dsimp only
      split
      · exact fail_gives _ _ _
      · exact .pure ⟨.bool, rfl, rfl⟩
  | str value =>
      dsimp only
      split
      · exact fail_gives _ _ _
      · exact .pure ⟨.str, rfl, rfl⟩
  | other => exact fail_gives _ _ _

theorem namedValue_gives (pos : Position) (qualified : Bool) (path : NamePath) :
    Gives view locals (namedValue context pos qualified path) fun typed =>
      ∃ ident slot type, qualified = false ∧ path.ident? = some ident ∧
        locals.find? ident.name = some (slot, type) ∧
        typed = .known (.slot slot.toUInt32) type := by
  unfold namedValue
  cases qualified with
  | true => exact fail_gives _ _ _
  | false =>
      cases single : path.ident? with
      | none => exact fail_gives _ _ _
      | some ident =>
          intro before after typed run complete seen scope
          obtain ⟨_, _, got, run⟩ := bind_run run
          cases got
          cases found : before.scope.find? ident.name with
          | none =>
              simp only [found] at run
              exact (fail_gives _ _ (fun _ => False) _ _ _ run complete seen scope).elim
          | some place =>
              obtain ⟨slot, binding⟩ := place
              simp only [found] at run
              obtain ⟨_, _, _, run⟩ := bind_run run
              cases run
              obtain ⟨type, typed, known⟩ := Scope.find?_locals scope found
              refine ⟨ident, slot, type, rfl, rfl, known, ?_⟩
              rw [typed]
              rfl

theorem unary_gives (pos : Position) (op : UnaryOp) (code : Expr) (type : TypeRef) :
    Gives view locals (unary context pos op (.known code type)) fun typed =>
      typed = .known (.unary op code) type ∧
        match op with
        | .neg => isNumeric type = true
        | .not => type = .bool ∨ type = .int := by
  unfold unary
  cases op with
  | neg =>
      dsimp only [TypedCode.known]
      split
      · rename_i admitted
        refine .pure ⟨rfl, ?_⟩
        simpa [isNumeric] using admitted
      · exact fail_gives _ _ _
  | not =>
      dsimp only [TypedCode.known]
      split
      · rename_i admitted
        refine .pure ⟨rfl, ?_⟩
        simpa using admitted
      · exact fail_gives _ _ _

theorem logical_gives (op : BinaryOp) (leftPos rightPos : Position) (left right : Expr)
    (l r : TypeRef) :
    Gives view locals (logical context op leftPos rightPos (.known left l) (.known right r))
      fun typed => typed = .known (.binary op left right) .bool ∧ l = .bool ∧ r = .bool := by
  refine .bind (expect_keeps _ _ _) (fun _ => .bind (expect_keeps _ _ _).onward fun _ => .pure _)
    (expect_gives leftPos .bool l) ?_
  intro _ leftBool
  refine .bind (expect_keeps _ _ _) (fun _ => .pure _) (expect_gives rightPos .bool r) ?_
  intro _ rightBool
  exact .pure ⟨rfl, leftBool.symm, rightBool.symm⟩

theorem comparison_gives (op : BinaryOp) (symbol : String) (place rightPos : Position)
    (left right : Expr) (l r : TypeRef) :
    Gives view locals
      (comparison context op symbol place rightPos (.known left l) (.known right r)) fun typed =>
        typed = .known (.binary op left right) .bool ∧ l = r ∧ l.isPrimitive = true := by
  unfold comparison
  dsimp only [TypedCode.known]
  by_cases same : l = r
  · rw [if_neg (not_not_intro same)]
    by_cases primitive : l.isPrimitive = true
    · rw [if_neg (by simp [primitive])]
      exact .pure ⟨rfl, same, primitive⟩
    · rw [if_pos (by simp [primitive])]
      exact complain_then (.pure _) _ _ rfl _
  · rw [if_pos same]
    exact complain_then (.pure _) _ _ rfl _

theorem arithmetic_gives (op : BinaryOp) (symbol : String) (place rightPos : Position)
    (left right : Expr) (l r : TypeRef) :
    Gives view locals
      (arithmetic context op symbol place rightPos (.known left l) (.known right r)) fun typed =>
        l = r ∧ ((op = .add ∧ l = .str ∧ typed = .known (.binary .concat left right) .str) ∨
          (isNumeric l = true ∧ typed = .known (.binary op left right) l)) := by
  unfold arithmetic
  dsimp only [TypedCode.known]
  by_cases texts : op = .add ∧ l = .str ∧ r = .str
  · obtain ⟨rfl, rfl, rfl⟩ := texts
    exact .pure ⟨rfl, .inl ⟨rfl, rfl, rfl⟩⟩
  · rw [if_neg (by cases op <;> cases l <;> cases r <;> simp at texts ⊢)]
    by_cases same : l = r
    · subst same
      rw [if_neg (by simp)]
      split
      · rename_i numeric
        exact .pure ⟨rfl, .inr ⟨numeric, rfl⟩⟩
      · exact fail_gives _ _ _
    · rw [if_pos (by simpa using Ne.symm same)]
      exact .bind (expect_keeps _ _ _) (fun _ => .pure _) (expect_gives rightPos l r)
        fun _ equal => absurd equal same

theorem binary_gives {pos place : Position} {operator : BinaryOperator} {op : BinaryOp}
    {symbol : String} (known : operator? operator = some (op, symbol))
    (leftPos rightPos : Position) {left right : ExprTree} {leftCode rightCode : Expr}
    {l r : TypeRef} (leftElab : Elab refs locals left leftCode l)
    (rightElab : Elab refs locals right rightCode r) :
    Gives view locals (binary context op symbol place leftPos rightPos (.known leftCode l)
      (.known rightCode r)) (Coded refs locals (.binary pos place operator left right)) := by
  intro before after typed run complete seen scope
  have logical (isLogical : op.isLogical = true) (run : logical context op leftPos rightPos
      (.known leftCode l) (.known rightCode r) before = (typed, after)) :
      Coded refs locals (.binary pos place operator left right) typed := by
    obtain ⟨rfl, rfl, rfl⟩ := logical_gives _ _ _ _ _ _ _ _ _ _ run complete seen scope
    exact ⟨_, _, rfl, .logical known isLogical leftElab rightElab⟩
  have comparison (isComparison : op.isComparison = true) (run : comparison context op symbol
      place rightPos (.known leftCode l) (.known rightCode r) before = (typed, after)) :
      Coded refs locals (.binary pos place operator left right) typed := by
    obtain ⟨rfl, rfl, primitive⟩ :=
      comparison_gives _ _ _ _ _ _ _ _ _ _ _ run complete seen scope
    exact ⟨_, _, rfl, .comparison known isComparison primitive leftElab rightElab⟩
  have arithmetic (isArithmetic : op.isArithmetic = true) (run : arithmetic context op symbol
      place rightPos (.known leftCode l) (.known rightCode r) before = (typed, after)) :
      Coded refs locals (.binary pos place operator left right) typed := by
    obtain ⟨rfl, ⟨rfl, rfl, rfl⟩ | ⟨numeric, rfl⟩⟩ :=
      arithmetic_gives _ _ _ _ _ _ _ _ _ _ _ run complete seen scope
    · exact ⟨_, _, rfl, .concat known leftElab rightElab⟩
    · exact ⟨_, _, rfl, .arithmetic known isArithmetic numeric leftElab rightElab⟩
  cases op with
  | and | or => exact logical rfl run
  | eq | ne | lt | le | gt | ge => exact comparison rfl run
  | add | sub | mul | div | rem => exact arithmetic rfl run
  | concat => cases operator <;> cases known

theorem cast_gives (pos : Position) (code : Expr) (type : TypeRef) (written : TypeTree) :
    Gives view locals (cast context pos (.known code type) written) fun typed =>
      ∃ target, castTarget? written = some target ∧ type.castsTo target = true ∧
        typed = .known (.cast code target) target := by
  unfold cast
  dsimp only [TypedCode.known]
  cases written with
  | paren start inner => exact fail_gives _ _ _
  | other start form => exact fail_gives _ _ _
  | path start qualified names =>
      cases qualified with
      | true => exact fail_gives _ _ _
      | false =>
          have named : castTarget? (.path start false names) = names.ident?.bind fun ident =>
            Declarations.primitive? ident.written := rfl
          rw [named]
          dsimp only
          cases names.ident?.bind fun ident => Declarations.primitive? ident.written with
          | none => exact fail_gives _ _ _
          | some target =>
              dsimp only
              by_cases numeric : isNumeric target = true
              · rw [if_neg (by simp [numeric])]
                cases type with
                | int | float => exact .pure ⟨target, rfl, numeric, rfl⟩
                | bool =>
                    dsimp only
                    by_cases int : target = .int
                    · rw [if_pos int]
                      exact .pure ⟨target, rfl, decide_eq_true int, rfl⟩
                    · rw [if_neg int]
                      exact fail_gives _ _ _
                | str | unit name => exact fail_gives _ _ _
              · rw [if_pos (by simp [numeric])]
                exact fail_gives _ _ _

theorem method_gives (code : Expr) (type : TypeRef) (ident : Ident) :
    Gives view locals (method context (.known code type) ident) fun typed =>
      (ident.name = "to_string" ∧ type.isPrimitive = true ∧ typed = .known (.toText code) .str) ∨
        (isIdentity ident.name type = true ∧ typed = .known code type) ∨
          (ident.name = "len" ∧ type = .str ∧ typed = .known (.length code) .int) := by
  unfold method
  dsimp only [TypedCode.known]
  split
  · rename_i text
    simp only [Bool.and_eq_true, decide_eq_true_eq] at text
    exact .pure (.inl ⟨text.1, text.2, rfl⟩)
  split
  · rename_i copy
    exact .pure (.inr (.inl ⟨by simp only [isIdentity, copy, Bool.true_or], rfl⟩))
  split
  · rename_i into
    exact .pure (.inr (.inl ⟨by simp only [isIdentity, into, Bool.or_true], rfl⟩))
  split
  · rename_i length
    simp only [Bool.and_eq_true, decide_eq_true_eq] at length
    exact .pure (.inr (.inr ⟨length.1, length.2, rfl⟩))
  · exact fail_gives _ _ _

/-! ## Calls -/

def entries (image : UnitImage) : List (String × List (Option TypeRef)) :=
  image.constructors.map fun ctor => (ctor.name, ctor.paramTypes.map some)

/-- What a source refers to is what its declarations, the signatures of its own structs and the
class path say. -/
structure Sees (context : LoweringContext σ) (view : ClassPathView) (refs : References) :
    Prop where
  unitOf : refs.unitOf = context.decls.unitOf? view context.owner.name
  own : ∀ unit sig, context.sigs.find? (·.fullName = unit) = some sig → ∃ image,
    refs.image? unit = some image ∧
      sig.constructors.map (fun ctor => (ctor.name, ctor.paramTypes)) = entries image
  others : ∀ unit, context.sigs.find? (·.fullName = unit) = none →
    refs.image? unit = view.image? unit

theorem lookup_entries {image : UnitImage} {function : String} {params : List (Option TypeRef)}
    (found : (entries image).lookup function = some params) :
    ∃ ctor, image.constructor? function = some ctor ∧ params = ctor.paramTypes.map some := by
  unfold entries at found
  unfold UnitImage.constructor?
  generalize image.constructors = constructors at found
  induction constructors with
  | nil => cases found
  | cons first rest ih =>
      rw [List.map_cons, List.lookup_cons] at found
      rw [List.find?_cons]
      by_cases same : first.name = function
      · rw [same, beq_self_eq_true] at found
        cases found
        exact ⟨first, by simp [same], rfl⟩
      · rw [beq_eq_false_iff_ne.mpr (Ne.symm same)] at found
        simp only [same, decide_false]
        exact ih found

theorem constructorsOf_run (sees : Sees context view refs) {unit : String}
    {constructors : List (String × List (Option TypeRef))} {before after : Session σ}
    (run : constructorsOf context unit before = (constructors, after)) (seen : after.SeenIn view) :
    ∀ function params, constructors.lookup function = some params →
      ∃ image ctor, refs.image? unit = some image ∧ image.constructor? function = some ctor ∧
        params = ctor.paramTypes.map some := by
  unfold constructorsOf at run
  intro function params found
  cases own : context.sigs.find? (·.fullName = unit) with
  | some sig =>
      simp only [own] at run
      cases run
      obtain ⟨image, known, same⟩ := sees.own unit sig own
      rw [same] at found
      obtain ⟨ctor, called, rfl⟩ := lookup_entries found
      exact ⟨image, ctor, known, called, rfl⟩
  | none =>
      simp only [own] at run
      obtain ⟨answer, middle, looked, run⟩ := bind_run run
      cases run
      obtain ⟨-, remembered⟩ := Session.classPathUnit_run looked
      have known : refs.image? unit = answer := by
        rw [sees.others unit own, ClassPathView.image?, seen.units _ _ remembered]
        rfl
      cases answer with
      | none => cases found
      | some image =>
          obtain ⟨ctor, called, rfl⟩ := @lookup_entries image _ _ found
          exact ⟨image, ctor, known, called, rfl⟩

theorem expectArguments_gives {types : List TypeRef} {args : List (Position × TypedCode)}
    {known : List Elaborated}
    (same : args.map Prod.snd = known.map fun arg => .known arg.code arg.type)
    (count : types.length = known.length) :
    Gives view locals (expectArguments context (types.map some) args)
      fun _ => types = known.map Elaborated.type := by
  induction types generalizing args known with
  | nil =>
      cases known with
      | nil => exact .pure rfl
      | cons arg rest => cases count
  | cons type types ih =>
      cases known with
      | nil => cases count
      | cons arg rest =>
          obtain ⟨⟨pos, first⟩, others, rfl, here, later⟩ := List.map_eq_cons_iff.mp same
          cases here
          refine .bind (expect_keeps _ _ _) (fun _ => (expectArguments_keeps _ _).onward)
            (expect_gives pos type arg.type) ?_
          intro _ equal before after value run complete seen scope
          have remaining := ih later (Nat.succ.inj count) _ _ _ run complete seen scope
          rw [List.map_cons, ← equal, ← remaining]

theorem textCall_gives (pos : Position) (function : String) {args : List (Position × TypedCode)}
    {known : List Elaborated}
    (same : args.map Prod.snd = known.map fun arg => .known arg.code arg.type) :
    Gives view locals (textCall context pos function args) fun typed =>
      (function = "new" ∧ known = [] ∧ typed = .known (.str "") .str) ∨
        ∃ arg, function = "from" ∧ known = [arg] ∧ arg.type = .str ∧
          typed = .known arg.code .str := by
  unfold textCall
  dsimp only
  split
  · rename_i new
    split
    · rename_i empty
      rw [List.isEmpty_iff.mp empty] at same
      exact .pure (.inl ⟨new, List.map_eq_nil_iff.mp same.symm, rfl⟩)
    · exact fail_gives _ _ _
  split
  · rename_i from_
    match args, same with
    | [], _ | _ :: _ :: _, _ => exact fail_gives _ _ _
    | [(argPos, found)], same =>
        obtain ⟨arg, rest, rfl, here, nothing⟩ := List.map_eq_cons_iff.mp same.symm
        cases List.map_eq_nil_iff.mp nothing
        cases here
        dsimp only [TypedCode.known]
        by_cases text : arg.type = .str
        · rw [if_pos (by simp [text])]
          exact .pure (.inr ⟨arg, from_, rfl, text, rfl⟩)
        · rw [if_neg (by simp [text])]
          exact .bind (expect_keeps _ _ _) (fun _ => .pure _)
            (expect_gives argPos .str arg.type) fun _ equal => absurd equal.symm text
  · exact fail_gives _ _ _

theorem constructorCall_gives (sees : Sees context view refs) (pos functionPos : Position)
    (unit function : String) {args : List (Position × TypedCode)} {known : List Elaborated}
    (same : args.map Prod.snd = known.map fun arg => .known arg.code arg.type) :
    Gives view locals (constructorCall context pos functionPos unit function args) fun typed =>
      ∃ image ctor, refs.image? unit = some image ∧ image.constructor? function = some ctor ∧
        ctor.paramTypes = known.map Elaborated.type ∧
        typed = .known (.construct unit function (known.map Elaborated.code)) (.unit unit) := by
  have lengths : args.length = known.length := by
    have := congrArg List.length same
    rwa [List.length_map, List.length_map] at this
  have codes : args.map (·.2.code) = known.map Elaborated.code := by
    have := congrArg (List.map TypedCode.code) same
    rwa [List.map_map, List.map_map] at this
  refine .bind (check_keeps (constructorsOf_extends unit)) (fun constructors => ?_)
    (check_gives fun _ _ _ run seen => constructorsOf_run sees run seen) ?_
  · split
    · exact (fail_keeps rfl).onward
    · exact .ite (fail_keeps rfl).onward
        (.bind (expectArguments_keeps _ _).onward fun _ => .pure _)
  · intro constructors knows
    cases called : constructors.lookup function with
    | none => exact fail_gives _ _ _
    | some params =>
        obtain ⟨image, ctor, seen, found, rfl⟩ := knows function params called
        dsimp only
        by_cases count : (ctor.paramTypes.map some).length = args.length
        · rw [if_neg (not_not_intro count)]
          refine .bind (expectArguments_keeps _ _) (fun _ => .pure _)
            (expectArguments_gives same (by rwa [List.length_map, lengths] at count)) ?_
          intro _ types
          refine .pure ?_
          exact ⟨image, ctor, seen, found, types, by rw [codes]⟩
        · rw [if_pos count]
          exact fail_gives _ _ _

theorem call_gives (sees : Sees context view refs) {pos opening start : Position} {path : NamePath}
    (place functionPos : Position) {args : List (Position × TypedCode)} {known : List Elaborated}
    (same : args.map Prod.snd = known.map fun arg => .known arg.code arg.type)
    (elab_ : ∀ arg ∈ known, Elab refs locals arg.tree arg.code arg.type) :
    Gives view locals (call context place functionPos path.names args)
      (Coded refs locals
        (.call pos opening (.path start false path) (known.map Elaborated.tree))) := by
  unfold call
  dsimp only
  split
  · exact fail_gives _ _ _
  · rename_i text
    intro before after typed run complete seen scope
    rcases textCall_gives _ _ same _ _ _ run complete seen scope with
      ⟨new, rfl, rfl⟩ | ⟨arg, from_, rfl, type, rfl⟩
    · exact ⟨_, _, rfl, .emptyText text new⟩
    · refine ⟨_, _, rfl, .textFrom text from_ ?_⟩
      rw [← type]
      exact elab_ arg List.mem_cons_self
  · rename_i some_ notText
    have asks (type : List String) : Keeps context (check
        (context.decls.resolveUnit context.manager context.owner.name type functionPos)) :=
      check_keeps (Declarations.resolveUnit_extends _ _ _)
    refine .bind (P := fun unit? => ∀ unit, unit? = some unit →
      refs.unitOf path.names.dropLast = some unit) (asks _) ?onward ?first ?rest
    case onward =>
      intro unit?
      cases unit? with
      | none => exact .bind giveUp_onward fun _ => .pure _
      | some unit => exact (constructorCall_keeps _ _ _ _ _).onward
    case first =>
      apply check_gives
      intro before after unit? run seen
      rw [sees.unitOf]
      exact (Declarations.resolveUnit_run run seen).1
    case rest =>
      intro unit? names
      cases unit? with
      | none => exact gaveUp_gives _ _
      | some unit =>
          intro before after typed run complete seen scope
          obtain ⟨image, ctor, seen, found, types, rfl⟩ :=
            constructorCall_gives sees _ _ _ _ same _ _ _ run complete seen scope
          exact ⟨_, _, rfl, .construct some_ notText rfl (names unit rfl) seen found types elab_⟩

/-! ## Expressions -/

def CodedAll (refs : References) (locals : Locals) (trees : List ExprTree)
    (found : List (Position × TypedCode)) : Prop :=
  ∃ known : List Elaborated, trees = known.map Elaborated.tree ∧
    found.map Prod.snd = known.map (fun arg => .known arg.code arg.type) ∧
    ∀ arg ∈ known, Elab refs locals arg.tree arg.code arg.type

theorem atLimit_gives (tree : ExprTree) (Q : TypedCode → Prop) :
    Gives view locals (atLimit context tree) Q := by
  intro ⟨session, scope, reportedDepth, complete⟩ after typed run done
  cases reportedDepth with
  | true =>
      cases run
      cases done
  | false =>
      cases run
      cases done

theorem operand_gives {depth : Nat} {tree : ExprTree} {Q : TypedCode → Prop}
    {next : TypedCode → Lower σ TypedCode} (onward : ∀ typed, Onward context (next typed))
    (first : Gives view locals (expr context depth tree) (Coded refs locals tree))
    (rest : ∀ code type, Elab refs locals tree code type →
      Gives view locals (next (.known code type)) Q) :
    Gives view locals (do next (← expr context depth tree)) Q := by
  refine .bind (expr_keeps depth tree) onward first ?_
  intro typed coded
  obtain ⟨code, type, rfl, elab_⟩ := coded
  exact rest code type elab_

theorem expr_exprs_gives (sees : Sees context view refs) :
    (∀ depth tree, Gives view locals (expr context depth tree) (Coded refs locals tree)) ∧
      ∀ depth trees, Gives view locals (exprs context depth trees)
        (CodedAll refs locals trees) := by
  apply expr_exprs_induct (P := fun _ tree step => Gives view locals step (Coded refs locals tree))
    (Q := fun _ trees step => Gives view locals step (CodedAll refs locals trees))
  case limit =>
    intro tree
    exact atLimit_gives _ _
  case refused =>
    intro depth above tree pos problem form
    exact fail_gives _ _ _
  case literal =>
    intro depth above pos place value before after typed run complete seen scope
    obtain ⟨type, rfl, known⟩ := literal_gives _ _ _ _ _ _ run complete seen scope
    exact ⟨_, _, rfl, .literal known⟩
  case minusLiteral =>
    intro depth above pos place start literalPlace value before after typed run complete seen scope
    obtain ⟨type, rfl, known⟩ := literal_gives _ _ _ _ _ _ run complete seen scope
    exact ⟨_, _, rfl, .minusLiteral known⟩
  case paren =>
    intro depth above pos opening inner ih before after typed run complete seen scope
    obtain ⟨code, type, rfl, elab_⟩ := ih _ _ _ run complete seen scope
    exact ⟨_, _, rfl, .paren elab_⟩
  case path =>
    intro depth above pos qualified names before after typed run complete seen scope
    obtain ⟨ident, slot, type, rfl, single, known, rfl⟩ :=
      namedValue_gives _ _ _ _ _ _ run complete seen scope
    exact ⟨_, _, rfl, .name single known⟩
  case minus =>
    intro depth above pos place operand other ih
    refine operand_gives (fun _ => (unary_keeps _ _ _).onward) ih ?_
    intro code type elab_ before after typed run complete seen scope
    obtain ⟨rfl, numeric⟩ := unary_gives _ _ _ _ _ _ _ run complete seen scope
    exact ⟨_, _, rfl, .minus (fun start place value same => other start place value same)
      numeric elab_⟩
  case not =>
    intro depth above pos place operand ih
    refine operand_gives (fun _ => (unary_keeps _ _ _).onward) ih ?_
    intro code type elab_ before after typed run complete seen scope
    obtain ⟨rfl, admitted⟩ := unary_gives _ _ _ _ _ _ _ run complete seen scope
    exact ⟨_, _, rfl, .not admitted elab_⟩
  case binary =>
    intro depth above pos place op left right found symbol known ihLeft ihRight
    refine operand_gives (fun _ => .bind (expr_keeps _ _).onward fun _ =>
      (binary_keeps _ _ _ _ _ _ _).onward) ihLeft ?_
    intro leftCode l leftElab
    refine operand_gives (fun _ => (binary_keeps _ _ _ _ _ _ _).onward) ihRight ?_
    intro rightCode r rightElab
    exact binary_gives known _ _ leftElab rightElab
  case cast =>
    intro depth above pos place operand type ih
    refine operand_gives (fun _ => (cast_keeps _ _ _).onward) ih ?_
    intro code source elab_ before after typed run complete seen scope
    obtain ⟨target, named, casts, rfl⟩ := cast_gives _ _ _ _ _ _ _ run complete seen scope
    exact ⟨_, _, rfl, .cast named casts elab_⟩
  case method =>
    intro depth above pos receiver ident ih
    refine operand_gives (fun _ => (method_keeps _ _).onward) ih ?_
    intro code type elab_ before after typed run complete seen scope
    rcases method_gives _ _ _ _ _ _ run complete seen scope with
      ⟨name, primitive, rfl⟩ | ⟨identity, rfl⟩ | ⟨name, rfl, rfl⟩
    · exact ⟨_, _, rfl, .toText name primitive elab_⟩
    · exact ⟨_, _, rfl, .identity identity elab_⟩
    · exact ⟨_, _, rfl, .length name elab_⟩
  case methodArguments =>
    intro depth above pos receiver ident first rest ih
    exact operand_gives (fun _ => (fail_keeps rfl).onward) ih fun _ _ _ => fail_gives _ _ _
  case call =>
    intro depth above pos opening functionPos names args ih
    have asks : Keeps context (check (context.decls.plainNames names)) :=
      check_keeps (Declarations.plainNames_extends names)
    refine .bind (P := fun found => ∀ plain, found = some plain → plain = names.names) asks
      ?onward ?first ?rest
    case onward =>
      intro found
      cases found with
      | none => exact .bind giveUp_onward fun _ => .pure _
      | some plain => exact .bind (exprs_keeps _ _).onward fun _ => (call_keeps _ _ _ _).onward
    case first =>
      apply check_gives
      intro before after found run _
      rcases Declarations.plainNames_run run with ⟨rfl, -⟩ | ⟨rfl, -⟩
      · exact fun _ same => (Option.some.inj same).symm
      · exact fun _ same => absurd same.symm (Option.some_ne_none _)
    case rest =>
      intro found plain
      cases found with
      | none => exact gaveUp_gives _ _
      | some written =>
          cases plain written rfl
          refine .bind (exprs_keeps _ _) (fun _ => (call_keeps _ _ _ _).onward) ih ?_
          intro codes coded
          obtain ⟨known, rfl, same, all⟩ := coded
          exact call_gives sees _ _ same all
  case reference =>
    intro depth above pos place operand ih
    refine operand_gives (fun _ => ?_) ih ?_
    · exact .ite (.pure _) (fail_keeps rfl).onward
    · intro code type elab_
      by_cases text : type = .str
      · subst text
        exact .pure ⟨_, _, rfl, .reference elab_⟩
      · rw [if_neg (by simp [TypedCode.known, text])]
        exact fail_gives _ _ _
  case nil =>
    intro depth
    exact .pure ⟨[], rfl, rfl, List.forall_mem_nil _⟩
  case cons =>
    intro depth first rest ih ihRest
    refine .bind (expr_keeps _ _) (fun _ => .bind (exprs_keeps _ _).onward fun _ => .pure _) ih ?_
    intro typed coded
    refine .bind (exprs_keeps _ _) (fun _ => .pure _) ihRest ?_
    intro others codedAll
    refine .pure ?_
    obtain ⟨code, type, rfl, elab_⟩ := coded
    obtain ⟨known, rfl, same, all⟩ := codedAll
    refine ⟨⟨first, code, type⟩ :: known, rfl, by rw [List.map_cons, same]; rfl, ?_⟩
    exact List.forall_mem_cons.mpr ⟨elab_, all⟩

theorem expr_gives (sees : Sees context view refs) (depth : Nat) (tree : ExprTree) :
    Gives view locals (expr context depth tree) (Coded refs locals tree) :=
  (expr_exprs_gives sees).1 depth tree

/-! ## Statements -/

theorem finish_run {ident : Ident} {code : Expr} {type : TypeRef} {found : Option Stmt}
    {before after : Lowering σ} (scope : before.scope.locals = locals.bindings)
    (run : statement.finish ident code (some type) before = (found, after)) :
    found = some { slot := locals.length.toUInt32, value := code } ∧
      after.scope.locals = Locals.bindings ((ident.name, type) :: locals) := by
  have lengths : before.scope.length = locals.length := by
    have := congrArg List.length scope
    rwa [Scope.locals, List.length_map, Locals.length_bindings] at this
  cases run
  refine ⟨by rw [lengths], ?_⟩
  rw [Locals.bindings_cons, ← scope]
  exact List.map_append

theorem finish_onward (ident : Ident) (code : Expr) (type : Option TypeRef) :
    Onward context (statement.finish (σ := σ) ident code type) :=
  Grows.onward (.bind (bind_grows _ _ _) fun _ => .pure _)

theorem bindTo_run (sees : Sees context view refs) {ident : Ident} {declared : Option TypeTree}
    {value : ExprTree} {found : Option Stmt} {before after : Lowering σ}
    (run : statement.bindTo context ident declared value before = (found, after))
    (complete : after.complete = true) (seen : after.session.SeenIn view)
    (scope : before.scope.locals = locals.bindings) :
    ∃ code type, Elab refs locals value code type ∧
      found = some { slot := locals.length.toUInt32, value := code } ∧
      after.scope.locals = Locals.bindings ((ident.name, type) :: locals) := by
  obtain ⟨typed, middle, lowered, run⟩ := bind_run run
  have kept : middle.scope.locals = locals.bindings :=
    ((expr_keeps 0 value).of_run lowered).locals.trans scope
  have coded (later : middle.Later context after) : Coded refs locals value typed :=
    expr_gives sees 0 value _ _ _ lowered (later.complete complete) (later.session.seenIn seen)
      scope
  cases declared with
  | none =>
      obtain ⟨code, type, rfl, elab_⟩ := coded ((finish_onward _ _ _).of_run run)
      exact ⟨code, type, elab_, finish_run kept run⟩
  | some tree =>
      obtain ⟨declared, reached, resolved, run⟩ := bind_run run
      have asked : middle.Keeps context reached :=
        (check_keeps (Declarations.resolveType_extends _ tree)).of_run resolved
      cases declared with
      | none =>
          obtain ⟨_, gaveUp, given, run⟩ := bind_run run
          cases given
          have later : Lowering.Later context _ after := (finish_onward _ _ _).of_run run
          cases later.complete complete
      | some target =>
          obtain ⟨_, checked, expected, run⟩ := bind_run run
          have last : checked.Later context after := (finish_onward _ _ _).of_run run
          have compared : reached.Keeps context checked := (expect_keeps _ _ _).of_run expected
          obtain ⟨code, type, rfl, elab_⟩ := coded
            ⟨asked.session.trans (compared.session.trans last.session), fun done =>
              asked.complete (compared.complete (last.complete done))⟩
          have same : target = type := expect_gives _ _ _ _ _ _ expected
            (last.complete complete) (last.session.seenIn seen) (asked.locals.trans kept)
          subst same
          exact ⟨code, target, elab_,
            finish_run (compared.locals.trans (asked.locals.trans kept)) run⟩

theorem statement_run (sees : Sees context view refs) {tree : StmtTree} {found : Option Stmt}
    {before after : Lowering σ} (run : statement context tree before = (found, after))
    (complete : after.complete = true) (seen : after.session.SeenIn view)
    (scope : before.scope.locals = locals.bindings) :
    ∃ pos start ident declared value code type,
      tree = .binding pos (.ident start true ident) declared (some value) none ∧
      Elab refs locals value code type ∧
      found = some { slot := locals.length.toUInt32, value := code } ∧
      after.scope.locals = Locals.bindings ((ident.name, type) :: locals) := by
  revert run
  apply statement_forms (P := fun tree step => step before = (found, after) →
    ∃ pos start ident declared value code type,
      tree = .binding pos (.ident start true ident) declared (some value) none ∧
      Elab refs locals value code type ∧
      found = some { slot := locals.length.toUInt32, value := code } ∧
      after.scope.locals = Locals.bindings ((ident.name, type) :: locals))
  case refused =>
    intro tree pos problem form run
    obtain ⟨_, middle, told, run⟩ := bind_run run
    cases run
    rw [not_complete_of_complain told] at complete
    cases complete
  case binding =>
    intro pos start ident type value run
    obtain ⟨code, bound, elab_, same, names⟩ := bindTo_run sees run complete seen scope
    exact ⟨pos, start, ident, type, value, code, bound, rfl, elab_, same, names⟩

theorem statement_onward (tree : StmtTree) : Onward context (statement context tree) :=
  (statement_grows tree).onward

theorem statements_run (sees : Sees context view refs) {trees : List StmtTree} {body : List Stmt}
    {before after : Lowering σ}
    (run : trees.filterMapM (statement context) before = (body, after))
    (complete : after.complete = true) (seen : after.session.SeenIn view)
    (scope : before.scope.locals = locals.bindings) :
    ∃ last, ElabBody refs locals trees body last ∧ after.scope.locals = Locals.bindings last := by
  induction trees generalizing before body locals with
  | nil =>
      cases run
      exact ⟨locals, .nil, scope⟩
  | cons first rest ih =>
      rw [List.filterMapM_cons] at run
      obtain ⟨found, middle, stated, run⟩ := bind_run run
      have others : Onward context (rest.filterMapM (statement context)) :=
        .filterMapM statement_onward rest
      cases found with
      | none =>
          have later := others.of_run run
          obtain ⟨_, _, _, _, _, _, _, _, _, absurd, _⟩ := statement_run sees stated
            (later.complete complete) (later.session.seenIn seen) scope
          cases absurd
      | some step =>
          obtain ⟨steps, reached, ran, run⟩ := bind_run run
          cases run
          have later := others.of_run ran
          obtain ⟨pos, start, ident, declared, value, code, type, rfl, elab_, same, names⟩ :=
            statement_run sees stated (later.complete complete) (later.session.seenIn seen) scope
          cases same
          obtain ⟨last, body, scope⟩ := ih ran names
          exact ⟨last, .cons elab_ body, scope⟩

/-! ## The final expression -/

/-- Where the code of a field comes from: it was there already, or it is that of the first value
that the literal has for the field. -/
def FieldCoded (refs : References) (locals : Locals) (owner : UnitSig)
    (done : List (Nat × Expr)) (values : List (String × Position × ExprTree)) (index : Nat)
    (code : Expr) : Prop :=
  done.lookup index = some code ∨ done.lookup index = none ∧ ∃ field value type,
    owner.fields[index]? = some field ∧
      owner.fields.findIdx? (·.name = field.name) = some index ∧ field.type = some type ∧
      literalField? values field.name = some value ∧ Elab refs locals value code type

theorem lookup_append_one (done : List (Nat × Expr)) (index other : Nat) (code : Expr) :
    (done ++ [(index, code)]).lookup other =
      (done.lookup other).or (if other = index then some code else none) := by
  rw [List.lookup_append, List.lookup_cons, List.lookup_nil]
  by_cases same : other = index
  · simp [same]
  · rw [beq_eq_false_iff_ne.mpr same, if_neg same]

theorem literalField?_cons (name other : String) (pos : Position) (value : ExprTree)
    (rest : List (String × Position × ExprTree)) :
    literalField? ((name, pos, value) :: rest) other =
      if name = other then some value else literalField? rest other := by
  unfold literalField?
  rw [List.find?_cons]
  by_cases same : name = other
  · simp [same]
  · simp [same]

theorem FieldCoded.cons {owner : UnitSig} {done : List (Nat × Expr)}
    {rest : List (String × Position × ExprTree)} {name : String} {pos : Position}
    {value : ExprTree} {at_ index : Nat} {first code : Expr} {field : FieldSig} {type : TypeRef}
    (place : owner.fields.findIdx? (·.name = name) = some at_)
    (fresh : done.lookup at_ = none) (here : owner.fields[at_]? = some field)
    (typed : field.type = some type) (elab_ : Elab refs locals value first type)
    (later : FieldCoded refs locals owner (done ++ [(at_, first)]) rest index code) :
    FieldCoded refs locals owner done ((name, pos, value) :: rest) index code := by
  have named : field.name = name := by
    obtain ⟨bound, same, -⟩ := List.findIdx?_eq_some_iff_getElem.mp place
    rw [List.getElem?_eq_getElem bound] at here
    cases here
    exact of_decide_eq_true same
  unfold FieldCoded at later ⊢
  rw [lookup_append_one] at later
  by_cases same : index = at_
  · subst same
    rw [fresh, if_pos rfl] at later
    rcases later with found | ⟨absurd, -⟩
    · cases found
      refine .inr ⟨fresh, field, value, type, here, by rw [named, place], typed, ?_, elab_⟩
      rw [literalField?_cons, if_pos named.symm]
    · cases absurd
  · rw [if_neg same, Option.or_none] at later
    rcases later with found | ⟨none, other, found, type, there, own, known, given, coded⟩
    · exact .inl found
    · refine .inr ⟨none, other, found, type, there, own, known, ?_, coded⟩
      have ne : name ≠ other.name := by
        rintro rfl
        exact same (Option.some.inj (own.symm.trans place))
      rw [literalField?_cons, if_neg ne, given]

theorem literalFields_run (sees : Sees context view refs) {owner : UnitSig}
    {values : List (String × Position × ExprTree)} {done found : List (Nat × Expr)}
    {before after : Lowering σ} (known : ∀ field ∈ owner.fields, field.type.isSome = true)
    (run : literalFields context owner done values before = (found, after))
    (complete : after.complete = true) (seen : after.session.SeenIn view)
    (scope : before.scope.locals = locals.bindings) (index : Nat) (code : Expr)
    (has : found.lookup index = some code) :
    FieldCoded refs locals owner done values index code := by
  induction values generalizing before done with
  | nil =>
      cases run
      exact .inl has
  | cons first rest ih =>
      obtain ⟨name, pos, value⟩ := first
      have refuse {problem : Problem} (run : (do
          complain context pos problem
          literalFields context owner done rest) before = (found, after)) : False := by
        obtain ⟨_, middle, told, run⟩ := bind_run run
        have later := (literalFields_keeps owner rest done).onward.of_run run
        have incomplete := not_complete_of_complain told
        rw [later.complete complete] at incomplete
        cases incomplete
      unfold literalFields at run
      cases place : owner.fields.findIdx? (·.name = name) with
      | none =>
          simp only [place] at run
          exact (refuse run).elim
      | some at_ =>
          simp only [place] at run
          cases before_ : done.lookup at_ with
          | some earlier =>
              simp only [before_, Option.isSome_some, if_true] at run
              exact (refuse run).elim
          | none =>
              simp only [before_, Option.isSome_none, Bool.false_eq_true, if_false] at run
              obtain ⟨typed, middle, lowered, run⟩ := bind_run run
              obtain ⟨_, checked, expected, run⟩ := bind_run run
              have last := (literalFields_keeps owner rest _).onward.of_run run
              have compared := (expect_keeps _ _ _).of_run expected
              have kept := (expr_keeps 0 value).of_run lowered
              obtain ⟨first, type, rfl, elab_⟩ := expr_gives sees 0 value _ _ _ lowered
                (compared.complete (last.complete complete))
                ((compared.session.trans last.session).seenIn seen) scope
              obtain ⟨bound, -, -⟩ := List.findIdx?_eq_some_iff_getElem.mp place
              have here := List.getElem?_eq_getElem bound
              obtain ⟨target, typed⟩ := Option.isSome_iff_exists.mp
                (known _ (List.getElem_mem bound))
              have equal : target = type := by
                rw [here, Option.bind_some, typed] at expected
                exact expect_gives _ _ _ _ _ _ expected (last.complete complete)
                  (last.session.seenIn seen) (kept.locals.trans scope)
              subst equal
              exact .cons place before_ here typed elab_
                (ih run (compared.locals.trans (kept.locals.trans scope)))

theorem expectFields_gives (pos : Position) (owner : UnitSig) (done : List (Nat × Expr)) :
    Gives view locals (expectFields context pos owner done)
      fun _ => ∀ index < owner.fields.length, ∃ code, done.lookup index = some code := by
  unfold expectFields
  dsimp only
  split
  · exact complain_gives _ _ _
  · rename_i complete
    refine .pure ?_
    intro index bound
    rw [Bool.not_eq_true, Bool.not_eq_false', List.isEmpty_iff, List.filter_eq_nil_iff] at complete
    have found := complete (owner.fields[index], index) (by simp [List.mem_zipIdx_iff_getElem?])
    exact Option.isSome_iff_exists.mp (by simpa using found)

theorem forall₂_initOf {owner : UnitSig} {values : List (String × Position × ExprTree)}
    {done : List (Nat × Expr)}
    (each : ∀ index < owner.fields.length, ∃ code, done.lookup index = some code)
    (coded : ∀ index code, done.lookup index = some code →
      FieldCoded refs locals owner [] values index code) :
    List.Forall₂ (fun field code => ∃ value type, literalField? values field.name = some value ∧
      field.type = some type ∧ Elab refs locals value code type)
      owner.fields (initOf owner done) := by
  refine List.forall₂_iff_get.mpr ⟨by simp [initOf], ?_⟩
  intro index bound bound'
  obtain ⟨code, has⟩ := each index bound
  rcases coded index code has with absurd | ⟨-, field, value, type, here, -, typed, given, elab_⟩
  · cases absurd
  · rw [List.getElem?_eq_getElem bound] at here
    cases here
    refine ⟨value, type, given, typed, ?_⟩
    simpa [initOf, has] using elab_

theorem other_gives (sees : Sees context view refs) (tree : ExprTree) (Q : List Expr → Prop) :
    Gives view locals (final.other context tree) Q := by
  refine .bind (expr_keeps 0 tree) (fun typed => ?_) (expr_gives sees 0 tree) ?_
  · dsimp only
    split
    · exact .ite (.bind (complain_keeps rfl).onward fun _ => .pure _)
        (.bind (mismatch_keeps _ _ _).onward fun _ => .pure _)
    · exact .pure _
  · intro typed coded
    obtain ⟨code, type, rfl, -⟩ := coded
    dsimp only [TypedCode.known]
    split
    · exact complain_then (.pure _) _ _ rfl _
    · exact complain_then (.pure _) _ _ rfl _

theorem structLiteral_gives (sees : Sees context view refs)
    (known : ∀ field ∈ context.owner.fields, field.type.isSome = true) (pos : Position)
    (values : List (String × Position × ExprTree)) :
    Gives view locals (do
      let done ← literalFields context context.owner [] values
      expectFields context pos context.owner done
      return initOf context.owner done) fun init =>
        List.Forall₂ (fun field code => ∃ value type, literalField? values field.name = some value ∧
          field.type = some type ∧ Elab refs locals value code type) context.owner.fields init := by
  have coded : Gives view locals (literalFields context context.owner [] values) fun done =>
      ∀ index code, done.lookup index = some code →
        FieldCoded refs locals context.owner [] values index code := by
    intro before after done run complete seen scope
    exact literalFields_run sees known run complete seen scope
  refine .bind (literalFields_keeps _ _ _)
    (fun _ => .bind (expectFields_keeps _ _ _).onward fun _ => .pure _) coded ?_
  intro done coded
  refine .bind (expectFields_keeps _ _ _) (fun _ => .pure _) (expectFields_gives _ _ _) ?_
  intro _ each
  refine .pure ?_
  exact forall₂_initOf each coded

theorem final_gives (sees : Sees context view refs) (tree : ExprTree)
    (known : ∀ field ∈ context.owner.fields, field.type.isSome = true) :
    Gives view locals (final context tree) (ElabFinal refs locals context.owner.fields tree) := by
  unfold final
  dsimp only
  cases tree with
  | path pos qualified names =>
      intro before after init run complete seen scope
      obtain ⟨_, _, got, run⟩ := bind_run run
      cases got
      cases named : (namesOwner context.owner.name qualified names).filter fun ident =>
          ident.is "Self" || (before.scope.slot? ident.name).isNone with
      | none =>
          simp only [named] at run
          exact other_gives sees _ _ _ _ _ run complete seen scope
      | some ident =>
          simp only [named] at run
          obtain ⟨_, _, expected, run⟩ := bind_run run
          cases run
          have each := expectFields_gives _ _ _ _ _ _ expected complete seen scope
          have none : context.owner.fields = [] := by
            by_contra some_
            obtain ⟨code, absurd⟩ := each 0 (List.length_pos_iff.mpr some_)
            cases absurd
          have plain : qualified = false := by
            cases qualified with
            | false => rfl
            | true => cases named
          subst plain
          exact .bare none
  | structLiteral pos qualified names values base =>
      dsimp only
      split
      · exact complain_then (.pure _) _ _ rfl _
      · cases base with
        | some base =>
            refine complain_then ?_ _ _ rfl _
            refine .bind (literalFields_keeps _ _ _).onward ?_
            intro _
            exact .bind (expectFields_keeps _ _ _).onward fun _ => .pure _
        | none =>
            intro before after init run complete seen scope
            exact .literal (structLiteral_gives sees known _ _ _ _ _ run complete seen scope)
  | _ => exact other_gives sees _ _

/-! ## Constructors -/

theorem locals_params {params : List ParamSig} {decls : List ParamDecl}
    (typed : paramDecls params = some decls) :
    Scope.locals (params.map paramBinding) = (paramLocals decls).bindings := by
  unfold Scope.locals Locals.bindings paramLocals
  rw [List.map_reverse, List.reverse_reverse, List.map_map, List.map_map]
  have same := mapM_eq_some_iff.mp typed
  clear typed
  induction same with
  | nil => rfl
  | @cons param decl params decls given _ ih =>
      obtain ⟨type, known, rfl⟩ := Option.map_eq_some_iff.mp given
      rw [List.map_cons, List.map_cons, ih]
      simp [paramBinding, known]

theorem complete_of_conclude {sig : ConstructorSig} {body : List Stmt} {init : List Expr}
    {ctor : ConstructorDecl} {finished after : Lowering σ}
    (run : conclude context sig body init finished = (some ctor, after)) :
    after.complete = true := by
  obtain ⟨_, _, _, run⟩ := bind_run run
  obtain ⟨_, _, _, run⟩ := bind_run run
  obtain ⟨_, _, got, run⟩ := bind_run run
  cases got
  split at run
  · rename_i complete
    rwa [(Prod.mk.inj run).2] at complete
  · cases run

theorem complete_of_constructor {sig : ConstructorSig} {function : FunctionTree}
    {ctor : ConstructorDecl} {before after : Lowering σ}
    (run : constructor context sig function before = (some ctor, after)) :
    after.complete = true := by
  rw [constructor_eq] at run
  obtain ⟨_, _, _, run⟩ := bind_run run
  obtain ⟨_, _, _, run⟩ := bind_run run
  cases last : (splitBody function.body).2 with
  | some tree =>
      simp only [last] at run
      obtain ⟨_, _, _, run⟩ := bind_run run
      exact complete_of_conclude run
  | none =>
      simp only [last] at run
      obtain ⟨_, _, _, run⟩ := bind_run run
      exact complete_of_conclude run

theorem constructor_elab (sees : Sees context view refs) {sig : ConstructorSig}
    {function : FunctionTree} {session : Session σ} {ctor : ConstructorDecl} {after : Lowering σ}
    (known : ∀ field ∈ context.owner.fields, field.type.isSome = true)
    (run : constructor context sig function (UnitSig.lowering session) = (some ctor, after))
    (seen : after.session.SeenIn view) :
    ElabFunction refs context.owner sig function ctor := by
  have complete := complete_of_constructor run
  obtain ⟨parts, same⟩ := constructor_run run complete
  obtain ⟨params, typed, rfl⟩ := Option.map_eq_some_iff.mp same.symm
  have kept := (final_keeps parts.tree).of_run parts.final
  have finished := parts.session.seenIn seen
  obtain ⟨last, body, names⟩ := statements_run sees parts.statements
    (kept.complete parts.complete) (kept.session.seenIn finished) (locals_params typed)
  refine ⟨rfl, typed, parts.tree, last, parts.last, body, ?_, ?_⟩
  · exact final_gives sees parts.tree known _ _ _ parts.final parts.complete finished names
  · have lengths := congrArg List.length (kept.locals.trans names)
    rw [Scope.locals, List.length_map, Locals.length_bindings] at lengths
    rw [lengths]

end Lower

end UnitForge
