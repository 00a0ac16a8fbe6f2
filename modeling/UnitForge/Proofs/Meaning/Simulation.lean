import UnitForge.Proofs.Evaluation.Soundness
import UnitForge.Proofs.Meaning.Operators

/-! # Code means what its source means

An expression and the code that it stands for have the same outcome in every world, where the slots
hold the values of the names in scope. Types are carried along: a plus sign joins texts just where
the code does. -/
set_option autoImplicit false
namespace UnitForge.Direct

open Source Evaluation Step

variable {α β : Type}

/-! ## Scopes and slots -/

/-- The slots hold the values of the names in scope, each at the place of its name. -/
inductive Holds (slots : List Value) : Scope → Locals → Prop
  | nil : Holds slots [] []
  | cons {scope : Scope} {locals : Locals} {name : String} {value : Value} {type : TypeRef} :
      Holds slots scope locals → slots[locals.length]? = some value →
      Holds slots ((name, value) :: scope) ((name, type) :: locals)

variable {slots : List Value} {scope : Scope} {locals last : Locals}

theorem Holds.lookup (holds : Holds slots scope locals) {name : String} {slot : Nat}
    {type : TypeRef} (found : locals.find? name = some (slot, type)) :
    ∃ value, scope.lookup name = some value ∧ slots[slot]? = some value := by
  induction holds with
  | nil => cases found
  | @cons scope locals known value bound _ here ih =>
      rw [Locals.find?] at found
      split at found
      · rename_i same
        cases found
        exact ⟨value, by simp [same], here⟩
      · rename_i other
        obtain ⟨value, leads, there⟩ := ih found
        refine ⟨value, ?_, there⟩
        rw [List.lookup_cons, beq_eq_false_iff_ne.mpr (Ne.symm other)]
        exact leads

theorem Holds.set (holds : Holds slots scope locals) {index : Nat} (value : Value)
    (beyond : locals.length ≤ index) : Holds (slots.set index value) scope locals := by
  induction holds with
  | nil => exact .nil
  | cons _ here ih =>
      rw [List.length_cons] at beyond
      refine .cons (ih (by omega)) ?_
      rw [List.getElem?_set_ne (by omega)]
      exact here

/-! ## Agreement -/

variable {setting : Setting} {refs : References} {source : UnitSource} {unit : UnitType}
  {call : Caller} {run : Runner}

def CallsAgree (setting : Setting) (call : Caller) (run : Runner) : Prop :=
  ∀ (unit : UnitType) (function : String) (ctor : ConstructorDecl) (args : List Value)
    (world : World), setting.ready world → setting.callable (.ofUnit unit) →
    unit.image.constructor? function = some ctor →
    List.Forall₂ (Value.HasType setting.holds) args ctor.paramTypes →
    call unit function args world = run unit ctor args world

/-- Steps with the same outcome wherever the names of a unit are linked. -/
def Agrees (setting : Setting) (refs : References) (unit : UnitType) (first second : Action α) :
    Prop :=
  ∀ world, setting.ready world → Linked setting refs.image? (.ofUnit unit) world →
    first world = second world

theorem bind_congr_ensures {first second : Action α} {next other : α → Action β}
    {admits : Error → Prop} {Q : α → Prop} {world : World} (same : first world = second world)
    (ensures : second.Ensures admits world Q)
    (rest : ∀ value after, world.Later after → Q value → next value after = other value after) :
    (first >>= next) world = (second >>= other) world := by
  rcases run : second world with ⟨fault | value, after⟩
  · rw [except_bind_error run, except_bind_error (same.trans run)]
  · obtain ⟨later, holds⟩ := ensures.of_run run
    rw [except_bind_ok run, except_bind_ok (same.trans run), rest value after later holds]

theorem eval_constant {frame : Frame} {value : Value} {type : TypeRef}
    (known : value.type? = some type) (primitive : type.isPrimitive = true) :
    Evaluation.eval run frame (.constant value) = pure value := by
  cases value with
  | object id unit fields => cases known; cases primitive
  | _ => rfl

/-! ## Operators -/

theorem eval_minus {tree : ExprTree} (other : ∀ start place value, tree ≠ .literal start place value)
    (pos place : Position) : eval source unit call scope (.unary pos place .neg tree) = (do
      yield (negate (← eval source unit call scope tree))) := by
  cases tree with
  | literal start place value => exact absurd rfl (other start place value)
  | _ => rfl

theorem eval_operator {operator : BinaryOperator} {op : BinaryOp} {symbol : String}
    (known : Lower.operator? operator = some (op, symbol)) (notLogical : op.isLogical = false)
    (pos place : Position) (left right : ExprTree) :
    eval source unit call scope (.binary pos place operator left right) = (do
      let a ← eval source unit call scope left
      let b ← eval source unit call scope right
      yield (operate operator a b)) := by
  cases operator <;> cases known <;> first | rfl | cases notLogical

theorem eval_textFrom {path : NamePath} (text : path.names.dropLast = ["String"])
    (function : path.names.getLastD "" = "from") (pos opening start : Position) (arg : ExprTree) :
    eval source unit call scope (.call pos opening (.path start false path) [arg]) =
      eval source unit call scope arg := by
  rw [eval, if_pos text, function]
  simp [evalAll, textFunction, yield]

section Operands
variable (runs : run.Sound setting) {locals : Locals}
  (slotsTyped : SlotsTyped setting.holds locals.types slots)
include runs slotsTyped

theorem operand_agrees {tree : ExprTree} {code : Expr} {type : TypeRef}
    {meant coded : Value → Outcome} (typed : Typed refs.image? locals.types code type)
    (operand : Agrees setting refs unit (eval source unit call scope tree)
      (Evaluation.eval run { unit, slots } code))
    (same : ∀ a : Value, a.HasType setting.holds type → meant a = coded a) :
    Agrees setting refs unit (do yield (meant (← eval source unit call scope tree)))
      (do lift (coded (← Evaluation.eval run { unit, slots } code))) := by
  intro world ready linked
  apply bind_congr_ensures (operand world ready linked)
    (eval_sound runs slotsTyped typed world ready linked)
  intro a _ _ aTyped
  rw [yield_eq, same a aTyped]

theorem operands_agree {left right : ExprTree} {leftCode rightCode : Expr} {l r : TypeRef}
    {meant coded : Value → Value → Outcome}
    (leftTyped : Typed refs.image? locals.types leftCode l)
    (rightTyped : Typed refs.image? locals.types rightCode r)
    (leftAgrees : Agrees setting refs unit (eval source unit call scope left)
      (Evaluation.eval run { unit, slots } leftCode))
    (rightAgrees : Agrees setting refs unit (eval source unit call scope right)
      (Evaluation.eval run { unit, slots } rightCode))
    (same : ∀ a b : Value, a.HasType setting.holds l → b.HasType setting.holds r →
      meant a b = coded a b) :
    Agrees setting refs unit
      (do yield (meant (← eval source unit call scope left)
        (← eval source unit call scope right)))
      (do lift (coded (← Evaluation.eval run { unit, slots } leftCode)
        (← Evaluation.eval run { unit, slots } rightCode))) := by
  intro world ready linked
  apply bind_congr_ensures (leftAgrees world ready linked)
    (eval_sound runs slotsTyped leftTyped world ready linked)
  intro a after later aTyped
  have ready := setting.stable later ready
  have linked := linked.later later
  apply bind_congr_ensures (rightAgrees after ready linked)
    (eval_sound runs slotsTyped rightTyped after ready linked)
  intro b final _ bTyped
  rw [yield_eq, same a b aTyped bTyped]

theorem logical_agrees {operator : BinaryOperator} {op : BinaryOp} {symbol : String}
    (known : Lower.operator? operator = some (op, symbol)) (isLogical : op.isLogical = true)
    {pos place : Position} {left right : ExprTree} {leftCode rightCode : Expr}
    (leftTyped : Typed refs.image? locals.types leftCode .bool)
    (leftAgrees : Agrees setting refs unit (eval source unit call scope left)
      (Evaluation.eval run { unit, slots } leftCode))
    (rightAgrees : Agrees setting refs unit (eval source unit call scope right)
      (Evaluation.eval run { unit, slots } rightCode)) :
    Agrees setting refs unit (eval source unit call scope (.binary pos place operator left right))
      (Evaluation.eval run { unit, slots } (.binary op leftCode rightCode)) := by
  intro world ready linked
  have leftSound := eval_sound runs slotsTyped leftTyped world ready linked
  cases operator <;> cases known <;> try cases isLogical
  case and =>
    rw [eval, Evaluation.eval]
    apply bind_congr_ensures (leftAgrees world ready linked) leftSound
    intro a after later typed
    cases typed with
    | @bool value =>
        cases value with
        | true => exact rightAgrees after (setting.stable later ready) (linked.later later)
        | false => rfl
  case or =>
    rw [eval, Evaluation.eval]
    apply bind_congr_ensures (leftAgrees world ready linked) leftSound
    intro a after later typed
    cases typed with
    | @bool value =>
        cases value with
        | true => rfl
        | false => exact rightAgrees after (setting.stable later ready) (linked.later later)

/-! ## Calls -/

theorem evalAll_agrees {args : List Elaborated}
    (typed : ∀ arg ∈ args, Typed refs.image? locals.types arg.code arg.type)
    (each : ∀ arg ∈ args, Agrees setting refs unit (eval source unit call scope arg.tree)
      (Evaluation.eval run { unit, slots } arg.code)) :
    Agrees setting refs unit (evalAll source unit call scope (args.map Elaborated.tree))
      (Evaluation.evalAll run { unit, slots } (args.map Elaborated.code)) := by
  induction args with
  | nil => exact fun _ _ _ => rfl
  | cons first rest ih =>
      intro world ready linked
      rw [List.map_cons, List.map_cons, evalAll, Evaluation.evalAll]
      obtain ⟨firstTyped, restTyped⟩ := List.forall_mem_cons.mp typed
      obtain ⟨firstAgrees, restAgrees⟩ := List.forall_mem_cons.mp each
      apply bind_congr_ensures (firstAgrees world ready linked)
        (eval_sound runs slotsTyped firstTyped world ready linked)
      intro value after later _
      have others := ih restTyped restAgrees after (setting.stable later ready)
        (linked.later later)
      exact except_bind_congr others

theorem construct_agrees (calls : CallsAgree setting call run) {path : NamePath}
    {name function : String} {image : UnitImage} {ctor : ConstructorDecl} {args : List Elaborated}
    (noText : path.names.dropLast ≠ ["String"]) (last : path.names.getLastD "" = function)
    (unitOf : source.unitOf path.names.dropLast = some name) (seen : refs.image? name = some image)
    (found : image.constructor? function = some ctor)
    (types : ctor.paramTypes = args.map Elaborated.type)
    (typed : ∀ arg ∈ args, Typed refs.image? locals.types arg.code arg.type)
    (each : ∀ arg ∈ args, Agrees setting refs unit (eval source unit call scope arg.tree)
      (Evaluation.eval run { unit, slots } arg.code)) (pos opening start : Position) :
    Agrees setting refs unit (eval source unit call scope
        (.call pos opening (.path start false path) (args.map Elaborated.tree)))
      (Evaluation.eval run { unit, slots }
        (.construct name function (args.map Elaborated.code))) := by
  intro world ready linked
  rw [eval, Evaluation.eval, if_neg noText, unitOf, last]
  dsimp only
  apply bind_congr_ensures rfl (unitFor_ensures linked seen)
  intro target after later reached
  obtain ⟨rfl, callable⟩ := reached
  have ready := setting.stable later ready
  have linked := linked.later later
  have sound : List.Forall₂ (EvalSound setting refs.image? run { unit, slots })
      (args.map Elaborated.code) (args.map Elaborated.type) := by
    rw [List.forall₂_map_left_iff, List.forall₂_map_right_iff, List.forall₂_same]
    exact fun arg member => eval_sound runs slotsTyped (typed arg member)
  have count : ctor.params.length = (args.map Elaborated.code).length := by
    have same := congrArg List.length types
    unfold ConstructorDecl.paramTypes at same
    rw [List.length_map, List.length_map] at same
    rwa [List.length_map]
  rw [except_bind_ok (callee_run found count after)]
  apply bind_congr_ensures (evalAll_agrees runs slotsTyped typed each after ready linked)
    (evalAll_ensures sound ready linked)
  intro values final onward given
  rw [← types] at given
  exact except_bind_congr (calls target function ctor values final (setting.stable onward ready)
    callable found given)

/-- An expression has the outcome of its code. -/
theorem eval_agrees (calls : CallsAgree setting call run) (unitOf : source.unitOf = refs.unitOf)
    (small : locals.length ≤ 2 ^ 32) (holds : Holds slots scope locals) {tree : ExprTree}
    {code : Expr} {type : TypeRef} (elab_ : Elab refs locals tree code type) :
    Agrees setting refs unit (eval source unit call scope tree)
      (Evaluation.eval run { unit, slots } code) := by
  induction elab_ with
  | literal known =>
      rw [eval, eval_constant known (primitive_of_literal known), literal_eq]
      exact fun _ _ _ => rfl
  | minusLiteral known =>
      rw [eval, eval_constant known (primitive_of_literal known), literal_eq]
      exact fun _ _ _ => rfl
  | paren _ ih => rwa [eval]
  | @name pos path ident slot type named found =>
      obtain ⟨value, leads, here⟩ := holds.lookup found
      have within := (List.getElem?_eq_some_iff.mp (Locals.types_of_find? found)).1
      rw [Locals.length_types] at within
      have place : slot.toUInt32.toNat = slot := toNat_slot (Nat.lt_of_lt_of_le within small)
      rw [eval, Evaluation.eval, place, here, named, Option.bind_some, leads]
      exact fun _ _ _ => rfl
  | minus other numeric elab_ ih =>
      rw [eval_minus other, Evaluation.eval]
      exact operand_agrees runs slotsTyped (elab_.typed small) ih fun _ => negate_eq numeric
  | not admitted elab_ ih =>
      rw [eval, Evaluation.eval]
      exact operand_agrees runs slotsTyped (elab_.typed small) ih fun _ => invert_eq admitted
  | logical operator isLogical left right leftAgrees rightAgrees =>
      exact logical_agrees runs slotsTyped operator isLogical (left.typed small) leftAgrees
        rightAgrees
  | comparison operator isComparison primitive left right leftAgrees rightAgrees =>
      have notLogical := isLogical_of_comparison isComparison
      rw [eval_operator operator notLogical, eval_binary notLogical]
      exact operands_agree runs slotsTyped (left.typed small) (right.typed small) leftAgrees
        rightAgrees fun _ _ => operate_comparison operator isComparison primitive
  | concat operator left right leftAgrees rightAgrees =>
      rw [eval_operator operator rfl, eval_binary rfl]
      exact operands_agree runs slotsTyped (left.typed small) (right.typed small) leftAgrees
        rightAgrees fun _ _ => operate_concat operator
  | arithmetic operator isArithmetic numeric left right leftAgrees rightAgrees =>
      have notLogical := isLogical_of_arithmetic isArithmetic
      rw [eval_operator operator notLogical, eval_binary notLogical]
      exact operands_agree runs slotsTyped (left.typed small) (right.typed small) leftAgrees
        rightAgrees fun _ _ => operate_arithmetic operator isArithmetic numeric
  | cast written casts elab_ ih =>
      rw [eval, Evaluation.eval]
      exact operand_agrees runs slotsTyped (elab_.typed small) ih fun _ => castTo_eq written casts
  | toText named primitive elab_ ih =>
      rw [eval, Evaluation.eval, named]
      exact operand_agrees runs slotsTyped (elab_.typed small) ih fun a _ => method_text a
  | identity named _ ih =>
      rw [eval, method_identity named]
      simp only [yield, bind_pure]
      exact ih
  | length named elab_ ih =>
      rw [eval, Evaluation.eval, named]
      exact operand_agrees runs slotsTyped (elab_.typed small) ih fun _ => method_length
  | emptyText text function =>
      rw [eval, if_pos text, function]
      exact fun _ _ _ => rfl
  | textFrom text function _ ih =>
      rw [eval_textFrom text function]
      exact ih
  | construct _ noText last leads seen found types elab_ ih =>
      rw [← unitOf] at leads
      exact construct_agrees runs slotsTyped calls noText last leads seen found types
        (fun arg member => (elab_ arg member).typed small) ih _ _ _
  | reference _ ih => rwa [eval]

end Operands

/-! ## Bodies -/

theorem literalField?_eq (values : List (String × Position × ExprTree)) (name : String) :
    literalField? values name = (values.lookup name).map Prod.snd := by
  induction values with
  | nil => rfl
  | cons first rest ih =>
      unfold literalField? at ih ⊢
      rw [List.find?_cons, List.lookup_cons]
      by_cases same : first.1 = name
      · simp [same]
      · rw [beq_eq_false_iff_ne.mpr (Ne.symm same), decide_eq_false same]
        exact ih

theorem eq_append_of_splitBody {body : List StmtTree} {tree : ExprTree}
    (split : (Lower.splitBody body).2 = some tree) :
    body = (Lower.splitBody body).1 ++ [.expr tree false] := by
  unfold Lower.splitBody at split ⊢
  split at split
  · rename_i last
    cases split
    exact (List.dropLast_append_getLast? _ last).symm
  · cases split

section Bodies
variable (runs : run.Sound setting) (calls : CallsAgree setting call run)
  (unitOf : source.unitOf = refs.unitOf)
include runs calls unitOf

theorem evalFields_agrees {values : List (String × Position × ExprTree)} {fields : List FieldSig}
    {init : List Expr} (small : locals.length ≤ 2 ^ 32) (holds : Holds slots scope locals)
    (slotsTyped : SlotsTyped setting.holds locals.types slots)
    (elab_ : List.Forall₂ (fun field code => ∃ value type,
      literalField? values field.name = some value ∧ field.type = some type ∧
        Elab refs locals value code type) fields init) :
    Agrees setting refs unit (evalFields source unit call scope values fields)
      (Evaluation.evalAll run { unit, slots } init) := by
  induction elab_ with
  | nil => exact fun _ _ _ => rfl
  | @cons field code fields init first _ ih =>
      obtain ⟨value, type, given, -, elab_⟩ := first
      rw [literalField?_eq] at given
      obtain ⟨⟨pos, value⟩, found, rfl⟩ := Option.map_eq_some_iff.mp given
      intro world ready linked
      rw [evalFields, Evaluation.evalAll, found]
      apply bind_congr_ensures (eval_agrees runs slotsTyped calls unitOf small holds elab_ world
        ready linked) (eval_sound runs slotsTyped (elab_.typed small) world ready linked)
      intro _ after later _
      exact except_bind_congr (ih after (setting.stable later ready) (linked.later later))

theorem final_agrees {tree : ExprTree} {init : List Expr} (small : locals.length ≤ 2 ^ 32)
    (holds : Holds slots scope locals) (slotsTyped : SlotsTyped setting.holds locals.types slots)
    (elab_ : ElabFinal refs locals source.owner.fields tree init) :
    Agrees setting refs unit (final source unit call scope tree)
      (Evaluation.evalAll run { unit, slots } init) := by
  cases elab_ with
  | bare none => exact fun _ _ _ => rfl
  | literal values =>
      exact evalFields_agrees runs calls unitOf small holds slotsTyped values

/-- A body gives the fields the values that their codes have after the steps for its bindings. -/
theorem body_agrees {trees : List StmtTree} {tree : ExprTree} {steps : List Stmt}
    {init : List Expr} (elab_ : ElabBody refs locals trees steps last)
    (elabFinal : ElabFinal refs last source.owner.fields tree init)
    (small : last.length < 2 ^ 32) (enough : last.length ≤ slots.length)
    (holds : Holds slots scope locals) (slotsTyped : SlotsTyped setting.holds locals.types slots) :
    Agrees setting refs unit (body source unit call scope (trees ++ [.expr tree false])) (do
      let slots ← runBody run unit steps slots
      Evaluation.evalAll run { unit, slots } init) := by
  induction elab_ generalizing scope slots with
  | nil => exact final_agrees runs calls unitOf (Nat.le_of_lt small) holds slotsTyped elabFinal
  | @cons locals last pos start ident declared value code type trees steps elab_ later ih =>
      have length := later.length
      rw [List.length_cons] at length
      have within : locals.length < slots.length := by omega
      have place : locals.length.toUInt32.toNat = locals.length := toNat_slot (by omega)
      intro world ready linked
      rw [List.cons_append, body, runBody, bind_assoc]
      · apply bind_congr_ensures (eval_agrees runs slotsTyped calls unitOf (by omega) holds elab_
          world ready linked) (eval_sound runs slotsTyped (elab_.typed (by omega)) world ready
          linked)
        intro found after onward typed
        rw [place, if_pos within]
        refine ih elabFinal small (by rwa [List.length_set]) ?_ ?_ after
          (setting.stable onward ready) (linked.later onward)
        · exact .cons (holds.set found (Nat.le_refl _)) (List.getElem?_set_self within)
        · have filled := slotsTyped_set slotsTyped typed (by rwa [Locals.length_types])
          rwa [Locals.length_types, ← Locals.types_cons] at filled

end Bodies

end UnitForge.Direct
