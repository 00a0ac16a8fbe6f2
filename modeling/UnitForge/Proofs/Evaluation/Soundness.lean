import UnitForge.Evaluation.Construct
import UnitForge.Proofs.Loading.Lookup
import UnitForge.Proofs.Typing.Values

/-! # Running well-typed code

Well-typed code gives values of its type, or a fault that is no fault of typing. The invariant is
that slots have their types and that names in the code lead to units with the images that its types
were worked out with; constructors that are called give instances whose fields are in order. -/
set_option autoImplicit false
namespace UnitForge

open Step

variable {α β : Type}

/-! ## Outcomes of steps -/

/-- An answer that has a property, or an error that is admitted. -/
def Answer.Sound (admits : Error → Prop) (Q : α → Prop) : Except Error α → Prop
  | .ok value => Q value
  | .error fault => admits fault

/-- From a world, a step leads to a later one, and gives a sound answer. -/
def Action.Ensures (step : Action α) (admits : Error → Prop) (world : World) (Q : α → Prop) :
    Prop :=
  world.Later (step world).2 ∧ Answer.Sound admits Q (step world).1

namespace Action

variable {step : Action α} {admits : Error → Prop} {world : World} {Q : α → Prop}

theorem Ensures.of_run {after : World} {answer : Except Error α}
    (ensures : step.Ensures admits world Q) (run : step world = (answer, after)) :
    world.Later after ∧ Answer.Sound admits Q answer := by
  unfold Ensures at ensures
  rwa [run] at ensures

theorem Ensures.of_eq {after : World} {answer : Except Error α}
    (run : step world = (answer, after)) (later : world.Later after)
    (sound : Answer.Sound admits Q answer) : step.Ensures admits world Q := by
  unfold Ensures
  rw [run]
  exact ⟨later, sound⟩

theorem Ensures.pure {value : α} (holds : Q value) :
    Ensures (Pure.pure value : Action α) admits world Q :=
  ⟨Std.Refl.refl _, holds⟩

theorem Ensures.throw {fault : Error} (admitted : admits fault) :
    Ensures (MonadExcept.throw fault : Action α) admits world Q :=
  ⟨Std.Refl.refl _, admitted⟩

theorem Ensures.imp {R : α → Prop} (ensures : step.Ensures admits world Q)
    (weaker : ∀ value, Q value → R value) : step.Ensures admits world R := by
  rcases run : step world with ⟨fault | value, after⟩
  · obtain ⟨later, admitted⟩ := ensures.of_run run
    exact .of_eq run later admitted
  · obtain ⟨later, holds⟩ := ensures.of_run run
    exact .of_eq run later (weaker value holds)

theorem Ensures.bind {next : α → Action β} {R : β → Prop} (first : step.Ensures admits world Q)
    (rest : ∀ value after, world.Later after → Q value → (next value).Ensures admits after R) :
    (step >>= next).Ensures admits world R := by
  rcases run : step world with ⟨fault | value, middle⟩
  · obtain ⟨later, admitted⟩ := first.of_run run
    exact .of_eq (except_bind_error run) later admitted
  · obtain ⟨later, holds⟩ := first.of_run run
    obtain ⟨onward, outcome⟩ := rest value middle later holds
    exact .of_eq (except_bind_ok run) (IsTrans.trans _ _ _ later onward) outcome

theorem Ensures.bind_ok {next : α → Action β} {R : β → Prop} {value : α}
    (first : step world = (.ok value, world)) (rest : (next value).Ensures admits world R) :
    (step >>= next).Ensures admits world R :=
  .of_eq (except_bind_ok first) rest.1 rest.2

end Action

namespace Evaluation

open UnitForge.Action

/-! ## Settings -/

/-- What code is run in, and what is asked of its outcomes. -/
structure Setting where
  /-- The worlds that code is run in. -/
  ready : World → Prop
  /-- The units whose constructors are called. -/
  callable : Meaning → Prop
  /-- The errors that are in order. -/
  admits : Error → Prop
  /-- What the fields of instances have. -/
  holds : UnitType → List Value → Prop
  stable : ∀ {before after : World}, before.Later after → ready before → ready after
  expected : ∀ {fault : ExecutionFault}, fault.isExpected = true → admits (.execution fault)

/-- The names that code refers to lead to units with the images that are known by them. -/
structure Linked (setting : Setting) (image? : String → Option UnitImage) (meaning : Meaning)
    (world : World) : Prop where
  callable : setting.callable meaning
  named : ∀ name image, image? name = some image → image.name = name
  own : ∀ image, image? meaning.image.name = some image → image = meaning.image
  others : ∀ name image, image? name = some image → name ≠ meaning.image.name →
    ∃ found, world.meaning? meaning.resolver name = some found ∧ found.image = image ∧
      setting.callable found

variable {setting : Setting} {image? : String → Option UnitImage} {unit : UnitType} {run : Runner}
  {world : World}

theorem Linked.later {meaning : Meaning} {before after : World}
    (linked : Linked setting image? meaning before) (later : before.Later after) :
    Linked setting image? meaning after := by
  refine ⟨linked.callable, linked.named, linked.own, ?_⟩
  intro name image seen other
  obtain ⟨found, leads, rest⟩ := linked.others name image seen other
  exact ⟨found, later.meaning? leads, rest⟩

/-- Constructors that can be called give instances whose fields are in order. -/
def Runner.Sound (run : Runner) (setting : Setting) : Prop :=
  ∀ (unit : UnitType) (ctor : ConstructorDecl) (args : List Value) (world : World),
    setting.ready world → setting.callable (.ofUnit unit) → ctor ∈ unit.constructors →
    List.Forall₂ (Value.HasType setting.holds) args ctor.paramTypes →
    (run unit ctor args).Ensures setting.admits world fun object =>
      object.unit = unit ∧ setting.holds unit object.fields

def SlotsTyped (holds : UnitType → List Value → Prop) (types : List TypeRef)
    (slots : List Value) : Prop :=
  ∀ (index : Nat) (type : TypeRef), types[index]? = some type →
    ∃ value, slots[index]? = some value ∧ value.HasType holds type

/-! ## Calls -/

theorem unitFor_ensures (linked : Linked setting image? (.ofUnit unit) world) {name : String}
    {image : UnitImage} (seen : image? name = some image) :
    (unitFor unit name).Ensures setting.admits world fun target =>
      target.image = image ∧ setting.callable (.ofUnit target) := by
  unfold unitFor
  by_cases own : name = unit.name
  · rw [if_pos own]
    subst own
    exact .pure ⟨(linked.own image seen).symm, linked.callable⟩
  · rw [if_neg own]
    obtain ⟨found, leads, same, reached⟩ := linked.others name image seen own
    rcases resolved : Action.resolve unit.resolver name world with ⟨answer, after⟩
    obtain ⟨later, gives⟩ := resolve_run resolved
    obtain ⟨target, rfl, rfl⟩ := (gives found).mp leads
    exact .of_eq resolved later ⟨same, reached⟩

theorem callee_run {target : UnitType} {name constructor : String} {given : Nat}
    {ctor : ConstructorDecl} (found : target.image.constructor? constructor = some ctor)
    (count : ctor.params.length = given) (world : World) :
    callee target name constructor given world = (.ok ctor, world) := by
  unfold callee
  rw [found]
  dsimp only
  rw [if_neg (not_not_intro count)]
  rfl

theorem lift_ensures {type : TypeRef} {outcome : Outcome}
    (sound : outcome.Sound setting.holds type) :
    (lift outcome).Ensures setting.admits world (Value.HasType setting.holds · type) := by
  cases outcome with
  | ok value => exact .pure sound
  | error fault => exact .throw (setting.expected sound)

/-! ## Expressions -/

def EvalSound (setting : Setting) (image? : String → Option UnitImage) (run : Runner)
    (frame : Frame) (code : Expr) (type : TypeRef) : Prop :=
  ∀ world, setting.ready world → Linked setting image? (.ofUnit frame.unit) world →
    (eval run frame code).Ensures setting.admits world (Value.HasType setting.holds · type)

theorem evalAll_ensures {frame : Frame} {codes : List Expr} {types : List TypeRef}
    (each : List.Forall₂ (EvalSound setting image? run frame) codes types)
    (ready : setting.ready world) (linked : Linked setting image? (.ofUnit frame.unit) world) :
    (evalAll run frame codes).Ensures setting.admits world fun values =>
      List.Forall₂ (Value.HasType setting.holds) values types := by
  induction each generalizing world with
  | nil => exact .pure .nil
  | cons first _ ih =>
      rw [evalAll]
      apply (first world ready linked).bind
      intro value after later typed
      exact .bind (ih (setting.stable later ready) (linked.later later))
        fun values _ _ all => .pure (.cons typed all)

theorem eval_binary {frame : Frame} {op : BinaryOp} (notLogical : op.isLogical = false)
    (left right : Expr) : eval run frame (.binary op left right) = (do
      let a ← eval run frame left
      let b ← eval run frame right
      lift (binary op a b)) := by
  cases op <;> first | rfl | cases notLogical

theorem binary_ensures {frame : Frame} {op : BinaryOp} {left right : Expr} {l r type : TypeRef}
    (notLogical : op.isLogical = false) (leftSound : EvalSound setting image? run frame left l)
    (rightSound : EvalSound setting image? run frame right r)
    (sound : ∀ a b : Value, a.HasType setting.holds l → b.HasType setting.holds r →
      Outcome.Sound setting.holds type (binary op a b)) :
    EvalSound setting image? run frame (.binary op left right) type := by
  intro world ready linked
  rw [eval_binary notLogical]
  apply (leftSound world ready linked).bind
  intro a after later leftTyped
  apply (rightSound after (setting.stable later ready) (linked.later later)).bind
  intro b _ _ rightTyped
  exact lift_ensures (sound a b leftTyped rightTyped)

theorem operand_ensures {frame : Frame} {code : Expr} {type result : TypeRef}
    {next : Value → Outcome} (operand : EvalSound setting image? run frame code type)
    (sound : ∀ value : Value, value.HasType setting.holds type →
      Outcome.Sound setting.holds result (next value))
    (ready : setting.ready world) (linked : Linked setting image? (.ofUnit frame.unit) world) :
    (do lift (next (← eval run frame code)) : Action Value).Ensures setting.admits world
      (Value.HasType setting.holds · result) :=
  .bind (operand world ready linked) fun value _ _ typed => lift_ensures (sound value typed)

theorem logical_ensures {frame : Frame} {op : BinaryOp} {left right : Expr}
    (isLogical : op.isLogical = true)
    (leftSound : EvalSound setting image? run frame left .bool)
    (rightSound : EvalSound setting image? run frame right .bool) :
    EvalSound setting image? run frame (.binary op left right) .bool := by
  intro world ready linked
  cases op with
  | and =>
      rw [eval]
      apply (leftSound world ready linked).bind
      intro a after later typed
      cases typed with
      | @bool value =>
          cases value with
          | true => exact rightSound after (setting.stable later ready) (linked.later later)
          | false => exact .pure .bool
  | or =>
      rw [eval]
      apply (leftSound world ready linked).bind
      intro a after later typed
      cases typed with
      | @bool value =>
          cases value with
          | true => exact .pure .bool
          | false => exact rightSound after (setting.stable later ready) (linked.later later)
  | _ => cases isLogical

theorem isLogical_of_arithmetic {op : BinaryOp} (isArithmetic : op.isArithmetic = true) :
    op.isLogical = false := by
  cases op <;> first | rfl | cases isArithmetic

theorem isLogical_of_comparison {op : BinaryOp} (isComparison : op.isComparison = true) :
    op.isLogical = false := by
  cases op <;> first | rfl | cases isComparison

theorem construct_ensures (runs : run.Sound setting) {slots : List Value} {name function : String}
    {image : UnitImage} {ctor : ConstructorDecl} {args : List (Expr × TypeRef)}
    (seen : image? name = some image) (found : image.constructor? function = some ctor)
    (types : ctor.paramTypes = args.map Prod.snd)
    (each : ∀ arg ∈ args, EvalSound setting image? run { unit, slots } arg.1 arg.2) :
    EvalSound setting image? run { unit, slots }
      (.construct name function (args.map Prod.fst)) (.unit name) := by
  intro world ready linked
  have count : ctor.params.length = (args.map Prod.fst).length := by
    have same := congrArg List.length types
    unfold ConstructorDecl.paramTypes at same
    rw [List.length_map, List.length_map] at same
    rwa [List.length_map]
  have all : List.Forall₂ (EvalSound setting image? run { unit, slots })
      (args.map Prod.fst) (args.map Prod.snd) := by
    rw [List.forall₂_map_left_iff, List.forall₂_map_right_iff, List.forall₂_same]
    exact each
  rw [eval]
  apply (unitFor_ensures linked seen).bind
  intro target after later reached
  obtain ⟨rfl, callable⟩ := reached
  have member : ctor ∈ target.constructors := List.mem_of_find?_eq_some found
  have named : target.name = name := linked.named name _ seen
  have ready := setting.stable later ready
  refine .bind_ok (callee_run found count after) ?_
  apply (evalAll_ensures all ready (linked.later later)).bind
  intro values final onward typed
  rw [← types] at typed
  apply (runs target ctor values final (setting.stable onward ready) callable member typed).bind
  intro object _ _ made
  refine .pure ?_
  obtain ⟨rfl, holds⟩ := made
  rw [← named]
  exact .object holds

/-- Well-typed code is sound. -/
theorem eval_sound (runs : run.Sound setting) {types : List TypeRef} {slots : List Value}
    (slotsTyped : SlotsTyped setting.holds types slots) {code : Expr} {type : TypeRef}
    (typed : Typed image? types code type) :
    EvalSound setting image? run { unit, slots } code type := by
  induction typed with
  | null => exact fun _ _ _ => .pure .null
  | int => exact fun _ _ _ => .pure .int
  | float => exact fun _ _ _ => .pure .float
  | bool => exact fun _ _ _ => .pure .bool
  | str => exact fun _ _ _ => .pure .str
  | @slot index type known =>
      intro world _ _
      obtain ⟨value, here, typed⟩ := slotsTyped index.toNat type known
      rw [eval, here]
      exact .pure typed
  | neg numeric _ ih =>
      intro world ready linked
      rw [eval]
      exact operand_ensures ih (fun _ => neg_sound numeric) ready linked
  | not admitted _ ih =>
      intro world ready linked
      rw [eval]
      exact operand_ensures ih (fun _ => not_sound admitted) ready linked
  | logical isLogical _ _ left right => exact logical_ensures isLogical left right
  | comparison isComparison primitive _ _ left right =>
      exact binary_ensures (isLogical_of_comparison isComparison) left right
        fun _ _ => comparison_sound isComparison primitive
  | concat _ _ left right => exact binary_ensures rfl left right fun _ _ => concat_sound
  | arithmetic isArithmetic numeric _ _ left right =>
      exact binary_ensures (isLogical_of_arithmetic isArithmetic) left right
        fun _ _ => arithmetic_sound isArithmetic numeric
  | cast casts _ ih =>
      intro world ready linked
      rw [eval]
      exact operand_ensures ih (fun _ => cast_sound casts) ready linked
  | toText primitive _ ih =>
      intro world ready linked
      rw [eval]
      exact operand_ensures ih (fun _ => toText_sound primitive) ready linked
  | length _ ih =>
      intro world ready linked
      rw [eval]
      exact operand_ensures ih (fun _ => length_sound) ready linked
  | construct seen found types _ ih => exact construct_ensures runs seen found types ih

/-! ## Bodies -/

theorem slotsTyped_set {holds : UnitType → List Value → Prop} {types : List TypeRef}
    {slots : List Value} {value : Value} {type : TypeRef} (known : SlotsTyped holds types slots)
    (typed : value.HasType holds type) (within : types.length < slots.length) :
    SlotsTyped holds (types ++ [type]) (slots.set types.length value) := by
  intro index bound found
  by_cases last : index = types.length
  · subst last
    rw [List.getElem?_concat_length] at found
    cases found
    exact ⟨value, List.getElem?_set_self within, typed⟩
  · have earlier : index < types.length := by
      have := (List.getElem?_eq_some_iff.mp found).1
      rw [List.length_append, List.length_singleton] at this
      omega
    rw [List.getElem?_append_left earlier] at found
    rw [List.getElem?_set_ne (Ne.symm last)]
    exact known index bound found

theorem length_le_of_bodyTyped {types last : List TypeRef} {body : List Stmt}
    (typed : BodyTyped image? types body last) : types.length ≤ last.length := by
  induction typed with
  | nil => exact Nat.le_refl _
  | cons _ _ _ ih =>
      rw [List.length_append] at ih
      omega

theorem runBody_ensures (runs : run.Sound setting) {types last : List TypeRef} {body : List Stmt}
    {slots : List Value} (typed : BodyTyped image? types body last)
    (slotsTyped : SlotsTyped setting.holds types slots) (enough : last.length ≤ slots.length)
    (ready : setting.ready world) (linked : Linked setting image? (.ofUnit unit) world) :
    (runBody run unit body slots).Ensures setting.admits world
      (SlotsTyped setting.holds last) := by
  induction typed generalizing world slots with
  | nil => exact .pure slotsTyped
  | @cons types last step body type here value rest ih =>
      have within : types.length < slots.length := by
        have := length_le_of_bodyTyped rest
        rw [List.length_append, List.length_singleton] at this
        omega
      rw [runBody]
      apply (eval_sound runs slotsTyped value world ready linked).bind
      intro found after later holds
      rw [here, if_pos within]
      refine ih (slotsTyped_set slotsTyped holds within) ?_ (setting.stable later ready)
        (linked.later later)
      rwa [List.length_set]

theorem slotsTyped_initial {holds : UnitType → List Value → Prop} {ctor : ConstructorDecl}
    {args : List Value} (typed : List.Forall₂ (Value.HasType holds) args ctor.paramTypes) :
    SlotsTyped holds ctor.paramTypes (initialSlots ctor args) := by
  have count : args.length = ctor.params.length := by
    rw [typed.length_eq, ConstructorDecl.paramTypes, List.length_map]
  intro index type found
  obtain ⟨within, rfl⟩ := List.getElem?_eq_some_iff.mp found
  rw [← typed.length_eq] at within
  refine ⟨args[index], ?_, typed.get within _⟩
  unfold initialSlots
  dsimp only
  rw [List.take_of_length_le (by omega), List.getElem?_append_left within,
    List.getElem?_eq_getElem within]

theorem length_initialSlots {ctor : ConstructorDecl} {args : List Value} :
    ctor.locals.toNat ≤ (initialSlots ctor args).length := by
  unfold initialSlots
  rw [List.length_append, List.length_take, List.length_replicate]
  omega

/-! ## Constructors -/

theorem runWithin_succ {unit : UnitType} {ctor : ConstructorDecl}
    (count : ctor.init.length = unit.fields.length) (limit levels : Nat) (args : List Value) :
    runWithin limit (levels + 1) unit ctor args = (do
      let slots ← runBody (runWithin limit levels) unit ctor.body (initialSlots ctor args)
      let fields ← evalAll (runWithin limit levels) { unit, slots } ctor.init
      Action.newInstance unit fields) := by
  rw [runWithin]
  dsimp only
  rw [if_neg (not_not_intro count)]

theorem runWithin_ensures {limit levels : Nat} (runs : (runWithin limit levels).Sound setting)
    {ctor : ConstructorDecl} (typed : ctor.WellTyped image? unit.fields) {args : List Value}
    (given : List.Forall₂ (Value.HasType setting.holds) args ctor.paramTypes)
    (ready : setting.ready world) (linked : Linked setting image? (.ofUnit unit) world) :
    (runWithin limit (levels + 1) unit ctor args).Ensures setting.admits world fun object =>
      object.unit = unit ∧ List.Forall₂ (fun value (field : FieldDecl) =>
        value.HasType setting.holds field.type) object.fields unit.fields := by
  obtain ⟨last, body, enough, init⟩ := typed.parts
  rw [runWithin_succ init.length_eq]
  apply (runBody_ensures runs body (slotsTyped_initial given)
    (Nat.le_trans enough length_initialSlots) ready linked).bind
  intro slots after later filled
  have codes : List.Forall₂ (EvalSound setting image? (runWithin limit levels) { unit, slots })
      ctor.init (unit.fields.map (·.type)) := by
    rw [List.forall₂_map_right_iff]
    exact init.imp fun _ _ code => eval_sound runs filled code
  apply (evalAll_ensures codes (setting.stable later ready) (linked.later later)).bind
  intro fields final _ all
  rw [List.forall₂_map_right_iff] at all
  exact ⟨World.later_of_loaders rfl, rfl, all⟩

end Evaluation

end UnitForge
