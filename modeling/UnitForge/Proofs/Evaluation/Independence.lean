import UnitForge.Proofs.Evaluation.Unmixed
import UnitForge.Proofs.Loading.Readable

/-! # What code gives, whatever happened before

Two worlds come from the same one: in each of them units were looked up, constructed and let go of,
and hosts are as they were. As long as all artifacts that can be come to can be read, code does the
same in both. The units that it finds are not the same ones, and its instances have other numbers,
but they have the same images and the same fields, and wherever one instance is met twice in one
world, so is its counterpart in the other. -/
set_option autoImplicit false
namespace UnitForge

open Step

variable {α β γ δ : Type}

/-! ## Two runs of a step -/

inductive Answer.Both (Q : α → β → Prop) : Except Error α → Except Error β → Prop where
  | ok {value : α} {other : β} : Q value other → Both Q (.ok value) (.ok other)
  | error (fault : Error) : Both Q (.error fault) (.error fault)

/-- From related worlds, two steps give the same error or related values, and lead to related
worlds. -/
def Action.Parallel (R : World → World → Prop) (Q : α → β → Prop) (step : Action α)
    (other : Action β) : Prop :=
  ∀ here there, R here there →
    R (step here).2 (other there).2 ∧ Answer.Both Q (step here).1 (other there).1

namespace Action

variable {R : World → World → Prop} {Q : α → β → Prop} {step : Action α} {other : Action β}

theorem Parallel.pure {value : α} {value' : β} (related : Q value value') :
    Parallel R Q (Pure.pure value : Action α) (Pure.pure value' : Action β) :=
  fun _ _ worlds => ⟨worlds, .ok related⟩

theorem Parallel.throw (fault : Error) :
    Parallel R Q (MonadExcept.throw fault : Action α) (MonadExcept.throw fault : Action β) :=
  fun _ _ worlds => ⟨worlds, .error fault⟩

theorem Parallel.bind {next : α → Action γ} {next' : β → Action δ} {Q' : γ → δ → Prop}
    (first : Parallel R Q step other)
    (rest : ∀ value value', Q value value' → Parallel R Q' (next value) (next' value')) :
    Parallel R Q' (step >>= next) (other >>= next') := by
  intro here there worlds
  have ⟨after, answers⟩ := first here there worlds
  rcases run : step here with ⟨answer, world⟩
  rcases run' : other there with ⟨answer', world'⟩
  rw [run, run'] at after answers
  cases answers with
  | error fault =>
      rw [except_bind_error run, except_bind_error run']
      exact ⟨after, .error fault⟩
  | ok related =>
      rw [except_bind_ok run, except_bind_ok run']
      exact rest _ _ related world world' after

theorem Parallel.filterM {test test' : α → Action Bool} {items : List α}
    (tests : ∀ item ∈ items, Parallel R Eq (test item) (test' item)) :
    Parallel R Eq (items.filterM test) (items.filterM test') := by
  have loop (rest kept : List α) (included : rest ⊆ items) :
      Parallel R Eq (List.filterAuxM test rest kept) (List.filterAuxM test' rest kept) := by
    induction rest generalizing kept with
    | nil => exact .pure rfl
    | cons first rest ih =>
        rw [List.cons_subset] at included
        apply (tests first included.1).bind
        intro admitted _ same
        subst same
        exact ih _ included.2
  apply (loop items [] (List.Subset.refl _)).bind
  intro kept _ same
  subst same
  exact .pure rfl

end Action

/-! ## Units that mean the same -/

namespace Meaning

variable {unit unit' : UnitType} (means : ofUnit unit = ofUnit unit')
include means

theorem same_image : unit.image = unit'.image :=
  congrArg image means

theorem same_name : unit.name = unit'.name :=
  congrArg UnitImage.name (same_image means)

theorem same_simpleName : unit.simpleName = unit'.simpleName := by
  have named : unit.name = unit'.name := same_name means
  rw [UnitType.simpleName, named, UnitType.simpleName]

theorem same_fields : unit.fields = unit'.fields :=
  congrArg UnitImage.fields (same_image means)

theorem same_constructors : unit.constructors = unit'.constructors :=
  congrArg UnitImage.constructors (same_image means)

end Meaning

/-! ## Values -/

/-- Values that are told apart by nothing but the numbers of units and instances. The number of an
instance is counted from a base in each world. -/
inductive Value.Mirrors (base base' : Nat) : Value → Value → Prop where
  | plain {value : Value} : value.instance? = none → Mirrors base base' value value
  | object {id id' : Nat} {unit unit' : UnitType} {fields fields' : List Value} :
      id + base' = id' + base → Meaning.ofUnit unit = .ofUnit unit' →
      List.Forall₂ (Mirrors base base') fields fields' →
      Mirrors base base' (.object id unit fields) (.object id' unit' fields')

namespace Value

variable {base base' : Nat} {value value' a a' b b' : Value}

theorem Mirrors.type? (mirrors : value.Mirrors base base' value') :
    value.type? = value'.type? := by
  cases mirrors with
  | plain => rfl
  | object _ means _ =>
      exact congrArg (some ∘ TypeRef.unit) (Meaning.same_name means)

theorem Mirrors.equal (first : a.Mirrors base base' a') (second : b.Mirrors base base' b') :
    a.equal b = a'.equal b' := by
  cases first with
  | plain isPlain =>
      cases second with
      | plain => rfl
      | object => cases a <;> first | rfl | cases isPlain
  | object count =>
      cases second with
      | plain isPlain => cases b <;> first | rfl | cases isPlain
      | object count' =>
          rw [Value.equal, Value.equal, decide_eq_decide]
          omega

mutual

theorem Mirrors.text (value value' : Value) (mirrors : value.Mirrors base base' value') :
    value.text = value'.text := by
  cases mirrors with
  | plain => rfl
  | @object id id' unit unit' fields fields' count means related =>
      have name : unit.simpleName = unit'.simpleName := Meaning.same_simpleName means
      have decls : unit.fields = unit'.fields := Meaning.same_fields means
      have last : fields.isEmpty = fields'.isEmpty := by
        cases related <;> rfl
      rw [Value.text, Value.text, name, decls, last,
        fieldTexts_mirror "" unit'.fields fields fields' related]

theorem fieldTexts_mirror (separator : String) (decls : List FieldDecl)
    (values values' : List Value) (related : List.Forall₂ (Mirrors base base') values values') :
    fieldTexts separator decls values = fieldTexts separator decls values' := by
  cases related with
  | nil => rfl
  | @cons value value' values values' mirrors rest =>
      cases decls with
      | nil => rfl
      | cons decl decls =>
          have same := Mirrors.text value value' mirrors
          have others := fieldTexts_mirror "," decls values values' rest
          cases mirrors with
          | plain => cases value <;> simp only [fieldTexts, others]
          | object => simp only [fieldTexts, others, same]

end

end Value

/-! ## Worlds -/

/-- Two worlds that come from one. The instances of each are counted from a base. -/
structure World.Beside (first : World) (base base' : Nat) (here there : World) : Prop where
  left : first.Continues here
  right : first.Continues there
  counted : here.nextInstance + base' = there.nextInstance + base

/-- Units with one image, whose names are looked up by one loader that can be come to. -/
structure World.Corresponds (first : World) (start : LoaderId) (unit unit' : UnitType) : Prop where
  means : Meaning.ofUnit unit = .ofUnit unit'
  reached : first.Reaches start unit.resolver

theorem Action.resolve_nextInstance (loader : LoaderId) (name : String) (before : World) :
    (resolve loader name before).2.nextInstance = before.nextInstance := by
  rw [resolve_owner]
  cases owned : before.owner? loader name with
  | none => rfl
  | some owner =>
      dsimp only
      cases here : before.loaders[owner]? with
      | none => rw [resolveIn, except_get_run, here]; rfl
      | some found =>
          cases found with
          | host units =>
              rw [ask_host here]
              cases units.lookup name <;> rfl
          | compiled parent pending defined =>
              rw [ask_compiled here, findLocal_eq here]
              rcases defined.lookup name with _ | ⟨image, _ | unit⟩
              · cases pending.get? name with
                | none => rfl
                | some output =>
                    dsimp only
                    cases output.read name <;> rfl
              · rfl
              · rfl

namespace Evaluation

open UnitForge.Action

variable {first : World} {start : LoaderId} {base base' : Nat}

section Resolve
variable (readable : first.Readable start)
include readable

/-- A name leads to corresponding units in both worlds, or to none. -/
theorem resolve_parallel {loader : LoaderId} (reached : first.Reaches start loader)
    (name : String) :
    Parallel (first.Beside base base') (first.Corresponds start) (resolve loader name)
      (resolve loader name) := by
  intro here there worlds
  have counter := resolve_nextInstance loader name here
  have counter' := resolve_nextInstance loader name there
  rcases run : resolve loader name here with ⟨answer, after⟩
  rcases run' : resolve loader name there with ⟨answer', after'⟩
  rw [run] at counter
  rw [run'] at counter'
  have leads := (resolve_run run).2
  have leads' := (resolve_run run').2
  rw [readable.meaning? worlds.left reached] at leads
  rw [readable.meaning? worlds.right reached] at leads'
  refine ⟨⟨?_, ?_, ?_⟩, ?_⟩
  · exact IsTrans.trans _ _ _ worlds.left (resolve_onward run).1.continues
  · exact IsTrans.trans _ _ _ worlds.right (resolve_onward run').1.continues
  · exact counter ▸ counter' ▸ worlds.counted
  · cases answer with
    | ok unit =>
        have means := (leads _).mpr ⟨unit, rfl, rfl⟩
        obtain ⟨unit', rfl, same⟩ := (leads' _).mp means
        exact .ok ⟨same.symm, reached.of_meaning means⟩
    | error fault =>
        cases readable.resolve_error worlds.left reached run
        cases answer' with
        | ok unit' =>
            obtain ⟨unit, same, -⟩ := (leads _).mp ((leads' _).mpr ⟨unit', rfl, rfl⟩)
            cases same
        | error fault' =>
            cases readable.resolve_error worlds.right reached run'
            exact .error _

theorem unitFor_parallel {unit unit' : UnitType} (same : first.Corresponds start unit unit')
    (name : String) :
    Parallel (first.Beside base base') (first.Corresponds start) (unitFor unit name)
      (unitFor unit' name) := by
  have named : unit.name = unit'.name := Meaning.same_name same.means
  have resolver : unit.resolver = unit'.resolver := congrArg Meaning.resolver same.means
  unfold unitFor
  rw [← named, ← resolver]
  split
  · exact .pure same
  · exact resolve_parallel readable same.reached name

end Resolve

variable {value value' a a' b b' : Value}

/-! ## Operators -/

theorem unary_mirrors (op : UnaryOp) (mirrors : value.Mirrors base base' value') :
    unary op value = unary op value' := by
  have type := mirrors.type?
  cases mirrors with
  | plain => rfl
  | object => cases op <;> simp only [unary, type]

theorem cast_mirrors (type : TypeRef) (mirrors : value.Mirrors base base' value') :
    cast value type = cast value' type := by
  have type := mirrors.type?
  cases mirrors with
  | plain => rfl
  | object => simp only [cast, type]

theorem toText_mirrors (mirrors : value.Mirrors base base' value') :
    toText value = toText value' := by
  have text := Value.Mirrors.text value value' mirrors
  cases mirrors with
  | plain => rfl
  | object => simp only [toText, text]

theorem length_mirrors (mirrors : value.Mirrors base base' value') :
    length value = length value' := by
  have type := mirrors.type?
  cases mirrors with
  | plain => rfl
  | object => simp only [length, type]

theorem binary_instance (op : BinaryOp) (one : a.instance? ≠ none ∨ b.instance? ≠ none) :
    binary op a b = match op with
      | .eq => .ok (.bool (a.equal b))
      | .ne => .ok (.bool !(a.equal b))
      | op => .error (.operandType (operatorName op) a.type?) := by
  rcases one with left | right
  · cases a with
    | object => cases op <;> rfl
    | _ => exact absurd rfl left
  · cases b with
    | object => cases op <;> cases a <;> rfl
    | _ => exact absurd rfl right

theorem binary_mirrors (op : BinaryOp) (first : a.Mirrors base base' a')
    (second : b.Mirrors base base' b') : binary op a b = binary op a' b' := by
  have type := first.type?
  have equal := first.equal second
  have object (id : Nat) (unit : UnitType) (fields : List Value) :
      (Value.object id unit fields).instance? ≠ none := Option.some_ne_none _
  cases first with
  | object =>
      rw [binary_instance op (.inl (object _ _ _)), binary_instance op (.inl (object _ _ _)), type,
        equal]
  | plain =>
      cases second with
      | plain => rfl
      | object =>
          rw [binary_instance op (.inr (object _ _ _)), binary_instance op (.inr (object _ _ _)),
            equal]

theorem mirrors_of_units (plain : value.units = []) : value.Mirrors base base' value := by
  cases value with
  | object => cases plain
  | _ => exact .plain rfl

section Slots
variable {R : α → β → Prop} {items : List α} {found : List β} (all : List.Forall₂ R items found)
include all

theorem rel_getElem? (index : Nat) : Option.Rel R items[index]? found[index]? := by
  induction all generalizing index with
  | nil => exact .none
  | cons related rest ih =>
      cases index with
      | zero => exact .some related
      | succ index => exact ih index

theorem forall₂_set (index : Nat) {item : α} {other : β} (related : R item other) :
    List.Forall₂ R (items.set index item) (found.set index other) := by
  induction all generalizing index with
  | nil => exact .nil
  | cons kept rest ih =>
      cases index with
      | zero => exact .cons related rest
      | succ index => exact .cons kept (ih index)

end Slots

/-! ## Code -/

def Runner.Parallel (first : World) (start : LoaderId) (base base' : Nat) (run : Runner) : Prop :=
  ∀ unit unit' ctor args args', first.Corresponds start unit unit' →
    List.Forall₂ (Value.Mirrors base base') args args' →
    Action.Parallel (first.Beside base base')
      (fun object object' => object.toValue.Mirrors base base' object'.toValue)
      (run unit ctor args) (run unit' ctor args')

structure Frame.Mirrors (first : World) (start : LoaderId) (base base' : Nat)
    (frame frame' : Frame) : Prop where
  unit : first.Corresponds start frame.unit frame'.unit
  slots : List.Forall₂ (Value.Mirrors base base') frame.slots frame'.slots

theorem lift_parallel {R : World → World → Prop} {outcome outcome' : Outcome}
    (plain : outcome.Plain) (same : outcome = outcome') :
    Parallel R (Value.Mirrors base base') (lift outcome) (lift outcome') := by
  subst same
  cases outcome with
  | ok value => exact .pure (mirrors_of_units (plain value rfl))
  | error fault => exact .throw _

theorem callee_parallel {R : World → World → Prop} {target target' : UnitType}
    (same : first.Corresponds start target target') (unit constructor : String) (given : Nat) :
    Parallel R Eq (callee target unit constructor given)
      (callee target' unit constructor given) := by
  have image : target.image = target'.image := Meaning.same_image same.means
  unfold callee
  rw [← image]
  split
  · exact .throw _
  · split
    · exact .bind (Q := Eq) (.throw _) fun _ _ _ => .pure rfl
    · exact .pure rfl

section Code
variable {run : Runner} {frame frame' : Frame}

mutual

theorem eval_parallel (readable : first.Readable start)
    (runs : run.Parallel first start base base')
    (frames : frame.Mirrors first start base base' frame') (code : Expr) :
    Parallel (first.Beside base base') (Value.Mirrors base base') (eval run frame code)
      (eval run frame' code) := by
  cases code with
  | null | int | float | bool | str => exact .pure (.plain rfl)
  | slot index =>
      rw [eval, eval]
      have related := rel_getElem? frames.slots index.toNat
      generalize frame.slots[index.toNat]? = found at related ⊢
      generalize frame'.slots[index.toNat]? = found' at related ⊢
      cases related with
      | none => exact .throw _
      | some mirrors => exact .pure mirrors
  | unary op operand =>
      rw [eval, eval]
      exact .bind (eval_parallel readable runs frames operand) fun value value' mirrors =>
        lift_parallel (plain_unary op value) (unary_mirrors op mirrors)
  | binary op left right =>
      by_cases logical : op.isLogical = true
      · cases op with
        | and | or =>
            rw [eval, eval]
            apply (eval_parallel readable runs frames left).bind
            intro value value' mirrors
            have type := mirrors.type?
            cases mirrors with
            | plain =>
                split
                · exact .pure (.plain rfl)
                · exact eval_parallel readable runs frames right
                · exact .throw _
            | object =>
                dsimp only
                rw [type]
                exact .throw _
        | _ => cases logical
      · rw [eval_binary (Bool.eq_false_iff.mpr logical), eval_binary (Bool.eq_false_iff.mpr logical)]
        apply (eval_parallel readable runs frames left).bind
        intro a a' first
        exact .bind (eval_parallel readable runs frames right) fun b b' second =>
          lift_parallel (plain_binary op a b) (binary_mirrors op first second)
  | cast operand type =>
      rw [eval, eval]
      exact .bind (eval_parallel readable runs frames operand) fun value value' mirrors =>
        lift_parallel (plain_cast value type) (cast_mirrors type mirrors)
  | toText operand =>
      rw [eval, eval]
      exact .bind (eval_parallel readable runs frames operand) fun value value' mirrors =>
        lift_parallel (plain_toText value) (toText_mirrors mirrors)
  | length operand =>
      rw [eval, eval]
      exact .bind (eval_parallel readable runs frames operand) fun value value' mirrors =>
        lift_parallel (plain_length value) (length_mirrors mirrors)
  | construct unit constructor args =>
      rw [eval, eval]
      apply (unitFor_parallel readable frames.unit unit).bind
      intro target target' same
      apply (callee_parallel same _ _ _).bind
      intro ctor _ same'
      subst same'
      apply (evalAll_parallel readable runs frames args).bind
      intro values values' given
      exact .bind (runs target target' ctor values values' same given)
        fun object object' mirrors => .pure mirrors

theorem evalAll_parallel (readable : first.Readable start)
    (runs : run.Parallel first start base base')
    (frames : frame.Mirrors first start base base' frame') (codes : List Expr) :
    Parallel (first.Beside base base') (List.Forall₂ (Value.Mirrors base base'))
      (evalAll run frame codes) (evalAll run frame' codes) := by
  cases codes with
  | nil => exact .pure .nil
  | cons code rest =>
      rw [evalAll, evalAll]
      apply (eval_parallel readable runs frames code).bind
      intro value value' mirrors
      apply (evalAll_parallel readable runs frames rest).bind
      intro values values' all
      exact .pure (.cons mirrors all)

end

theorem runBody_parallel (readable : first.Readable start)
    (runs : run.Parallel first start base base') {unit unit' : UnitType}
    (same : first.Corresponds start unit unit') (body : List Stmt) {slots slots' : List Value}
    (mirrors : List.Forall₂ (Value.Mirrors base base') slots slots') :
    Parallel (first.Beside base base') (List.Forall₂ (Value.Mirrors base base'))
      (runBody run unit body slots) (runBody run unit' body slots') := by
  induction body generalizing slots slots' with
  | nil => exact .pure mirrors
  | cons step rest ih =>
      rw [runBody, runBody, ← mirrors.length_eq]
      apply (eval_parallel readable runs ⟨same, mirrors⟩ step.value).bind
      intro value value' given
      split
      · exact ih (forall₂_set mirrors _ given)
      · exact .throw _

end Code

theorem initialSlots_mirrors {args args' : List Value} (ctor : ConstructorDecl)
    (mirrors : List.Forall₂ (Value.Mirrors base base') args args') :
    List.Forall₂ (Value.Mirrors base base') (initialSlots ctor args) (initialSlots ctor args') := by
  unfold initialSlots
  rw [← mirrors.length_eq]
  refine List.rel_append (List.forall₂_take _ mirrors) (List.forall₂_same.mpr ?_)
  intro value member
  rw [List.eq_of_mem_replicate member]
  exact .plain rfl

theorem newInstance_parallel {unit unit' : UnitType} (same : first.Corresponds start unit unit')
    {values values' : List Value} (given : List.Forall₂ (Value.Mirrors base base') values values') :
    Parallel (first.Beside base base')
      (fun object object' => object.toValue.Mirrors base base' object'.toValue)
      (newInstance unit values) (newInstance unit' values') := by
  intro here there worlds
  have counted := worlds.counted
  have onward (world : World) :
      world.Onward { world with nextInstance := world.nextInstance + 1 } :=
    World.onward_of_same rfl rfl
  refine ⟨⟨IsTrans.trans _ _ _ worlds.left (onward here).continues,
    IsTrans.trans _ _ _ worlds.right (onward there).continues, ?_⟩, .ok (.object counted same.means given)⟩
  change here.nextInstance + 1 + base' = there.nextInstance + 1 + base
  omega

theorem runWithin_parallel (readable : first.Readable start) (limit levels : Nat) :
    (runWithin limit levels).Parallel first start base base' := by
  induction levels with
  | zero =>
      intro unit unit' ctor args args' same mirrors
      have named : unit.simpleName = unit'.simpleName := Meaning.same_simpleName same.means
      rw [runWithin]
      dsimp only
      rw [named]
      exact .throw _
  | succ levels ih =>
      intro unit unit' ctor args args' same mirrors
      have fields : unit.fields = unit'.fields := Meaning.same_fields same.means
      have named : unit.name = unit'.name := Meaning.same_name same.means
      by_cases count : ctor.init.length = unit.fields.length
      · rw [runWithin_succ count, runWithin_succ (fields ▸ count)]
        apply (runBody_parallel readable ih same ctor.body (initialSlots_mirrors ctor mirrors)).bind
        intro slots slots' filled
        apply (evalAll_parallel readable ih ⟨same, filled⟩ ctor.init).bind
        intro values values' given
        exact newInstance_parallel same given
      · rw [runWithin]
        dsimp only
        rw [if_pos count, if_pos (fields ▸ count), fields, named]
        exact .bind (Q := fun _ _ => False) (.throw _) fun _ _ absurd => absurd.elim

/-! ## Selection -/

section Selection
variable {R : World → World → Prop} {unit unit' : UnitType} {nullable : Bool}

theorem accepts_plain {param : TypeRef} {arg : Value} (plain : arg.instance? = none) :
    Parallel R Eq (accepts unit nullable param arg) (accepts unit' nullable param arg) := by
  cases param <;> cases arg <;> first | exact .pure rfl | cases plain

theorem acceptsAll_plain {params : List TypeRef} {args : List Value}
    (plain : ∀ arg ∈ args, arg.instance? = none) :
    Parallel R Eq (acceptsAll unit nullable params args)
      (acceptsAll unit' nullable params args) := by
  induction params generalizing args with
  | nil => exact .pure rfl
  | cons param params ih =>
      cases args with
      | nil => exact .pure rfl
      | cons arg args =>
          rw [acceptsAll, acceptsAll]
          apply (accepts_plain (plain arg List.mem_cons_self)).bind
          intro accepted _ same
          subst same
          split
          · exact ih fun other member => plain other (List.mem_cons_of_mem _ member)
          · exact .pure rfl

theorem admitsArguments_plain {args : List Value} (plain : ∀ arg ∈ args, arg.instance? = none)
    (ctor : ConstructorDecl) :
    Parallel R Eq (admitsArguments unit nullable args ctor)
      (admitsArguments unit' nullable args ctor) := by
  unfold admitsArguments
  split
  · exact .pure rfl
  · exact acceptsAll_plain plain

end Selection

section Construct
variable (readable : first.Readable start) (limit : Nat) {unit unit' : UnitType}
  (same : first.Corresponds start unit unit') {args : List Value}
  (plain : ∀ arg ∈ args, arg.instance? = none)
include readable same plain

theorem run_parallel (ctor : ConstructorDecl) :
    Parallel (first.Beside base base')
      (fun object object' => object.toValue.Mirrors base base' object'.toValue)
      (run limit unit ctor args) (run limit unit' ctor args) :=
  runWithin_parallel readable limit (limit + 1) unit unit' ctor args args same
    (List.forall₂_same.mpr fun arg member => .plain (plain arg member))

theorem construct_parallel :
    Parallel (first.Beside base base')
      (fun object object' => object.toValue.Mirrors base base' object'.toValue)
      (construct limit unit args) (construct limit unit' args) := by
  have ctors : unit.constructors = unit'.constructors := Meaning.same_constructors same.means
  have named : unit.name = unit'.name := Meaning.same_name same.means
  unfold construct
  cases argumentTypes args with
  | error fault => exact .bind (Q := fun _ _ => False) (.throw fault) fun _ _ absurd => absurd.elim
  | ok types =>
      refine .bind (Q := Eq) (.pure rfl) ?_
      intro types _ same'
      subst same'
      unfold candidates
      rw [← ctors, ← named]
      apply (Parallel.filterM fun ctor _ => admitsArguments_plain plain ctor).bind
      intro found _ same'
      subst same'
      split
      · exact .throw _
      · exact run_parallel readable limit same plain _
      · exact .throw _

theorem constructWith_parallel (name : String) :
    Parallel (first.Beside base base')
      (fun object object' => object.toValue.Mirrors base base' object'.toValue)
      (constructWith limit unit name args) (constructWith limit unit' name args) := by
  have image : unit.image = unit'.image := Meaning.same_image same.means
  have named : unit.name = unit'.name := Meaning.same_name same.means
  unfold constructWith
  rw [← image, ← named]
  split
  · exact .throw _
  · apply (admitsArguments_plain plain _).bind
    intro accepted _ same'
    subst same'
    split
    · exact run_parallel readable limit same plain _
    · exact .throw _

end Construct

end Evaluation

/-! ## Histories -/

namespace Holdings

variable {now : Holdings}

theorem Sound.leads (sound : now.Sound) {request : Request} (quiet : request.isQuiet = true)
    {action : Action (Option Held)} (given : request.action now = some action) :
    now.workspace.world.Onward (action now.workspace.world).2 := by
  have of_leads {α : Type} {step : Action α} {Q : World → α → Prop} (thing : α → Option Held)
      (leads : step.Leads now.workspace.world Q) :
      now.workspace.world.Onward ((thing <$> step : Action (Option Held)) now.workspace.world).2 :=
    (leads.map (R := fun _ _ => True) fun _ _ _ _ => trivial).1
  have known {unit : UnitType} (holds : now.Holds unit) :
      now.workspace.world.Knows now.Holds unit := .inl holds
  cases request with
  | newHost | newLoader | defineImage | defineFromOrigin | register => cases quiet
  | resolve place name =>
      obtain ⟨loader, -, rfl⟩ := Option.map_eq_some_iff.mp given
      exact of_leads _ (Evaluation.resolve_leads loader name)
  | findLocal loader name =>
      obtain ⟨loader, -, rfl⟩ := Option.map_eq_some_iff.mp given
      exact of_leads _ (Action.findLocal_leads sound loader name)
  | findDefined loader name =>
      obtain ⟨loader, -, rfl⟩ := Option.map_eq_some_iff.mp given
      exact of_leads _ (Action.findDefined_leads loader name)
  | construct handle args =>
      obtain ⟨unit, unitHeld, given⟩ := Option.bind_eq_some_iff.mp given
      obtain ⟨values, argsHeld, given⟩ := Option.bind_eq_some_iff.mp given
      cases given
      exact of_leads _ (Evaluation.construct_leads _ (known (holds_of_unit? unitHeld))
        fun value member other inside => known (holds_of_arguments argsHeld member inside))
  | constructWith handle name args =>
      obtain ⟨unit, unitHeld, given⟩ := Option.bind_eq_some_iff.mp given
      obtain ⟨values, argsHeld, given⟩ := Option.bind_eq_some_iff.mp given
      cases given
      exact of_leads _ (Evaluation.constructWith_leads _ (known (holds_of_unit? unitHeld)) name
        fun value member other inside => known (holds_of_arguments argsHeld member inside))
  | field handle name =>
      obtain ⟨object, held, rfl⟩ := Option.map_eq_some_iff.mp given
      exact Std.Refl.refl _
  | unitOf handle =>
      obtain ⟨object, held, rfl⟩ := Option.map_eq_some_iff.mp given
      exact Std.Refl.refl _

theorem Sound.continues_step (sound : now.Sound) {event : Event} (quiet : event.isQuiet = true) :
    now.workspace.world.Continues (now.step event).workspace.world := by
  cases event with
  | drop handle => exact World.continues_release sound _
  | ask request handle =>
      cases given : request.action now with
      | none =>
          rw [step_unasked given]
          exact Std.Refl.refl _
      | some action =>
          rcases run : action now.workspace.world with ⟨answer, world⟩
          have onward := sound.leads quiet given
          rw [run] at onward
          rw [step_ask given run]
          obtain ⟨handles, same, -⟩ := keep_eq handle answer world now
          rw [same]
          exact IsTrans.trans _ _ _ onward.continues
            (World.continues_release (onward.sound _ sound) _)

/-- Hosts are as they were, and loaders answer as they did, after any quiet events. -/
theorem Sound.continues_run (sound : now.Sound) {events : List Event}
    (quiet : ∀ event ∈ events, event.isQuiet = true) :
    now.workspace.world.Continues (now.run events).workspace.world := by
  induction events generalizing now with
  | nil => exact Std.Refl.refl _
  | cons event rest ih =>
      exact IsTrans.trans _ _ _ (sound.continues_step (quiet event List.mem_cons_self))
        (ih (sound.step event).1 fun other member => quiet other (List.mem_cons_of_mem _ member))

end Holdings

/-- What can be found out about two worlds at a loader, and at those that it reaches: which units
names lead to, and what corresponding units make of arguments that are no instances. -/
structure World.Indistinct (first : World) (start : LoaderId) (here there : World) : Prop where
  resolve : ∀ loader name, first.Reaches start loader →
    Answer.Both (first.Corresponds start) (Action.resolve loader name here).1
      (Action.resolve loader name there).1
  construct : ∀ limit unit unit' args, first.Corresponds start unit unit' →
    (∀ arg ∈ args, arg.instance? = none) →
    Answer.Both (fun object object' => object.toValue.Mirrors here.nextInstance
        there.nextInstance object'.toValue)
      (Evaluation.construct limit unit args here).1 (Evaluation.construct limit unit' args there).1
  constructWith : ∀ limit unit unit' name args, first.Corresponds start unit unit' →
    (∀ arg ∈ args, arg.instance? = none) →
    Answer.Both (fun object object' => object.toValue.Mirrors here.nextInstance
        there.nextInstance object'.toValue)
      (Evaluation.constructWith limit unit name args here).1
      (Evaluation.constructWith limit unit' name args there).1

/-- Whatever was looked up, constructed and let go of after the same loaders were made, the loaders
give the same: a name leads to units with one image, or to one error, and from the same arguments
these units make instances that mirror each other, or fail with one error. All artifacts that can be
come to from the loader can be read. -/
theorem history_independent (tree : FileTree) (building first second : List Event)
    {loader : LoaderId}
    (readable : ((Holdings.start tree).run building).workspace.world.Readable loader)
    (quiet : ∀ event ∈ first ++ second, event.isQuiet = true) :
    ((Holdings.start tree).run building).workspace.world.Indistinct loader
      ((Holdings.start tree).run (building ++ first)).workspace.world
      ((Holdings.start tree).run (building ++ second)).workspace.world := by
  obtain ⟨sound, -⟩ := (Holdings.sound_start tree).run building
  rw [Holdings.run_append, Holdings.run_append]
  have left := sound.continues_run fun event member => quiet event (List.mem_append_left _ member)
  have right := sound.continues_run fun event member => quiet event (List.mem_append_right _ member)
  have worlds := World.Beside.mk left right (Nat.add_comm _ _)
  constructor
  case resolve =>
    intro loader name reached
    exact (Evaluation.resolve_parallel readable reached name _ _ worlds).2
  case construct =>
    intro limit unit unit' args same plain
    exact (Evaluation.construct_parallel readable limit same plain _ _ worlds).2
  case constructWith =>
    intro limit unit unit' name args same plain
    exact (Evaluation.constructWith_parallel readable limit same plain name _ _ worlds).2

/-! ## A chain of two loaders -/

def holder : UnitImage where
  name := "demo.B"
  source := ""
  fields := [{ name := "a", type := .unit "demo.A" }, { name := "n", type := .int }]
  constructors :=
    [{ name := "of", params := [{ name := "n", type := .int }], locals := 1, body := [],
       init := [.construct "demo.A" "new" [], .slot 0] }]

def chaining : List Event :=
  loading (artifactOf counter) ++ [.ask (.newLoader "loader" (artifactOf holder)) (some "lower")]

/-- The holder is defined and used, its unit is dropped and defined anew, and so is the unit that
its instance holds. -/
def usage : List Event :=
  [.ask (.resolve "lower" "demo.B") (some "unit"),
    .ask (.construct "unit" [.int 5]) (some "object"), .drop "unit", .drop "object",
    .ask (.findDefined "lower" "demo.B") none, .ask (.findLocal "loader" "demo.A") none]

theorem readable_chaining : ((Holdings.start .empty).run chaining).workspace.world.Readable 3 :=
  World.readable_of_all (by decide +kernel) 3

theorem history_independent_chain :
    ((Holdings.start .empty).run chaining).workspace.world.Indistinct 3
      ((Holdings.start .empty).run (chaining ++ [])).workspace.world
      ((Holdings.start .empty).run (chaining ++ usage)).workspace.world :=
  history_independent .empty chaining [] usage readable_chaining (by decide)

end UnitForge
