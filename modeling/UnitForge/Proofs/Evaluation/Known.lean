import UnitForge.Proofs.Evaluation.Soundness
import UnitForge.Proofs.Loading.Standing

/-! # Units that code comes across

Whatever code is run, well typed or not, it only ever defines more units: the loaders stay in order,
and no unit that is alive is put in the place of another one. The units of what the code gives are
units of the values that it was given, or units that a loader has. -/
set_option autoImplicit false
namespace UnitForge

open Step

variable {α β : Type}

/-- From a world, a step leads to one in which more units may have been defined, and what it gives
has a property there. -/
def Action.Leads (step : Action α) (before : World) (Q : World → α → Prop) : Prop :=
  before.Onward (step before).2 ∧ ∀ value, (step before).1 = .ok value → Q (step before).2 value

namespace Action

variable {step : Action α} {before after : World} {Q : World → α → Prop}

theorem Leads.of_run {answer : Except Error α} (leads : step.Leads before Q)
    (run : step before = (answer, after)) :
    before.Onward after ∧ ∀ value, answer = .ok value → Q after value := by
  unfold Leads at leads
  rwa [run] at leads

theorem Leads.of_eq {answer : Except Error α} (run : step before = (answer, after))
    (onward : before.Onward after) (holds : ∀ value, answer = .ok value → Q after value) :
    step.Leads before Q := by
  unfold Leads
  rw [run]
  exact ⟨onward, holds⟩

theorem Leads.pure {value : α} (holds : Q before value) :
    Leads (Pure.pure value : Action α) before Q := by
  refine .of_eq rfl (Std.Refl.refl _) ?_
  intro other same
  cases same
  exact holds

theorem Leads.throw {fault : Error} : Leads (MonadExcept.throw fault : Action α) before Q :=
  .of_eq rfl (Std.Refl.refl _) nofun

theorem Leads.imp {R : World → α → Prop} (leads : step.Leads before Q)
    (weaker : ∀ after value, before.Onward after → Q after value → R after value) :
    step.Leads before R :=
  ⟨leads.1, fun value same => weaker _ value leads.1 (leads.2 value same)⟩

theorem Leads.and {R : World → α → Prop} (leads : step.Leads before Q)
    (also : step.Leads before R) :
    step.Leads before fun after value => Q after value ∧ R after value :=
  ⟨leads.1, fun value same => ⟨leads.2 value same, also.2 value same⟩⟩

theorem Leads.map {f : α → β} {R : World → β → Prop} (leads : step.Leads before Q)
    (holds : ∀ after value, before.Onward after → Q after value → R after (f value)) :
    (f <$> step : Action β).Leads before R := by
  rcases run : (f <$> step : Action β) before with ⟨answer, after⟩
  rcases except_map_run run with ⟨fault, last, failed, same⟩ | ⟨value, last, gave, same⟩
  · cases same
    exact .of_eq run (leads.of_run failed).1 nofun
  · cases same
    obtain ⟨onward, outcome⟩ := leads.of_run gave
    refine .of_eq run onward ?_
    intro other same
    cases same
    exact holds after value onward (outcome value rfl)

theorem Leads.bind {next : α → Action β} {R : World → β → Prop} (first : step.Leads before Q)
    (rest : ∀ value after, before.Onward after → Q after value → (next value).Leads after R) :
    (step >>= next).Leads before R := by
  rcases run : step before with ⟨fault | value, middle⟩
  · exact .of_eq (except_bind_error run) (first.of_run run).1 nofun
  · obtain ⟨onward, holds⟩ := first.of_run run
    obtain ⟨further, outcome⟩ := rest value middle onward (holds value rfl)
    exact .of_eq (except_bind_ok run) (IsTrans.trans _ _ _ onward further) outcome

theorem Leads.bind_ok {next : α → Action β} {R : World → β → Prop} {value : α}
    (first : step before = (.ok value, before)) (rest : (next value).Leads before R) :
    (step >>= next).Leads before R :=
  .of_eq (except_bind_ok first) rest.1 rest.2

theorem Leads.tryCatch {handler : Error → Action α} (first : step.Leads before Q)
    (rest : ∀ fault after, before.Onward after → (handler fault).Leads after Q) :
    Leads (MonadExcept.tryCatch step handler) before Q := by
  rcases run : step before with ⟨fault | value, middle⟩
  · obtain ⟨further, outcome⟩ := rest fault middle (first.of_run run).1
    exact .of_eq (except_catch_error run)
      (IsTrans.trans _ _ _ (first.of_run run).1 further) outcome
  · obtain ⟨onward, outcome⟩ := first.of_run run
    exact .of_eq (except_catch_ok run) onward outcome

theorem Leads.filterM {test : α → Action Bool} {items : List α} {start : World}
    (tests : ∀ item ∈ items, ∀ world, start.Onward world →
      (test item).Leads world fun after admitted => admitted = true → Q after item)
    (lasts : ∀ item world after, world.Onward after → Q world item → Q after item)
    (onward : start.Onward before) :
    (items.filterM test).Leads before fun after kept =>
      ∀ item ∈ kept, item ∈ items ∧ Q after item := by
  have loop (rest kept : List α) {world : World} (onward : start.Onward world)
      (included : rest ⊆ items) (holds : ∀ item ∈ kept, item ∈ items ∧ Q world item) :
      (List.filterAuxM test rest kept).Leads world fun after kept =>
        ∀ item ∈ kept, item ∈ items ∧ Q after item := by
    induction rest generalizing kept world with
    | nil => exact .pure holds
    | cons first rest ih =>
        rw [List.cons_subset] at included
        apply (tests first included.1 world onward).bind
        intro admitted after further passed
        apply ih _ (IsTrans.trans _ _ _ onward further) included.2
        intro item member
        have old (member : item ∈ kept) : item ∈ items ∧ Q after item :=
          (holds item member).imp_right (lasts item world after further)
        cases admitted with
        | false => exact old member
        | true =>
            rcases List.mem_cons.mp member with rfl | earlier
            · exact ⟨included.1, passed rfl⟩
            · exact old earlier
  apply (loop items [] onward (List.Subset.refl _) nofun).bind
  intro kept after _ holds
  refine .pure ?_
  exact fun item member => holds item (List.mem_reverse.mp member)

end Action

/-! ## Values of operators -/

namespace Evaluation

open UnitForge.Action

def Outcome.Plain (outcome : Outcome) : Prop :=
  ∀ value, outcome = .ok value → value.units = []

theorem plain_error (fault : ExecutionFault) : Outcome.Plain (.error fault) :=
  nofun

theorem plain_ok {value : Value} (plain : value.units = []) : Outcome.Plain (.ok value) := by
  intro other same
  cases same
  exact plain

theorem plain_checked (operation : CheckedOperation) (result : Int) :
    Outcome.Plain (checked operation result) := by
  unfold checked
  split
  · exact plain_ok rfl
  · exact plain_error _

theorem plain_unary (op : UnaryOp) (value : Value) : Outcome.Plain (unary op value) := by
  unfold unary
  split
  · exact plain_checked _ _
  all_goals first | exact plain_ok rfl | exact plain_error _

theorem plain_compareBy (op : BinaryOp) (a b : Value) : Outcome.Plain (compareBy op a b) := by
  unfold compareBy
  split <;> first | exact plain_ok rfl | exact plain_error _

theorem plain_divide (a b : Int64) : Outcome.Plain (divide a b) := by
  unfold divide
  split
  · exact plain_error _
  · exact plain_checked _ _

theorem plain_remainder (a b : Int64) : Outcome.Plain (remainder a b) := by
  unfold remainder
  split
  · exact plain_error _
  split
  · exact plain_error _
  · exact plain_checked _ _

theorem plain_binary (op : BinaryOp) (a b : Value) : Outcome.Plain (binary op a b) := by
  unfold binary
  split
  all_goals first
    | exact plain_checked _ _
    | exact plain_divide _ _
    | exact plain_remainder _ _
    | exact plain_compareBy _ _ _
    | exact plain_ok rfl
    | exact plain_error _

theorem plain_cast (value : Value) (type : TypeRef) : Outcome.Plain (cast value type) := by
  unfold cast
  split <;> first | exact plain_ok rfl | exact plain_error _

theorem plain_toText (value : Value) : Outcome.Plain (toText value) := by
  unfold toText
  split
  · exact plain_error _
  · exact plain_ok rfl

theorem plain_length (value : Value) : Outcome.Plain (length value) := by
  unfold length
  split
  · exact plain_ok rfl
  · exact plain_error _

/-! ## Expressions -/

variable {held : UnitType → Prop} {run : Runner} {world : World}

def Known (held : UnitType → Prop) (world : World) (value : Value) : Prop :=
  ∀ unit ∈ value.units, world.Knows held unit

theorem Known.onward {before after : World} {value : Value} (known : Known held before value)
    (onward : before.Onward after) : Known held after value :=
  fun unit member => onward.knows (known unit member)

theorem mem_unitsOfAll {values : List Value} {unit : UnitType} :
    unit ∈ Value.unitsOfAll values ↔ ∃ value ∈ values, unit ∈ value.units := by
  induction values with
  | nil => simp [Value.unitsOfAll]
  | cons first rest ih => simp [Value.unitsOfAll, ih]

theorem known_object {object : Instance} (owner : world.Knows held object.unit)
    (fields : ∀ value ∈ object.fields, Known held world value) :
    Known held world object.toValue := by
  intro unit member
  rcases List.mem_cons.mp member with rfl | inner
  · exact owner
  · obtain ⟨value, here, member⟩ := mem_unitsOfAll.mp inner
    exact fields value here unit member

/-- Constructors lead onward, from known values to known ones. -/
def Runner.Leads (held : UnitType → Prop) (run : Runner) : Prop :=
  ∀ (unit : UnitType) (ctor : ConstructorDecl) (args : List Value) (world : World),
    world.Knows held unit → (∀ arg ∈ args, Known held world arg) →
    (run unit ctor args).Leads world fun after object => Known held after object.toValue

theorem resolve_leads (loader : LoaderId) (name : String) :
    (resolve loader name).Leads world fun after unit =>
      after.standing? loader name = some unit := by
  rcases resolved : resolve loader name world with ⟨answer, after⟩
  obtain ⟨onward, stands⟩ := resolve_onward resolved
  exact .of_eq resolved onward stands

theorem unitFor_leads {unit : UnitType} (known : world.Knows held unit) (name : String) :
    (unitFor unit name).Leads world fun after target => after.Knows held target := by
  unfold unitFor
  split
  · exact .pure known
  · exact (resolve_leads _ _).imp fun after target _ stands => .inr (.of_standing stands)

theorem callee_leads (target : UnitType) (name constructor : String) (given : Nat) :
    (callee target name constructor given).Leads world fun _ _ => True := by
  unfold callee
  split
  · exact .throw
  · split
    · exact .bind (Q := fun _ _ => True) .throw fun _ _ _ _ => .pure trivial
    · exact .pure trivial

theorem lift_leads {outcome : Outcome} (plain : outcome.Plain) :
    (lift outcome).Leads world (Known held) := by
  cases outcome with
  | ok value =>
      refine .pure ?_
      intro unit member
      rw [plain value rfl] at member
      cases member
  | error fault => exact .throw

theorem operand_leads {operand : Action Value} {next : Value → Outcome}
    (first : operand.Leads world (Known held)) (plain : ∀ value, (next value).Plain) :
    (do lift (next (← operand)) : Action Value).Leads world (Known held) :=
  .bind first fun _ _ _ _ => lift_leads (plain _)

mutual

theorem eval_leads (runs : run.Leads held) {frame : Frame} {world : World}
    (owner : world.Knows held frame.unit) (slots : ∀ value ∈ frame.slots, Known held world value)
    (code : Expr) : (eval run frame code).Leads world (Known held) := by
  cases code with
  | null | int | float | bool | str => exact .pure nofun
  | slot index =>
      rw [eval]
      cases given : frame.slots[index.toNat]? with
      | none => exact .throw
      | some value => exact .pure (slots value (List.mem_of_getElem? given))
  | unary op operand =>
      rw [eval]
      exact operand_leads (eval_leads runs owner slots operand) (plain_unary op)
  | binary op left right =>
      have later {after : World} (onward : world.Onward after) :
          (eval run frame right).Leads after (Known held) :=
        eval_leads runs (onward.knows owner)
          (fun value member => (slots value member).onward onward) right
      by_cases logical : op.isLogical = true
      · cases op with
        | and | or =>
            rw [eval]
            apply (eval_leads runs owner slots left).bind
            intro a after onward _
            split
            · exact .pure nofun
            · exact later onward
            · exact .throw
        | _ => cases logical
      · rw [eval_binary (Bool.eq_false_iff.mpr logical)]
        apply (eval_leads runs owner slots left).bind
        intro a after onward _
        exact operand_leads (later onward) (plain_binary op a)
  | cast operand type =>
      rw [eval]
      exact operand_leads (eval_leads runs owner slots operand) fun value => plain_cast value type
  | toText operand =>
      rw [eval]
      exact operand_leads (eval_leads runs owner slots operand) plain_toText
  | length operand =>
      rw [eval]
      exact operand_leads (eval_leads runs owner slots operand) plain_length
  | construct unit constructor args =>
      rw [eval]
      apply (unitFor_leads owner unit).bind
      intro target after onward reached
      apply (callee_leads _ _ _ _).bind
      intro ctor middle further _
      have onward : world.Onward middle := IsTrans.trans _ _ _ onward further
      apply (evalAll_leads runs (onward.knows owner)
        (fun value member => (slots value member).onward onward) args).bind
      intro values last more all
      refine .bind (runs target ctor values last (more.knows (further.knows reached)) all)
        fun object _ _ known => .pure known

theorem evalAll_leads (runs : run.Leads held) {frame : Frame} {world : World}
    (owner : world.Knows held frame.unit) (slots : ∀ value ∈ frame.slots, Known held world value)
    (codes : List Expr) :
    (evalAll run frame codes).Leads world fun after values =>
      ∀ value ∈ values, Known held after value := by
  cases codes with
  | nil => exact .pure nofun
  | cons first rest =>
      rw [evalAll]
      apply (eval_leads runs owner slots first).bind
      intro value after onward known
      apply (evalAll_leads runs (onward.knows owner)
        (fun value member => (slots value member).onward onward) rest).bind
      intro values last further all
      refine .pure ?_
      intro other member
      rcases List.mem_cons.mp member with rfl | member
      · exact known.onward further
      · exact all other member

end

/-! ## Constructors -/

theorem runBody_leads (runs : run.Leads held) {unit : UnitType} (owner : world.Knows held unit)
    {slots : List Value} (known : ∀ value ∈ slots, Known held world value) (body : List Stmt) :
    (runBody run unit body slots).Leads world fun after slots =>
      ∀ value ∈ slots, Known held after value := by
  induction body generalizing slots world with
  | nil => exact .pure known
  | cons step rest ih =>
      rw [runBody]
      apply (eval_leads runs owner known step.value).bind
      intro value after onward given
      split
      · apply ih (onward.knows owner)
        intro other member
        rcases List.mem_or_eq_of_mem_set member with old | rfl
        · exact (known other old).onward onward
        · exact given
      · exact .throw

theorem mem_initialSlots {ctor : ConstructorDecl} {args : List Value} {value : Value}
    (member : value ∈ initialSlots ctor args) : value ∈ args ∨ value = .null := by
  rcases List.mem_append.mp member with given | filled
  · exact .inl (List.mem_of_mem_take given)
  · exact .inr (List.eq_of_mem_replicate filled)

theorem runWithin_leads (limit levels : Nat) : (runWithin limit levels).Leads held := by
  induction levels with
  | zero => exact fun _ _ _ _ _ _ => .throw
  | succ levels ih =>
      intro unit ctor args world owner known
      by_cases count : ctor.init.length = unit.fields.length
      · rw [runWithin_succ count]
        have slots : ∀ value ∈ initialSlots ctor args, Known held world value := by
          intro value member
          rcases mem_initialSlots member with given | rfl
          · exact known value given
          · exact nofun
        apply (runBody_leads ih owner slots ctor.body).bind
        intro slots after onward filled
        apply (evalAll_leads ih (onward.knows owner) filled ctor.init).bind
        intro fields last further all
        refine .of_eq rfl (World.onward_of_same rfl rfl) ?_
        intro object same
        cases same
        have onward := IsTrans.trans _ _ _ onward further
        exact known_object (onward.knows owner) all
      · rw [runWithin]
        dsimp only
        rw [if_pos count]
        exact .bind (Q := fun _ _ => False) .throw fun _ _ _ absurd => absurd.elim

/-! ## Selection -/

variable {unit : UnitType} {nullable : Bool}

theorem accepts_leads (param : TypeRef) (arg : Value) :
    (accepts unit nullable param arg).Leads world fun _ _ => True := by
  cases param with
  | unit name =>
      cases arg with
      | object id given fields =>
          rw [accepts]
          split
          · exact .pure trivial
          · split
            · exact .pure trivial
            · refine .bind (Q := fun _ _ => True) (.tryCatch ?_ ?_) ?_
              · exact .bind (resolve_leads _ _) fun _ _ _ _ => .pure trivial
              · intro fault after _
                cases fault with
                | typeNotFound name => exact .pure trivial
                | _ => exact .throw
              · intro early after _ _
                cases early <;> exact .pure trivial
      | _ => exact .pure trivial
  | _ => cases arg <;> exact .pure trivial

theorem acceptsAll_leads (params : List TypeRef) (args : List Value) :
    (acceptsAll unit nullable params args).Leads world fun _ _ => True := by
  induction params generalizing args world with
  | nil => exact .pure trivial
  | cons param params ih =>
      cases args with
      | nil => exact .pure trivial
      | cons arg args =>
          rw [acceptsAll]
          apply (accepts_leads param arg).bind
          intro accepted after _ _
          cases accepted with
          | false => exact .pure trivial
          | true => exact ih args

theorem admitsArguments_leads (args : List Value) (ctor : ConstructorDecl) :
    (admitsArguments unit nullable args ctor).Leads world fun _ _ => True := by
  unfold admitsArguments
  split
  · exact .pure trivial
  · exact acceptsAll_leads _ _

theorem candidates_leads (args : List Value) :
    (candidates unit args).Leads world fun _ _ => True := by
  have tests : ∀ ctor ∈ unit.constructors, ∀ after, world.Onward after →
      (admitsArguments unit false args ctor).Leads after fun _ admitted =>
        admitted = true → True := by
    intro ctor member after onward
    exact (admitsArguments_leads args ctor).imp fun _ _ _ _ _ => trivial
  have kept := Leads.filterM (Q := fun _ _ => True) tests (fun _ _ _ _ _ => trivial)
    (Std.Refl.refl world)
  exact kept.imp fun _ _ _ _ => trivial

theorem construct_leads (limit : Nat) (owner : world.Knows held unit) {args : List Value}
    (known : ∀ arg ∈ args, Known held world arg) :
    (construct limit unit args).Leads world fun after object =>
      Known held after object.toValue := by
  unfold construct
  cases argumentTypes args with
  | error fault => exact .throw
  | ok types =>
      refine .bind (Q := fun after _ => after = world) (.pure rfl) ?_
      intro types after _ same
      subst same
      apply (candidates_leads args).bind
      intro found after onward _
      match found with
      | [] => exact .throw
      | [ctor] =>
          exact runWithin_leads limit (limit + 1) unit ctor args after (onward.knows owner)
            fun arg member => (known arg member).onward onward
      | first :: second :: rest => exact .throw

theorem constructWith_leads (limit : Nat) (owner : world.Knows held unit) (name : String)
    {args : List Value} (known : ∀ arg ∈ args, Known held world arg) :
    (constructWith limit unit name args).Leads world fun after object =>
      Known held after object.toValue := by
  unfold constructWith
  cases unit.image.constructor? name with
  | none => exact .throw
  | some ctor =>
      apply (admitsArguments_leads args ctor).bind
      intro accepted after onward _
      cases accepted with
      | true =>
          exact runWithin_leads limit (limit + 1) unit ctor args after (onward.knows owner)
            fun arg member => (known arg member).onward onward
      | false => exact .throw

end Evaluation

end UnitForge
