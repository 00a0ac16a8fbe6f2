import UnitForge.Proofs.Evaluation.Soundness
import UnitForge.Proofs.Loading.Failure

/-! # Ambiguous calls

Neither running code nor looking for the constructors that take some arguments ever ends in an
ambiguity. A call is ambiguous just when several constructors are found; all of them take arguments
of the same types, since a constructor is only found for arguments whose types are exactly those of
its parameters. -/
set_option autoImplicit false
namespace UnitForge

open Step

variable {α β : Type}

/-- A fault of running code, or of finding the units that are needed for it. -/
def Error.OfRunning : Error → Prop
  | .execution _ | .typeNotFound _ | .malformedArtifact .. => True
  | _ => False

/-- Whatever world a step starts in, it fails with nothing but faults of running code. -/
def Action.FailsRunning (step : Action α) : Prop :=
  ∀ world fault, (step world).1 = .error fault → fault.OfRunning

namespace Action

variable {step : Action α}

theorem FailsRunning.pure (value : α) : FailsRunning (Pure.pure value : Action α) :=
  nofun

theorem FailsRunning.throw {fault : Error} (running : fault.OfRunning) :
    FailsRunning (MonadExcept.throw fault : Action α) := by
  intro world other same
  cases same
  exact running

theorem FailsRunning.bind {next : α → Action β} (first : step.FailsRunning)
    (rest : ∀ value, (next value).FailsRunning) : (step >>= next).FailsRunning := by
  intro world fault failed
  rcases run : (step >>= next : Action β) world with ⟨answer, after⟩
  rw [run] at failed
  cases failed
  rcases except_bind_run run with ⟨early, stop, run, same⟩ | ⟨value, middle, -, run⟩
  · cases same
    exact first world fault (congrArg Prod.fst run)
  · exact rest value middle fault (congrArg Prod.fst run)

theorem FailsRunning.tryCatch {handler : Error → Action α} (first : step.FailsRunning)
    (rest : ∀ fault, fault.OfRunning → (handler fault).FailsRunning) :
    FailsRunning (MonadExcept.tryCatch step handler) := by
  intro world fault failed
  rcases run : step world with ⟨early | value, middle⟩
  · rw [except_catch_error run] at failed
    exact rest early (first world early (congrArg Prod.fst run)) middle fault failed
  · rw [except_catch_ok run] at failed
    cases failed

theorem FailsRunning.ite {condition : Prop} [Decidable condition] {yes no : Action α}
    (whenTrue : yes.FailsRunning) (whenFalse : no.FailsRunning) :
    FailsRunning (if condition then yes else no) := by
  split <;> assumption

theorem FailsRunning.filterM {test : α → Action Bool} (tests : ∀ item, (test item).FailsRunning)
    (items : List α) : (items.filterM test).FailsRunning := by
  have loop (rest kept : List α) : (List.filterAuxM test rest kept).FailsRunning := by
    induction rest generalizing kept with
    | nil => exact .pure kept
    | cons first rest ih => exact .bind (tests first) fun admitted => ih _
  exact .bind (loop items []) fun kept => .pure _

theorem resolve_failsRunning (loader : LoaderId) (name : String) :
    (resolve loader name).FailsRunning := by
  intro world fault failed
  have run : resolve loader name world = (.error fault, (resolve loader name world).2) :=
    Prod.ext failed rfl
  rcases resolve_error run with ⟨rfl, -⟩ | ⟨why, -, -, -, rfl, -⟩
  · trivial
  · trivial

end Action

namespace Evaluation

open UnitForge.Action

/-! ## Code -/

def Runner.FailsRunning (run : Runner) : Prop :=
  ∀ unit ctor args, (run unit ctor args).FailsRunning

variable {run : Runner} {frame : Frame}

theorem lift_failsRunning (outcome : Outcome) : (lift outcome).FailsRunning := by
  cases outcome with
  | ok value => exact .pure value
  | error fault => exact .throw trivial

theorem unitFor_failsRunning (unit : UnitType) (name : String) :
    (unitFor unit name).FailsRunning := by
  unfold unitFor
  split
  · exact .pure _
  · exact resolve_failsRunning _ name

theorem callee_failsRunning (target : UnitType) (unit constructor : String) (given : Nat) :
    (callee target unit constructor given).FailsRunning := by
  unfold callee
  split
  · exact .throw trivial
  · split
    · exact .bind (.throw trivial) fun _ => .pure _
    · exact .pure _

mutual

theorem eval_failsRunning (runs : run.FailsRunning) (code : Expr) :
    (eval run frame code).FailsRunning := by
  cases code with
  | null | int | float | bool | str => exact .pure _
  | slot index =>
      rw [eval]
      split
      · exact .pure _
      · exact .throw trivial
  | unary op operand =>
      rw [eval]
      exact .bind (eval_failsRunning runs operand) fun value => lift_failsRunning _
  | binary op left right =>
      by_cases logical : op.isLogical = true
      · cases op with
        | and | or =>
            rw [eval]
            apply (eval_failsRunning runs left).bind
            intro value
            split
            · exact .pure _
            · exact eval_failsRunning runs right
            · exact .throw trivial
        | _ => cases logical
      · rw [eval_binary (Bool.eq_false_iff.mpr logical)]
        apply (eval_failsRunning runs left).bind
        intro a
        exact .bind (eval_failsRunning runs right) fun b => lift_failsRunning _
  | cast operand type =>
      rw [eval]
      exact .bind (eval_failsRunning runs operand) fun value => lift_failsRunning _
  | toText operand =>
      rw [eval]
      exact .bind (eval_failsRunning runs operand) fun value => lift_failsRunning _
  | length operand =>
      rw [eval]
      exact .bind (eval_failsRunning runs operand) fun value => lift_failsRunning _
  | construct unit constructor args =>
      rw [eval]
      apply (unitFor_failsRunning _ _).bind
      intro target
      apply (callee_failsRunning _ _ _ _).bind
      intro ctor
      apply (evalAll_failsRunning runs args).bind
      intro values
      exact .bind (runs target ctor values) fun object => .pure _

theorem evalAll_failsRunning (runs : run.FailsRunning) (codes : List Expr) :
    (evalAll run frame codes).FailsRunning := by
  cases codes with
  | nil => exact .pure _
  | cons first rest =>
      rw [evalAll]
      apply (eval_failsRunning runs first).bind
      intro value
      exact .bind (evalAll_failsRunning runs rest) fun values => .pure _

end

variable {unit : UnitType} {nullable : Bool}

end Evaluation

end UnitForge
