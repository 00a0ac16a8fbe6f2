import UnitForge.Proofs.Evaluation.Soundness

/-! # What running code does to a world

Whatever code is run, well typed or not, no name means anything else afterwards than it did before,
and a constructor gives instances of its own unit only. -/
set_option autoImplicit false
namespace UnitForge

open Step

/-- From a world, a step leads to a later one, and what it gives has a property, if it gives
anything. -/
abbrev Action.Settles {α : Type} (step : Action α) (world : World) (Q : α → Prop) : Prop :=
  step.Ensures (fun _ => True) world Q

namespace Evaluation

open UnitForge.Action

variable {run : Runner} {world : World}

def Runner.Settles (run : Runner) : Prop :=
  ∀ (unit : UnitType) (ctor : ConstructorDecl) (args : List Value) (world : World),
    (run unit ctor args).Settles world fun object => object.unit = unit

theorem unitFor_settles (unit : UnitType) (name : String) :
    (unitFor unit name).Settles world fun _ => True := by
  unfold unitFor
  split
  · exact .pure trivial
  · rcases resolved : Action.resolve unit.resolver name world with ⟨fault | found, after⟩
    · exact .of_eq resolved (resolve_run resolved).1 trivial
    · exact .of_eq resolved (resolve_run resolved).1 trivial

theorem callee_settles (target : UnitType) (name constructor : String) (given : Nat) :
    (callee target name constructor given).Settles world fun _ => True := by
  unfold callee
  split
  · exact .throw trivial
  · split
    · exact .bind (Q := fun _ => True) (.throw trivial) fun _ _ _ _ => .pure trivial
    · exact .pure trivial

theorem lift_settles (outcome : Outcome) : (lift outcome).Settles world fun _ => True := by
  cases outcome with
  | ok value => exact .pure trivial
  | error fault => exact .throw trivial

mutual

theorem eval_settles (runs : run.Settles) (frame : Frame) (world : World) (code : Expr) :
    (eval run frame code).Settles world fun _ => True := by
  cases code with
  | null | int | float | bool | str => exact .pure trivial
  | slot index =>
      rw [eval]
      split
      · exact .pure trivial
      · exact .throw trivial
  | unary op operand =>
      rw [eval]
      exact .bind (eval_settles runs frame world operand) fun _ _ _ _ => lift_settles _
  | binary op left right =>
      by_cases logical : op.isLogical = true
      · cases op with
        | and | or =>
            rw [eval]
            apply (eval_settles runs frame world left).bind
            intro a after _ _
            split
            · exact .pure trivial
            · exact eval_settles runs frame after right
            · exact .throw trivial
        | _ => cases logical
      · rw [eval_binary (Bool.eq_false_iff.mpr logical)]
        apply (eval_settles runs frame world left).bind
        intro a after _ _
        exact .bind (eval_settles runs frame after right) fun _ _ _ _ => lift_settles _
  | cast operand type =>
      rw [eval]
      exact .bind (eval_settles runs frame world operand) fun _ _ _ _ => lift_settles _
  | toText operand =>
      rw [eval]
      exact .bind (eval_settles runs frame world operand) fun _ _ _ _ => lift_settles _
  | length operand =>
      rw [eval]
      exact .bind (eval_settles runs frame world operand) fun _ _ _ _ => lift_settles _
  | construct unit constructor args =>
      rw [eval]
      apply (unitFor_settles _ _).bind
      intro target _ _ _
      apply (callee_settles _ _ _ _).bind
      intro ctor _ _ _
      apply (evalAll_settles runs frame _ args).bind
      intro values after _ _
      exact .bind (runs target ctor values after) fun _ _ _ _ => .pure trivial

theorem evalAll_settles (runs : run.Settles) (frame : Frame) (world : World)
    (codes : List Expr) :
    (evalAll run frame codes).Settles world fun _ => True := by
  cases codes with
  | nil => exact .pure trivial
  | cons first rest =>
      rw [evalAll]
      apply (eval_settles runs frame world first).bind
      intro _ after _ _
      exact .bind (evalAll_settles runs frame after rest) fun _ _ _ _ => .pure trivial

end

theorem runBody_settles (runs : run.Settles) (unit : UnitType) (body : List Stmt)
    (slots : List Value) :
    (runBody run unit body slots).Settles world fun _ => True := by
  induction body generalizing slots world with
  | nil => exact .pure trivial
  | cons step rest ih =>
      rw [runBody]
      apply (eval_settles runs _ _ _).bind
      intro value after _ _
      split
      · exact ih _
      · exact .throw trivial

theorem runWithin_settles (limit levels : Nat) : (runWithin limit levels).Settles := by
  induction levels with
  | zero => exact fun _ _ _ _ => .throw trivial
  | succ levels ih =>
      intro unit ctor args world
      by_cases count : ctor.init.length = unit.fields.length
      · rw [runWithin_succ count]
        apply (runBody_settles ih _ _ _).bind
        intro slots after _ _
        apply (evalAll_settles ih _ _ _).bind
        intro fields final _ _
        exact ⟨World.later_of_loaders rfl, rfl⟩
      · rw [runWithin]
        dsimp only
        rw [if_pos count]
        exact .bind (Q := fun _ => False) (.throw trivial) fun _ _ _ absurd => absurd.elim

end Evaluation

end UnitForge
