import UnitForge.Proofs.Evaluation.Soundness
import UnitForge.Proofs.Lowering.References

/-! # Choosing constructors

A constructor that is found to take arguments gets values of the types of its parameters. Nothing
can go wrong on the way as long as the units of the parameters can be found. -/
set_option autoImplicit false
namespace UnitForge

open Step

variable {α β : Type}

/-- From a world, a step leads to a later one, and gives what has a property. -/
def Action.Succeeds (step : Action α) (world : World) (Q : α → Prop) : Prop :=
  ∃ value after, step world = (.ok value, after) ∧ world.Later after ∧ Q value

namespace Action

variable {step : Action α} {world : World} {Q : α → Prop}

theorem Succeeds.pure {value : α} (holds : Q value) :
    Succeeds (Pure.pure value : Action α) world Q :=
  ⟨value, world, rfl, Std.Refl.refl _, holds⟩

theorem Succeeds.bind {next : α → Action β} {R : β → Prop} (first : step.Succeeds world Q)
    (rest : ∀ value after, world.Later after → Q value → (next value).Succeeds after R) :
    (step >>= next).Succeeds world R := by
  obtain ⟨value, middle, run, later, holds⟩ := first
  obtain ⟨result, after, run', onward, outcome⟩ := rest value middle later holds
  exact ⟨result, after, (except_bind_ok run).trans run', IsTrans.trans _ _ _ later onward, outcome⟩

theorem resolve_later {loader : LoaderId} {name : String} {before after : World} {unit : UnitType}
    (found : (resolve loader name before).1 = .ok unit) (later : before.Later after) :
    (resolve loader name).Succeeds after fun again => Meaning.ofUnit again = .ofUnit unit := by
  have leads := ((resolve_run (run_eta (resolve loader name) before)).2 _).mpr ⟨unit, found, rfl⟩
  obtain ⟨onward, gives⟩ := resolve_run (run_eta (resolve loader name) after)
  obtain ⟨again, here, same⟩ := (gives _).mp (later.meaning? leads)
  exact ⟨again, (resolve loader name after).2, Prod.ext here rfl, onward, same⟩

end Action

namespace Evaluation

open UnitForge.Action

variable {unit : UnitType} {nullable : Bool} {start world : World}

def Resolves (unit : UnitType) (names : List String) (world : World) : Prop :=
  ∀ name ∈ names, name ≠ unit.name → ∃ found, (resolve unit.resolver name world).1 = .ok found

theorem identity_succeeds {name : String} {given found : UnitType}
    (leads : (resolve unit.resolver name start).1 = .ok found) (later : start.Later world) :
    Succeeds (do
      try
        let expected ← resolve unit.resolver name
        return decide (expected.id = given.id)
      catch
        | .typeNotFound _ => return false
        | error => throw error) world fun _ => True := by
  obtain ⟨again, after, run, onward, -⟩ := resolve_later leads later
  refine ⟨decide (again.id = given.id), after, ?_, onward, trivial⟩
  simp only [bind, ExceptT.bind, ExceptT.mk, StateT.bind, tryCatch, tryCatchThe,
    MonadExceptOf.tryCatch, ExceptT.tryCatch, run]
  rfl

theorem accepts_succeeds {param : TypeRef} {arg : Value} (conforming : arg.isConforming = true)
    (resolves : Resolves unit param.unit?.toList start) (later : start.Later world) :
    (accepts unit nullable param arg).Succeeds world fun accepted =>
      accepted = true → arg.HasType FieldsConform param := by
  have byType (same : decide (arg.type? = some param) = true) :
      arg.HasType FieldsConform param :=
    hasType_of_type? (of_decide_eq_true same) conforming
  cases param with
  | unit name =>
      cases arg with
      | null => exact .pure fun _ => .null
      | object id given fields =>
          rw [accepts]
          by_cases same : given.name = name
          · subst same
            rw [if_neg (not_not_intro rfl)]
            by_cases own : given.name = unit.name
            · rw [if_pos own]
              exact .pure fun _ => .object conforming
            · rw [if_neg own]
              obtain ⟨found, leads⟩ := resolves given.name (List.mem_singleton_self _) own
              obtain ⟨accepted, after, run, onward, -⟩ := identity_succeeds leads later
              exact ⟨accepted, after, run, onward, fun _ => .object conforming⟩
          · rw [if_pos same]
            exact .pure nofun
      | _ => exact .pure byType
  | _ =>
      cases arg with
      | null => exact .pure fun accepted => by cases nullable <;> cases accepted
      | _ => exact .pure byType

theorem Resolves.mono {names others : List String} (resolves : Resolves unit names start)
    (included : others ⊆ names) : Resolves unit others start :=
  fun name member => resolves name (included member)

theorem acceptsAll_succeeds {params : List TypeRef} {args : List Value}
    (conforming : ∀ arg ∈ args, arg.isConforming = true)
    (resolves : Resolves unit (params.filterMap TypeRef.unit?) start) (later : start.Later world)
    (count : params.length = args.length) :
    (acceptsAll unit nullable params args).Succeeds world fun accepted =>
      accepted = true → List.Forall₂ (Value.HasType FieldsConform) args params := by
  induction params generalizing args world with
  | nil =>
      cases args with
      | nil => exact .pure fun _ => .nil
      | cons arg rest => cases count
  | cons param params ih =>
      cases args with
      | nil => cases count
      | cons arg args =>
          have first : Resolves unit param.unit?.toList start := resolves.mono fun name here =>
            List.mem_filterMap.mpr ⟨param, List.mem_cons_self, Option.mem_toList.mp here⟩
          rw [acceptsAll]
          apply (accepts_succeeds (conforming arg List.mem_cons_self) first later).bind
          intro accepted after onward typed
          cases accepted with
          | false => exact .pure nofun
          | true =>
              have rest : params.filterMap TypeRef.unit? ⊆
                  (param :: params).filterMap TypeRef.unit? :=
                ((List.sublist_cons_self param params).filterMap _).subset
              obtain ⟨all, last, run, more, others⟩ := ih
                (fun arg member => conforming arg (List.mem_cons_of_mem _ member))
                (resolves.mono rest) (IsTrans.trans _ _ _ later onward) (Nat.succ_inj.mp count)
              exact ⟨all, last, run, more, fun same => .cons (typed rfl) (others same)⟩

theorem admitsArguments_succeeds {ctor : ConstructorDecl} {args : List Value}
    (conforming : ∀ arg ∈ args, arg.isConforming = true)
    (resolves : Resolves unit (ctor.paramTypes.filterMap TypeRef.unit?) start)
    (later : start.Later world) :
    (admitsArguments unit nullable args ctor).Succeeds world fun accepted =>
      accepted = true → List.Forall₂ (Value.HasType FieldsConform) args ctor.paramTypes := by
  unfold admitsArguments
  by_cases count : ctor.params.length = args.length
  · rw [if_neg (not_not_intro count)]
    apply acceptsAll_succeeds conforming resolves later
    rw [ConstructorDecl.paramTypes, List.length_map, count]
  · rw [if_pos count]
    exact .pure fun same => absurd same Bool.false_ne_true

theorem filterM_succeeds {test : α → Action Bool} {Q : α → Prop} {items : List α}
    (tests : ∀ item ∈ items, ∀ world, start.Later world →
      (test item).Succeeds world fun admitted => admitted = true → Q item)
    (later : start.Later world) :
    (items.filterM test).Succeeds world fun kept => ∀ item ∈ kept, item ∈ items ∧ Q item := by
  have loop (rest kept : List α) {world : World} (later : start.Later world)
      (included : rest ⊆ items) (holds : ∀ item ∈ kept, item ∈ items ∧ Q item) :
      (List.filterAuxM test rest kept).Succeeds world fun kept =>
        ∀ item ∈ kept, item ∈ items ∧ Q item := by
    induction rest generalizing kept world with
    | nil => exact .pure holds
    | cons first rest ih =>
        rw [List.cons_subset] at included
        apply (tests first included.1 world later).bind
        intro admitted after onward typed
        apply ih _ (IsTrans.trans _ _ _ later onward) included.2
        intro item member
        cases admitted with
        | false => exact holds item member
        | true =>
            rcases List.mem_cons.mp member with rfl | earlier
            · exact ⟨included.1, typed rfl⟩
            · exact holds item earlier
  apply (loop items [] later (List.Subset.refl _) nofun).bind
  intro kept after _ holds
  refine .pure ?_
  exact fun item member => holds item (List.mem_reverse.mp member)

theorem candidates_succeeds {args : List Value}
    (conforming : ∀ arg ∈ args, arg.isConforming = true)
    (resolves : Resolves unit unit.image.references start) (later : start.Later world) :
    (candidates unit args).Succeeds world fun found => ∀ ctor ∈ found, ctor ∈ unit.constructors ∧
      List.Forall₂ (Value.HasType FieldsConform) args ctor.paramTypes := by
  refine filterM_succeeds ?_ later
  intro ctor member world later
  refine admitsArguments_succeeds conforming (resolves.mono ?_) later
  intro name here
  exact List.mem_flatMap.mpr ⟨ctor, member, List.mem_append_right _ here⟩

end Evaluation

end UnitForge
