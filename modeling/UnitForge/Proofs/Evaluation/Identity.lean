import UnitForge.Proofs.Evaluation.Mixing
import UnitForge.Proofs.Loading.Definitions
import UnitForge.Proofs.Loading.Retaining

/-! # Arguments by identity

An instance is taken for a parameter of a unit type just if its unit is the very one that the name
of the type stands for at the loader of the unit that is constructed, at that moment. Finding this
out may define units, but it does not change the answer to any later question of the same choice. -/
set_option autoImplicit false
namespace UnitForge

open Step

/-- An artifact that is no image of its name was come across when a name was resolved at a
loader. -/
def World.Spoils (before : World) (loader : LoaderId) (fault : Error) : Prop :=
  ∃ name why later, fault = .malformedArtifact name why ∧ before.Onward later ∧
    (Action.resolve loader name later).1 = .error fault

/-- A question whose answer is whether something holds, and on which no name is lost. It does not
hold if there is no answer, for which only a spoilt artifact can be the reason. -/
structure Action.Tells (loader : LoaderId) (step : Action Bool) (before : World) (holds : Prop) :
    Prop where
  onward : before.Onward (step before).2
  answer : ∀ value, (step before).1 = .ok value →
    (value = true ↔ holds) ∧ before.Retains (step before).2
  failure : ∀ fault, (step before).1 = .error fault → ¬holds ∧ before.Spoils loader fault

namespace Action

variable {loader : LoaderId} {step next : Action Bool} {before after : World} {holds : Prop}

theorem Tells.pure {value : Bool} (same : value = true ↔ holds) :
    Tells loader (Pure.pure value : Action Bool) before holds where
  onward := Std.Refl.refl before
  answer other given := by
    cases given
    exact ⟨same, Std.Refl.refl before⟩
  failure := nofun

theorem Tells.of_eq {outcome : Except Error Bool} (run : step before = (outcome, after))
    (onward : before.Onward after)
    (answer : ∀ value, outcome = .ok value → (value = true ↔ holds) ∧ before.Retains after)
    (failure : ∀ fault, outcome = .error fault → ¬holds ∧ before.Spoils loader fault) :
    Tells loader step before holds := by
  refine ⟨?_, ?_, ?_⟩ <;> rw [run] <;> assumption

theorem Tells.iff (tells : Tells loader step before holds) :
    (step before).1 = .ok true ↔ holds := by
  cases outcome : (step before).1 with
  | error fault =>
      have absent := (tells.failure fault outcome).1
      simp [absent]
  | ok value =>
      have same := (tells.answer value outcome).1
      rw [← same, Except.ok.injEq]

theorem Tells.and {other : Prop} (first : Tells loader step before holds)
    (rest : ∀ after, before.Onward after → before.Retains after →
      Tells loader next after other) :
    Tells loader (do if ← step then next else return false) before (holds ∧ other) := by
  rcases run : step before with ⟨fault | value, middle⟩
  · have failed := first.failure fault (congrArg Prod.fst run)
    refine .of_eq (except_bind_error run) (by simpa [run] using first.onward) nofun ?_
    intro fault same
    cases same
    exact ⟨fun both => failed.1 both.1, failed.2⟩
  · have onward : before.Onward middle := by simpa [run] using first.onward
    obtain ⟨same, retains⟩ := first.answer value (congrArg Prod.fst run)
    rw [run] at retains
    cases value with
    | false =>
        have stops : (do if ← step then next else return false : Action Bool) before =
            (.ok false, middle) := except_bind_ok run
        refine .of_eq stops onward ?_ nofun
        intro answer given
        cases given
        have absent : ¬holds := fun here => Bool.false_ne_true (same.mpr here)
        exact ⟨by simp [absent], retains⟩
    | true =>
        have asked := rest middle onward retains
        refine .of_eq ((except_bind_ok run).trans (run_eta next middle))
          (IsTrans.trans _ _ _ onward asked.onward) ?_ ?_
        · intro answer given
          obtain ⟨iff, further⟩ := asked.answer answer given
          exact ⟨iff.trans (by simp [same.mp rfl]), IsTrans.trans _ _ _ retains further⟩
        · intro fault failed
          obtain ⟨absent, name, why, later, reason, beyond, resolved⟩ := asked.failure fault failed
          exact ⟨fun both => absent both.2,
            name, why, later, reason, IsTrans.trans _ _ _ onward beyond, resolved⟩

theorem filterM_tells {α : Type} {test : α → Action Bool} {Q : α → Prop} [DecidablePred Q]
    {items : List α} {start : World}
    (tests : ∀ item, ∀ world, start.Onward world → start.Retains world →
      Tells loader (test item) world (Q item)) :
    (∀ found, (items.filterM test start).1 = .ok found → found = items.filter (Q ·)) ∧
      ∀ fault, (items.filterM test start).1 = .error fault → start.Spoils loader fault := by
  have loop (rest kept : List α) {world : World} (onward : start.Onward world)
      (retains : start.Retains world) :
      (∀ found, (List.filterAuxM test rest kept world).1 = .ok found →
        found = (rest.filter (Q ·)).reverse ++ kept) ∧
      ∀ fault, (List.filterAuxM test rest kept world).1 = .error fault →
        start.Spoils loader fault := by
    induction rest generalizing kept world with
    | nil =>
        refine ⟨?_, nofun⟩
        intro found same
        cases same
        rfl
    | cons first rest ih =>
        have told := tests first world onward retains
        rcases run : test first world with ⟨fault | value, middle⟩
        · have failed := told.failure fault (congrArg Prod.fst run)
          obtain ⟨-, name, why, later, reason, beyond, resolved⟩ := failed
          have stops : List.filterAuxM test (first :: rest) kept world = (.error fault, middle) :=
            except_bind_error run
          rw [stops]
          refine ⟨nofun, ?_⟩
          intro other same
          cases same
          exact ⟨name, why, later, reason, IsTrans.trans _ _ _ onward beyond, resolved⟩
        · have further : world.Onward middle := by simpa [run] using told.onward
          obtain ⟨same, keeps⟩ := told.answer value (congrArg Prod.fst run)
          rw [run] at keeps
          have goes : List.filterAuxM test (first :: rest) kept world =
              List.filterAuxM test rest (cond value (first :: kept) kept) middle :=
            except_bind_ok run
          rw [goes]
          obtain ⟨all, failed⟩ := ih (cond value (first :: kept) kept)
            (IsTrans.trans _ _ _ onward further) (IsTrans.trans _ _ _ retains keeps)
          refine ⟨?_, failed⟩
          intro found given
          rw [all found given]
          by_cases holds : Q first
          · simp [same.mpr holds, holds]
          · have no : value = false := by simpa [holds] using same
            simp [no, holds]
  obtain ⟨all, failed⟩ := loop items [] (Std.Refl.refl start) (Std.Refl.refl start)
  rcases run : List.filterAuxM test items [] start with ⟨fault | kept, last⟩
  · have stops : items.filterM test start = (.error fault, last) := except_bind_error run
    rw [stops]
    refine ⟨nofun, fun other same => failed other ?_⟩
    rw [run, same]
  · have gives : items.filterM test start = (.ok kept.reverse, last) := except_bind_ok run
    rw [gives]
    refine ⟨?_, nofun⟩
    intro found same
    cases same
    have whole := all kept (congrArg Prod.fst run)
    simp [whole]

end Action

namespace Evaluation

open UnitForge.Action Environment

/-- Whether a parameter is to take an argument: an instance if its unit is the very one that the
parameter's type stands for, null only where that is allowed, and other values by their types. -/
def Matches (world : World) (unit : UnitType) (nullable : Bool) : Value → TypeRef → Prop
  | .object _ given _, .unit name => (resolve unit.resolver name world).1 = .ok given
  | .null, param => nullable = true ∧ param.isPrimitive = false
  | arg, param => arg.type? = some param

variable {held : UnitType → Prop} {unit : UnitType} {nullable : Bool} {world after : World}

/-- The question whether an instance is one of the unit of a name. -/
theorem identity_run (loader : LoaderId) (name : String) (given : UnitType) (world : World) :
    (do
      try
        let expected ← resolve loader name
        return decide (expected.id = given.id)
      catch
        | .typeNotFound _ => return false
        | error => throw error : Action Bool) world =
      match resolve loader name world with
      | (.ok expected, after) => (.ok (decide (expected.id = given.id)), after)
      | (.error (.typeNotFound _), after) => (.ok false, after)
      | (.error fault, after) => (.error fault, after) := by
  rcases run : resolve loader name world with ⟨fault | expected, after⟩
  · simp only [bind, ExceptT.bind, ExceptT.mk, StateT.bind, tryCatch, tryCatchThe,
      MonadExceptOf.tryCatch, ExceptT.tryCatch, run]
    cases fault <;> rfl
  · simp only [bind, ExceptT.bind, ExceptT.mk, StateT.bind, tryCatch, tryCatchThe,
      MonadExceptOf.tryCatch, ExceptT.tryCatch, run]
    rfl

theorem identity_tells (sound : world.Sound held) {given : UnitType}
    (known : world.Knows held given) (loader : LoaderId) (name : String) :
    Tells loader (do
      try
        let expected ← resolve loader name
        return decide (expected.id = given.id)
      catch
        | .typeNotFound _ => return false
        | error => throw error) world ((resolve loader name world).1 = .ok given) := by
  have run := identity_run loader name given world
  rcases resolved : resolve loader name world with ⟨fault | expected, after⟩
  · obtain ⟨onward, -⟩ := resolve_onward resolved
    rw [resolved] at run
    rcases resolve_error resolved with ⟨rfl, -⟩ | ⟨why, -, -, -, rfl, -⟩
    · refine .of_eq run onward ?_ nofun
      intro value same
      cases same
      exact ⟨by simp, resolve_retains resolved nofun⟩
    · refine .of_eq run onward nofun ?_
      intro fault same
      cases same
      refine ⟨nofun, name, why, world, rfl, Std.Refl.refl world, ?_⟩
      rw [resolved]
  · obtain ⟨onward, stands⟩ := resolve_onward resolved
    rw [resolved] at run
    refine .of_eq run onward ?_ nofun
    intro value same
    cases same
    refine ⟨?_, resolve_retains resolved nofun⟩
    have has : after.Knows held expected := .inr (.of_standing (stands expected rfl))
    have distinct := (onward.sound held sound).distinct expected given has (onward.knows known)
    simp only [decide_eq_true_eq, Except.ok.injEq]
    exact ⟨distinct, fun same => congrArg UnitType.id same⟩

theorem accepts_tells (ready : Ready held unit world) {arg : Value}
    (known : Known held world arg) (param : TypeRef) :
    Tells unit.resolver (accepts unit nullable param arg) world
      (Matches world unit nullable arg param) := by
  cases param with
  | unit name =>
      cases arg with
      | null => exact .pure (by simp [Matches, TypeRef.isPrimitive])
      | object id given fields =>
          have knows : world.Knows held given := known given List.mem_cons_self
          have matches_iff : (resolve unit.resolver name world).1 = .ok given ↔
              world.standing? unit.resolver name = some given :=
            resolve_known_iff ready.sound knows
          rw [accepts]
          by_cases named : given.name = name
          · rw [if_neg (not_not_intro named)]
            by_cases itself : name = unit.name
            · rw [if_pos itself]
              refine .pure ?_
              have own : world.standing? unit.resolver name = some unit := itself ▸ ready.own
              rw [decide_eq_true_iff, Matches, matches_iff, own, Option.some.injEq]
              exact ⟨ready.sound.distinct unit given ready.knows knows,
                fun same => congrArg UnitType.id same⟩
            · rw [if_neg itself]
              exact identity_tells ready.sound knows unit.resolver name
          · rw [if_pos named]
            refine .pure ?_
            rw [Matches, matches_iff]
            have absent : world.standing? unit.resolver name ≠ some given :=
              fun stands => named (ready.sound.name_of_standing stands)
            simp [absent]
      | int | float | bool | str => exact .pure decide_eq_true_iff
  | int | float | bool | str =>
      cases arg with
      | null => exact .pure (by cases nullable <;> simp [Matches, TypeRef.isPrimitive])
      | _ => exact .pure decide_eq_true_iff

theorem matches_congr (ready : Ready held unit world) {arg : Value} (known : Known held world arg)
    (onward : world.Onward after) (retains : world.Retains after) (param : TypeRef) :
    Matches after unit nullable arg param ↔ Matches world unit nullable arg param := by
  cases arg with
  | object id given fields =>
      cases param with
      | unit name =>
          have knows : world.Knows held given := known given List.mem_cons_self
          rw [Matches, Matches, resolve_known_iff ready.sound knows,
            resolve_known_iff (onward.sound held ready.sound) (onward.knows knows)]
          exact ⟨onward.standing_before retains ready.sound knows, onward.standing?⟩
      | _ => exact Iff.rfl
  | _ => exact Iff.rfl

/-- Arguments that parameters are to take, one each. -/
abbrev MatchAll (world : World) (unit : UnitType) (nullable : Bool) (args : List Value)
    (params : List TypeRef) : Prop :=
  List.Forall₂ (Matches world unit nullable) args params

theorem matchAll_cons {arg : Value} {args : List Value} {param : TypeRef}
    {params : List TypeRef} :
    MatchAll world unit nullable (arg :: args) (param :: params) ↔
      Matches world unit nullable arg param ∧ MatchAll world unit nullable args params :=
  List.forall₂_cons

theorem matchAll_congr (ready : Ready held unit world) {args : List Value}
    (known : ∀ arg ∈ args, Known held world arg) (onward : world.Onward after)
    (retains : world.Retains after) (params : List TypeRef) :
    MatchAll after unit nullable args params ↔ MatchAll world unit nullable args params := by
  have congr (arg : Value) (member : arg ∈ args) (param : TypeRef) :
      Matches after unit nullable arg param ↔ Matches world unit nullable arg param :=
    matches_congr ready (known arg member) onward retains param
  constructor
  · intro all
    refine ((List.forall₂_and_left args params).mpr ⟨fun _ member => member, all⟩).imp ?_
    intro arg param ⟨member, fits⟩
    exact (congr arg member param).mp fits
  · intro all
    refine ((List.forall₂_and_left args params).mpr ⟨fun _ member => member, all⟩).imp ?_
    intro arg param ⟨member, fits⟩
    exact (congr arg member param).mpr fits

theorem acceptsAll_tells (ready : Ready held unit world) {args : List Value}
    (known : ∀ arg ∈ args, Known held world arg) {params : List TypeRef}
    (count : params.length = args.length) :
    Tells unit.resolver (acceptsAll unit nullable params args) world
      (MatchAll world unit nullable args params) := by
  induction params generalizing args world with
  | nil =>
      cases args with
      | nil => exact .pure (by simp)
      | cons arg args => cases count
  | cons param params ih =>
      cases args with
      | nil => cases count
      | cons arg args =>
          have others : ∀ arg ∈ args, Known held world arg :=
            fun arg member => known arg (List.mem_cons_of_mem _ member)
          rw [acceptsAll, matchAll_cons]
          refine .and (accepts_tells ready (known arg List.mem_cons_self) param) ?_
          intro after onward retains
          rw [← matchAll_congr ready others onward retains params]
          exact ih (ready.onward onward)
            (fun arg member => (others arg member).onward onward) (Nat.succ_inj.mp count)

theorem admitsArguments_tells (ready : Ready held unit world) {args : List Value}
    (known : ∀ arg ∈ args, Known held world arg) (ctor : ConstructorDecl) :
    Tells unit.resolver (admitsArguments unit nullable args ctor) world
      (MatchAll world unit nullable args ctor.paramTypes) := by
  unfold admitsArguments
  by_cases count : ctor.params.length = args.length
  · rw [if_neg (not_not_intro count)]
    apply acceptsAll_tells ready known
    rw [ConstructorDecl.paramTypes, List.length_map, count]
  · rw [if_pos count]
    refine .pure ?_
    have differs : ¬MatchAll world unit nullable args ctor.paramTypes := by
      intro all
      have same := all.length_eq
      rw [ConstructorDecl.paramTypes, List.length_map] at same
      exact count same.symm
    simp [differs]

open Classical in
noncomputable def takers (world : World) (unit : UnitType) (args : List Value) :
    List ConstructorDecl :=
  unit.constructors.filter fun ctor => decide (MatchAll world unit false args ctor.paramTypes)

theorem candidates_takers (ready : Ready held unit world) {args : List Value}
    (known : ∀ arg ∈ args, Known held world arg) :
    (∀ found, (candidates unit args world).1 = .ok found → found = takers world unit args) ∧
      ∀ fault, (candidates unit args world).1 = .error fault →
        world.Spoils unit.resolver fault := by
  classical
  apply filterM_tells
  intro ctor later onward retains
  rw [← matchAll_congr ready known onward retains ctor.paramTypes]
  exact admitsArguments_tells (ready.onward onward)
    (fun arg member => (known arg member).onward onward) ctor

theorem argumentTypes_of_takes {args : List Value} {params : List TypeRef}
    (takes : MatchAll world unit false args params) :
    argumentTypes args = .ok (args.filterMap Value.type?) := by
  have valued : args.findIdx? Value.isNull = none := by
    rw [List.findIdx?_eq_none_iff]
    intro arg member
    obtain ⟨param, -, fits⟩ := exists_of_forall₂ takes.flip arg member
    cases arg with
    | null =>
        obtain ⟨allowed, -⟩ := fits
        cases allowed
    | _ => rfl
  rw [argumentTypes, valued]

variable {args : List Value} {ctor : ConstructorDecl} {name : String}

theorem construct_taken (ready : Ready held unit world)
    (known : ∀ arg ∈ args, Known held world arg) (limit : Nat)
    (only : takers world unit args = [ctor]) :
    (∃ after, world.Onward after ∧
      construct limit unit args world = run limit unit ctor args after) ∨
    ∃ fault, (construct limit unit args world).1 = .error fault ∧
      world.Spoils unit.resolver fault := by
  obtain ⟨chosen, failed⟩ := candidates_takers ready known
  have taken : ctor ∈ takers world unit args := only ▸ List.mem_singleton_self ctor
  have takes : MatchAll world unit false args ctor.paramTypes := by
    simpa [takers] using (List.mem_filter.mp taken).2
  have types : (liftM (argumentTypes args) : Action (List TypeRef)) world =
      (.ok (args.filterMap Value.type?), world) := by
    rw [argumentTypes_of_takes takes]
    rfl
  rw [construct, except_bind_ok types]
  rcases asked : candidates unit args world with ⟨fault | found, after⟩
  · refine .inr ⟨fault, ?_, failed fault (congrArg Prod.fst asked)⟩
    rw [except_bind_error asked]
  · refine .inl ⟨after, ?_, ?_⟩
    · have leads : (candidates unit args).Leads world fun _ _ => True := candidates_leads args
      simpa [asked] using leads.1
    · have all := chosen found (congrArg Prod.fst asked)
      rw [except_bind_ok asked, all, only]

theorem construct_refused (ready : Ready held unit world)
    (known : ∀ arg ∈ args, Known held world arg) (limit : Nat)
    (several : ∀ ctor, takers world unit args ≠ [ctor]) :
    ∃ fault, (construct limit unit args world).1 = .error fault := by
  rcases types : (liftM (argumentTypes args) : Action (List TypeRef)) world with
    ⟨fault | found, middle⟩
  · exact ⟨fault, by rw [construct, except_bind_error types]⟩
  · have same : middle = world := by
      cases given : argumentTypes args <;> rw [given] at types <;> cases types
      rfl
    subst same
    rw [construct, except_bind_ok types]
    rcases asked : candidates unit args middle with ⟨fault | chosen, after⟩
    · exact ⟨fault, by rw [except_bind_error asked]⟩
    · have all := (candidates_takers ready known).1 chosen (congrArg Prod.fst asked)
      rw [except_bind_ok asked]
      rcases chosen with _ | ⟨ctor, _ | ⟨second, rest⟩⟩
      · exact ⟨_, rfl⟩
      · exact absurd all.symm (several ctor)
      · exact ⟨_, rfl⟩

theorem constructWith_taken (ready : Ready held unit world)
    (known : ∀ arg ∈ args, Known held world arg) (limit : Nat)
    (named : unit.image.constructor? name = some ctor)
    (takes : MatchAll world unit true args ctor.paramTypes) :
    ∃ after, world.Onward after ∧
      constructWith limit unit name args world = run limit unit ctor args after := by
  have tells : Tells unit.resolver (admitsArguments unit true args ctor) world
      (MatchAll world unit true args ctor.paramTypes) :=
    admitsArguments_tells ready known ctor
  rcases asked : admitsArguments unit true args ctor world with ⟨outcome, after⟩
  have onward : world.Onward after := by simpa [asked] using tells.onward
  have accepted : outcome = .ok true := by simpa [asked] using tells.iff.mpr takes
  refine ⟨after, onward, ?_⟩
  rw [accepted] at asked
  simp only [constructWith, named]
  exact except_bind_ok asked

theorem constructWith_refused (ready : Ready held unit world)
    (known : ∀ arg ∈ args, Known held world arg) (limit : Nat)
    (named : unit.image.constructor? name = some ctor)
    (differs : ¬MatchAll world unit true args ctor.paramTypes) :
    ∃ fault, (constructWith limit unit name args world).1 = .error fault ∧
      ((∃ call, fault = .noMatchingConstructor unit.name call) ∨
        world.Spoils unit.resolver fault) := by
  have tells : Tells unit.resolver (admitsArguments unit true args ctor) world
      (MatchAll world unit true args ctor.paramTypes) :=
    admitsArguments_tells ready known ctor
  simp only [constructWith, named]
  rcases asked : admitsArguments unit true args ctor world with ⟨fault | value, after⟩
  · have failed := (tells.failure fault (congrArg Prod.fst asked)).2
    exact ⟨fault, by rw [except_bind_error asked], .inr failed⟩
  · have refused : value = false := by
      rw [← Bool.not_eq_true]
      intro accepted
      exact differs (tells.iff.mp (accepted ▸ congrArg Prod.fst asked))
    subst refused
    exact ⟨_, congrArg Prod.fst (except_bind_ok asked), .inl ⟨_, rfl⟩⟩

theorem accepts_answers {id : Nat} {given found : UnitType} {fields : List Value}
    (leads : (resolve unit.resolver given.name world).1 = .ok found) :
    ∃ value,
      (accepts unit nullable (.unit given.name) (.object id given fields) world).1 = .ok value := by
  rw [accepts, if_neg (not_not_intro rfl)]
  by_cases itself : given.name = unit.name
  · rw [if_pos itself]
    exact ⟨_, rfl⟩
  · rw [if_neg itself]
    obtain ⟨value, after, run, -⟩ := identity_succeeds leads (Std.Refl.refl world)
    exact ⟨value, congrArg Prod.fst run⟩

end Evaluation

/-! ## The units of a loader -/

open Evaluation UnitForge.Action

/-- A value that a process can pass on: all units in it are alive. -/
def Holdings.Passable (now : Holdings) (value : Value) : Prop :=
  ∀ unit ∈ value.units, now.Live unit

/-- A unit whose loader answers from a table takes arguments by the identity of their units. What
has its name in the table is told apart by its loader alone; and if a spoilt artifact is come
across, it is one of another loader. -/
structure Holdings.TakesByIdentity (now : Holdings) (table : ArtifactTable) (unit : UnitType) :
    Prop where
  parameter : ∀ nullable name id given fields, now.Passable (.object id given fields) →
    ((accepts unit nullable (.unit name) (.object id given fields) now.workspace.world).1 =
        .ok true ↔
      (resolve unit.resolver name now.workspace.world).1 = .ok given)
  own : ∀ nullable id given fields, now.Passable (.object id given fields) →
    given.name ∈ table.names →
    (accepts unit nullable (.unit given.name) (.object id given fields) now.workspace.world).1 =
      .ok (decide (given.resolver = unit.resolver))
  chosen : ∀ limit args ctor, (∀ arg ∈ args, now.Passable arg) →
    takers now.workspace.world unit args = [ctor] →
    (∃ after, now.workspace.world.Onward after ∧
      construct limit unit args now.workspace.world =
        Evaluation.run limit unit ctor args after) ∨
    ∃ missing why, missing ∉ table.names ∧
      (construct limit unit args now.workspace.world).1 = .error (.malformedArtifact missing why)
  unchosen : ∀ limit args, (∀ arg ∈ args, now.Passable arg) →
    (∀ ctor, takers now.workspace.world unit args ≠ [ctor]) →
    ∃ fault, (construct limit unit args now.workspace.world).1 = .error fault
  named : ∀ limit name args ctor, (∀ arg ∈ args, now.Passable arg) →
    unit.image.constructor? name = some ctor →
    MatchAll now.workspace.world unit true args ctor.paramTypes →
    ∃ after, now.workspace.world.Onward after ∧
      constructWith limit unit name args now.workspace.world =
        Evaluation.run limit unit ctor args after
  refused : ∀ limit name args ctor, (∀ arg ∈ args, now.Passable arg) →
    unit.image.constructor? name = some ctor →
    ¬MatchAll now.workspace.world unit true args ctor.paramTypes →
    ∃ fault, (constructWith limit unit name args now.workspace.world).1 = .error fault ∧
      ((∃ call, fault = .noMatchingConstructor unit.name call) ∨
        ∃ missing why, missing ∉ table.names ∧ fault = .malformedArtifact missing why)

namespace Holdings

variable {now : Holdings} {loader : LoaderId} {table : ArtifactTable} {unit : UnitType}

theorem Sound.known (sound : now.Sound) {arg : Value} (passable : now.Passable arg) :
    Evaluation.Known now.Holds now.workspace.world arg :=
  fun unit member => sound.knows (passable unit member)

theorem DefinesOnce.not_mem_of_spoils (once : now.DefinesOnce loader table) {fault : Error}
    (spoils : now.workspace.world.Spoils loader fault) :
    ∃ missing why, missing ∉ table.names ∧ fault = .malformedArtifact missing why := by
  obtain ⟨missing, why, later, rfl, onward, failed⟩ := spoils
  refine ⟨missing, why, ?_, rfl⟩
  intro member
  obtain ⟨found, leads, -⟩ := once.image missing member
  obtain ⟨again, after, run, -⟩ := resolve_later leads onward.continues.later
  have gave := congrArg Prod.fst run
  rw [failed] at gave
  cases gave

theorem DefinesOnce.ready (once : now.DefinesOnce unit.resolver table) (sound : now.Sound)
    (live : now.Live unit) : Environment.Ready now.Holds unit now.workspace.world where
  sound := sound
  knows := sound.knows live
  own := by
    obtain ⟨-, resolved, -⟩ := once.kept unit live rfl
    exact (resolve_known_iff sound (sound.knows live)).mp (congrArg Prod.fst resolved)

theorem DefinesOnce.takesByIdentity (once : now.DefinesOnce unit.resolver table)
    (sound : now.Sound) (live : now.Live unit) : now.TakesByIdentity table unit := by
  have ready := once.ready sound live
  have known {args : List Value} (passable : ∀ arg ∈ args, now.Passable arg) :
      ∀ arg ∈ args, Evaluation.Known now.Holds now.workspace.world arg :=
    fun arg member => sound.known (passable arg member)
  have taken (nullable : Bool) (name : String) (id : Nat) (given : UnitType)
      (fields : List Value) (passable : now.Passable (.object id given fields)) :
      (accepts unit nullable (.unit name) (.object id given fields) now.workspace.world).1 =
          .ok true ↔
        (resolve unit.resolver name now.workspace.world).1 = .ok given :=
    (accepts_tells ready (sound.known passable) (.unit name)).iff
  constructor
  case parameter => exact taken
  case own =>
    intro nullable id given fields passable member
    obtain ⟨found, leads, resolver, -⟩ := once.image given.name member
    obtain ⟨value, answer⟩ : ∃ value, (accepts unit nullable (.unit given.name)
        (.object id given fields) now.workspace.world).1 = .ok value :=
      accepts_answers leads
    have same : value = true ↔ given.resolver = unit.resolver := by
      have iff := taken nullable given.name id given fields passable
      rw [answer, Except.ok.injEq] at iff
      rw [iff, leads, Except.ok.injEq]
      constructor
      · rintro rfl
        exact resolver
      · intro here
        have alive : now.Live given := passable given List.mem_cons_self
        have resolved := (once.kept given alive here).2.1
        exact Except.ok.inj (leads.symm.trans (congrArg Prod.fst resolved))
    rw [answer, Except.ok.injEq, Bool.eq_iff_iff, decide_eq_true_iff]
    exact same
  case chosen =>
    intro limit args ctor passable only
    rcases construct_taken ready (known passable) limit only with goes | ⟨fault, failed, spoils⟩
    · exact .inl goes
    · obtain ⟨missing, why, absent, rfl⟩ := once.not_mem_of_spoils spoils
      exact .inr ⟨missing, why, absent, failed⟩
  case unchosen =>
    intro limit args passable several
    exact construct_refused ready (known passable) limit several
  case named =>
    intro limit name args ctor passable named takes
    exact constructWith_taken ready (known passable) limit named takes
  case refused =>
    intro limit name args ctor passable named differs
    obtain ⟨fault, failed, reason⟩ :=
      constructWith_refused ready (known passable) limit named differs
    exact ⟨fault, failed, reason.imp_right once.not_mem_of_spoils⟩

end Holdings

/-- A live unit of a loader whose artifacts can all be read takes an instance for a parameter just
if the unit of the instance is the one that the loader gives for the name of the parameter's type,
whatever was done with the loader, its units and its parents before, and whatever else is asked in
the same choice of a constructor. -/
theorem takes_by_identity (tree : FileTree) (earlier later : List Event)
    {parent : LoaderId} {table : ArtifactTable} {unit : UnitType}
    (fresh : ((Holdings.start tree).run earlier).workspace.world.loaders[unit.resolver]? =
      some (.compiled parent table []))
    (decodable : table.Decodable)
    (live : ((Holdings.start tree).run (earlier ++ later)).Live unit) :
    ((Holdings.start tree).run (earlier ++ later)).TakesByIdentity table unit := by
  obtain ⟨before, -⟩ := (Holdings.sound_start tree).run earlier
  obtain ⟨sound, evolves⟩ := before.run later
  rw [← Holdings.run_append] at sound evolves
  have answers := World.answersFrom_of_evolves fresh decodable evolves
  exact (sound.definesOnce decodable answers).takesByIdentity sound live

def link : UnitImage where
  name := "demo.A"
  source := ""
  fields := [{ name := "next", type := .unit "demo.A" }]
  constructors :=
    [{ name := "new", params := [], locals := 0, body := [], init := [.null] },
      { name := "of", params := [{ name := "next", type := .unit "demo.A" }], locals := 1,
        body := [], init := [.slot 0] }]

/-- The unit is defined, dropped and defined anew, and defined by another loader, too. Each of the
two makes an instance. -/
def linking : List Event :=
  [.ask (.newLoader "host" (artifactOf link)) (some "sibling"),
    .ask (.resolve "loader" "demo.A") (some "unit"), .ask (.construct "unit" []) (some "mine"),
    .drop "unit", .drop "mine", .ask (.resolve "loader" "demo.A") (some "unit"),
    .ask (.construct "unit" []) (some "mine"), .ask (.resolve "sibling" "demo.A") (some "other"),
    .ask (.construct "other" []) (some "theirs"), .drop "other"]

def linked : Holdings :=
  (Holdings.start .empty).run (loading (artifactOf link) ++ linking)

theorem linked_handles : (linked.unit? "unit").map UnitType.resolver = some 2 ∧
    (linked.object? "mine").map (fun object => (object.unit.name, object.unit.resolver)) =
      some ("demo.A", 2) ∧
    (linked.object? "theirs").map (fun object => (object.unit.name, object.unit.resolver)) =
      some ("demo.A", 3) := by
  decide +kernel

theorem takes_by_identity_link : ∃ unit mine theirs,
    linked.unit? "unit" = some unit ∧ linked.object? "mine" = some mine ∧
      linked.object? "theirs" = some theirs ∧ linked.TakesByIdentity (artifactOf link) unit ∧
      (accepts unit false (.unit "demo.A") mine.toValue linked.workspace.world).1 = .ok true ∧
      (accepts unit false (.unit "demo.A") theirs.toValue linked.workspace.world).1 =
        .ok false := by
  obtain ⟨unit_eq, mine_eq, theirs_eq⟩ := linked_handles
  obtain ⟨unit, held, resolver⟩ := Option.map_eq_some_iff.mp unit_eq
  obtain ⟨mine, first, own⟩ := Option.map_eq_some_iff.mp mine_eq
  obtain ⟨theirs, second, foreign⟩ := Option.map_eq_some_iff.mp theirs_eq
  rw [Prod.mk.injEq] at own foreign
  have takes : linked.TakesByIdentity (artifactOf link) unit :=
    takes_by_identity .empty (loading (artifactOf link)) linking
      (resolver ▸ run_loading (artifactOf link)) (decodable_artifactOf (by decide))
      (.inl (Holdings.holds_of_unit? held))
  refine ⟨unit, mine, theirs, held, first, second, takes, ?_, ?_⟩
  · have told := takes.own false mine.id mine.unit mine.fields
      (fun unit member => .inl (Holdings.holds_of_object? first member)) (by rw [own.1]; decide)
    rw [own.1, own.2, resolver] at told
    exact told
  · have told := takes.own false theirs.id theirs.unit theirs.fields
      (fun unit member => .inl (Holdings.holds_of_object? second member))
      (by rw [foreign.1]; decide)
    rw [foreign.1, foreign.2, resolver] at told
    exact told

end UnitForge
