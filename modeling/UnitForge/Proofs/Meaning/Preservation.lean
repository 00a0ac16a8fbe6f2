import UnitForge.Proofs.Evaluation.Environment
import UnitForge.Proofs.Evaluation.Worlds
import UnitForge.Proofs.Meaning.Simulation

/-! # Lowering preserves meaning

Running the code of a constructor has the outcome that its source has, whatever it calls: an
instance with the same values in its fields, or the same error. -/
set_option autoImplicit false
namespace UnitForge

open Source Evaluation Step

namespace Direct

/-! ## Constructors -/

variable {setting : Setting} {refs : References} {source : UnitSource} {unit : UnitType}
  {call : Caller} {run : Runner}

theorem paramLocals_cons (first : ParamDecl) (rest : List ParamDecl) :
    paramLocals (first :: rest) = paramLocals rest ++ [(first.name, first.type)] := by
  simp [paramLocals]

theorem Holds.params {slots : List Value} {params : List ParamDecl} {args : List Value}
    {scope : Scope} {locals : Locals} (holds : Holds slots scope locals)
    (count : args.length = params.length)
    (given : ∀ index < args.length, slots[locals.length + index]? = args[index]?) :
    Holds slots (((params.map (·.name)).zip args).reverse ++ scope)
      (paramLocals params ++ locals) := by
  induction params generalizing args scope locals with
  | nil =>
      rw [List.length_nil] at count
      rw [List.length_eq_zero_iff.mp count]
      exact holds
  | cons first rest ih =>
      cases args with
      | nil => cases count
      | cons arg args =>
          rw [paramLocals_cons, List.map_cons, List.zip_cons_cons, List.reverse_cons,
            List.append_assoc, List.append_assoc]
          have here := given 0 (Nat.succ_pos _)
          refine ih (.cons holds here) (Nat.succ_inj.mp count) ?_
          intro index within
          have next := given (index + 1) (Nat.succ_lt_succ within)
          rw [List.getElem?_cons_succ] at next
          rw [List.singleton_append, List.length_cons, ← next, Nat.add_right_comm]
          rfl

theorem initialSlots_getElem? {ctor : ConstructorDecl} {args : List Value}
    (count : args.length = ctor.params.length) {index : Nat} (within : index < args.length) :
    (initialSlots ctor args)[index]? = args[index]? := by
  unfold initialSlots
  dsimp only
  rw [List.take_of_length_le (by omega), List.getElem?_append_left within]

theorem paramNames {params : List ParamSig} {decls : List ParamDecl}
    (same : Lower.paramDecls params = some decls) :
    params.map (·.name) = decls.map (·.name) := by
  apply map_eq_map_of_forall₂ (mapM_eq_some_iff.mp same)
  intro param _ decl given
  obtain ⟨type, -, rfl⟩ := Option.map_eq_some_iff.mp given
  rfl

theorem eval_defaultOf (frame : Frame) (type : TypeRef) :
    Evaluation.eval run frame (Lower.defaultOf type) = pure (defaultOf type) := by
  cases type <;> rfl

theorem evalAll_defaults (frame : Frame) {fields : List FieldSig} {init : List Expr}
    (defaults : List.Forall₂ (fun (field : FieldSig) code =>
      field.type.map Lower.defaultOf = some code) fields init) :
    Evaluation.evalAll run frame init =
      pure (fields.filterMap fun (field : FieldSig) => field.type.map defaultOf) := by
  induction defaults with
  | nil => rfl
  | cons first _ ih =>
      obtain ⟨type, known, rfl⟩ := Option.map_eq_some_iff.mp first
      rw [Evaluation.evalAll, eval_defaultOf, ih, List.filterMap_cons, known]
      simp

section Constructors
variable {limit levels : Nat} {sig : ConstructorSig} {ctor : ConstructorDecl} {args : List Value}
  (runs : (runWithin limit levels).Sound setting)
  (calls : CallsAgree setting call (runWithin limit levels))
  (unitOf : source.unitOf = refs.unitOf) (count : ctor.init.length = unit.fields.length)
  (typed : List.Forall₂ (Value.HasType setting.holds) args ctor.paramTypes)

include runs calls unitOf count typed in
theorem function_agrees {function : FunctionTree} (given : sig.function = some function)
    (numbered : ctor.Numbered) (elab_ : ElabFunction refs source.owner sig function ctor) :
    Agrees setting refs unit (construct source unit call sig args)
      (runWithin limit (levels + 1) unit ctor args) := by
  obtain ⟨tree, last, final, steps, init, locals⟩ := elab_.parts
  have params : (paramLocals ctor.params).length = ctor.params.length := by simp [paramLocals]
  have total := steps.length
  rw [params] at total
  have small : last.length < 2 ^ 32 := by
    rw [total]
    exact numbered
  have arity : args.length = ctor.params.length := by
    rw [typed.length_eq, ConstructorDecl.paramTypes, List.length_map]
  have enough : last.length ≤ (initialSlots ctor args).length := by
    have room := @length_initialSlots ctor args
    rwa [locals, toNat_slot small] at room
  have holds := @Holds.params (initialSlots ctor args) ctor.params args [] [] .nil arity
    fun index within => by
      rw [List.length_nil, Nat.zero_add]
      exact initialSlots_getElem? arity within
  rw [← paramNames elab_.params, List.append_nil, List.append_nil] at holds
  have slotsTyped : SlotsTyped setting.holds (paramLocals ctor.params).types
      (initialSlots ctor args) := by
    rw [types_paramLocals]
    exact slotsTyped_initial typed
  have source_eq : fields source unit call sig args =
      body source unit call ((sig.params.map (·.name)).zip args).reverse
        ((Lower.splitBody function.body).1 ++ [.expr tree false]) := by
    rw [← eq_append_of_splitBody final]
    unfold fields
    rw [given]
  intro world ready linked
  unfold construct
  rw [source_eq, runWithin_succ count, ← bind_assoc]
  exact except_bind_congr (body_agrees runs calls unitOf steps init small enough holds slotsTyped
    world ready linked)

include count typed in
theorem implicit_agrees (given : sig.function = none)
    (same : Lower.implicitConstructor source.owner = some ctor) :
    construct source unit call sig args = runWithin limit (levels + 1) unit ctor args := by
  obtain ⟨init, defaults, rfl⟩ := Option.map_eq_some_iff.mp same
  cases typed
  rw [runWithin_succ count, runBody, pure_bind,
    evalAll_defaults _ (mapM_eq_some_iff.mp defaults)]
  unfold construct fields
  rw [given]

end Constructors

end Direct

namespace Environment

open UnitForge.Action

variable {world : World} {env : Environment world}

def program (env : Environment world) : Direct.Program := fun meaning =>
  (env.origin? meaning).map fun origin =>
    { owner := origin.owner, unitOf := origin.references.unitOf }

theorem later_trans {world before after : World} (later : before.Later after)
    (ready : world.Later before) : world.Later after :=
  IsTrans.trans _ _ _ ready later

/-- Later worlds; nothing is asked of units, errors and fields. -/
def laterWorlds (world : World) : Setting where
  ready after := world.Later after
  callable _ := True
  admits _ := True
  holds _ _ := True
  stable := @later_trans world
  expected _ := trivial

theorem runWithin_laterWorlds (limit levels : Nat) :
    (runWithin limit levels).Sound (laterWorlds world) :=
  fun unit ctor args world _ _ _ _ =>
    (runWithin_settles limit levels unit ctor args world).imp fun _ same => ⟨same, trivial⟩

section Calls
variable {unit : UnitType} {origin : UnitCompiler.Origin} {call : Direct.Caller}
  {limit levels : Nat} (known : env.origin? (.ofUnit unit) = some origin)
  (calls : Direct.CallsAgree (laterWorlds world) call (runWithin limit levels))
include known calls

theorem construct_agrees {sig : ConstructorSig} {ctor : ConstructorDecl}
    (member : ctor ∈ unit.constructors)
    (elab_ : ElabConstructor origin.references origin.owner sig ctor) {args : List Value}
    (typed : List.Forall₂ (Value.HasType (laterWorlds world).holds) args ctor.paramTypes)
    {after : World} (later : world.Later after) :
    Direct.construct { owner := origin.owner, unitOf := origin.references.unitOf } unit call sig
      args after = runWithin limit (levels + 1) unit ctor args after := by
  have linked : Linked (laterWorlds world) origin.references.image? (.ofUnit unit) after :=
    (linked known trivial fun _ _ _ _ _ _ => trivial).later later
  obtain ⟨last, -, -, init⟩ := (wellTyped known ctor member).parts
  have count : ctor.init.length = unit.fields.length := init.length_eq
  cases elab_ with
  | implicit same => rw [Direct.implicit_agrees count typed rfl same]
  | function given elab_ =>
      exact Direct.function_agrees (runWithin_laterWorlds limit levels) calls rfl count typed given
        (env.numbered known ctor member) elab_ after later linked

end Calls

/-- Calls by name have the outcome of the code of that name, however many levels are left. -/
theorem callWithin_agrees (env : Environment world) (limit levels : Nat) :
    Direct.CallsAgree (laterWorlds world) (Direct.callWithin env.program limit levels)
      (runWithin limit levels) := by
  induction levels with
  | zero =>
      intro unit function ctor args after _ _ found _
      have named : ctor.name = function := by simpa using List.find?_some found
      rw [← named]
      rfl
  | succ levels ih =>
      intro unit function ctor args after later _ found typed
      rw [Direct.callWithin]
      dsimp only
      cases known : env.origin? (.ofUnit unit) with
      | none =>
          rw [program, known, found]
          rfl
      | some origin =>
          have elab_ := origin.elabUnit.constructors
          rw [env.image known] at elab_
          have matched := find?_of_forall₂ (p := (·.name = function)) (q := (·.name = function))
            elab_ fun sig ctor elab_ => by rw [elab_.name]
          rcases matched with ⟨-, none⟩ | ⟨sig, ctor', named, found', elab_⟩
          · cases none.symm.trans found
          · cases found'.symm.trans found
            rw [program, known]
            dsimp only [Option.map_some]
            rw [named]
            exact construct_agrees known ih (List.mem_of_find?_eq_some found) elab_ typed later

/-- Running the code of a constructor of a unit that was compiled without errors, in a world in
which the names in it lead to the images that the compiler saw. Whatever it is given for its
parameters, the outcome and the world that it leads to are those of running its source, in which
every constructor that is called is run by its source in turn, if that is known. -/
theorem run_eq_direct (env : Environment world) {unit : UnitType} {origin : UnitCompiler.Origin}
    (known : env.origin? (.ofUnit unit) = some origin) {sig : ConstructorSig}
    {ctor : ConstructorDecl} (pair : (sig, ctor) ∈ origin.owner.constructors.zip unit.constructors)
    {args : List Value}
    (typed : List.Forall₂ (Value.HasType fun _ _ => True) args ctor.paramTypes) (limit : Nat) :
    Evaluation.run limit unit ctor args world = Direct.run env.program limit
      { owner := origin.owner, unitOf := origin.references.unitOf } unit sig args world := by
  have elab_ := origin.elabUnit.constructors
  rw [env.image known] at elab_
  exact (construct_agrees known (callWithin_agrees env limit limit) (List.of_mem_zip pair).2
    ((List.forall₂_iff_zip.mp elab_).2 pair) typed (Std.Refl.refl world)).symm

/-- The constructor of the second of two structs, which calls one of the first: three is taken away
from the number that it is given. -/
theorem run_eq_direct_line : ∃ (env : Environment (hostWorld lineUnits)) (unit : UnitType)
    (origin : UnitCompiler.Origin) (sig : ConstructorSig) (ctor : ConstructorDecl),
    unit.name = "demo.L" ∧ env.origin? (.ofUnit unit) = some origin ∧
      (sig, ctor) ∈ origin.owner.constructors.zip unit.constructors ∧
      Evaluation.run maxConstructDepth unit ctor [.int 7] (hostWorld lineUnits) =
        Direct.run env.program maxConstructDepth
          { owner := origin.owner, unitOf := origin.references.unitOf } unit sig [.int 7]
          (hostWorld lineUnits) ∧
      ((Direct.run env.program maxConstructDepth
        { owner := origin.owner, unitOf := origin.references.unitOf } unit sig [.int 7]
        (hostWorld lineUnits)).1.map Instance.text).toOption =
          some "L \x7b p: P \x7b n: 4 \x7d \x7d" := by
  obtain ⟨env, -, inside⟩ := exists_lineEnvironment
  obtain ⟨-, names, -, params, -, text⟩ := line_facts
  obtain ⟨unit, member, named⟩ := List.mem_map.mp
    (names ▸ List.mem_cons_of_mem _ List.mem_cons_self : "demo.L" ∈ lineUnits.map UnitType.name)
  obtain ⟨origin, known⟩ := Option.isSome_iff_exists.mp (inside unit member)
  obtain ⟨ctor, single, types⟩ := List.map_eq_singleton_iff.mp (params unit member)
  have elab_ := origin.elabUnit.constructors
  rw [env.image known] at elab_
  change List.Forall₂ _ origin.owner.constructors unit.constructors at elab_
  obtain ⟨sig, -, pair, -⟩ :=
    exists_of_forall₂ (forall₂_and_zip elab_) ctor (single ▸ List.mem_singleton_self ctor)
  have typed : List.Forall₂ (Value.HasType fun _ _ => True) [.int 7] ctor.paramTypes := by
    rw [types]
    exact .cons .int .nil
  have own : ctor ∈ unit.constructors := by
    rw [single]
    exact List.mem_singleton_self ctor
  have same := run_eq_direct env known pair typed maxConstructDepth
  refine ⟨env, unit, origin, sig, ctor, named, known, pair, same, ?_⟩
  rw [← same]
  exact text unit member named ctor own

end Environment

end UnitForge
