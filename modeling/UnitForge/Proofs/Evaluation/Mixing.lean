import UnitForge.Proofs.Evaluation.Environment
import UnitForge.Proofs.Evaluation.Known
import UnitForge.Proofs.Loading.Release

/-! # Instances of the right units

A field of a unit type is to hold null or an instance of the very unit that the type's name stands
for where the names of the field's owner are looked up. Arguments from outside are compared by
identity, but those of a constructor that other code calls are known by the names of their types
only. The property holds as long as the loader that answers for the name of a parameter is the same
to the caller as to the unit that is called; a loader in between that has a unit of its own under
that name breaks it. -/
set_option autoImplicit false
namespace UnitForge

open Step

/-! ## Unmixed values -/

/-- Null, or an instance of the very unit that a name stands for at a loader. -/
def Value.IsOf (world : World) (loader : LoaderId) (name : String) : Value → Prop
  | .null => True
  | .object _ unit _ => Action.resolve loader name world = (.ok unit, world)
  | _ => False

mutual

/-- In each field of a unit type, all the way down, there is null or an instance of the very unit
that the type stands for to the owner of the field. -/
def Value.Unmixed (world : World) : Value → Prop
  | .object _ unit fields => Value.AllUnmixed world unit.resolver fields unit.fields
  | _ => True

def Value.AllUnmixed (world : World) (loader : LoaderId) : List Value → List FieldDecl → Prop
  | [], [] => True
  | value :: values, field :: fields =>
    (∀ name, field.type = .unit name → value.IsOf world loader name) ∧
      Value.Unmixed world value ∧ Value.AllUnmixed world loader values fields
  | _, _ => False

end

/-- A value that a field of some type can have, where the type is looked up at a loader. -/
structure Value.Belongs (world : World) (loader : LoaderId) (value : Value) (type : TypeRef) :
    Prop where
  isOf : ∀ name, type = .unit name → value.IsOf world loader name
  unmixed : value.Unmixed world

theorem allUnmixed_iff {world : World} {loader : LoaderId} {values : List Value}
    {fields : List FieldDecl} : Value.AllUnmixed world loader values fields ↔
      List.Forall₂ (fun value field => value.Belongs world loader field.type) values fields := by
  induction values generalizing fields with
  | nil =>
      cases fields with
      | nil => exact ⟨fun _ => .nil, fun _ => trivial⟩
      | cons field rest => exact ⟨nofun, nofun⟩
  | cons value values ih =>
      cases fields with
      | nil => exact ⟨nofun, nofun⟩
      | cons field rest =>
          rw [Value.AllUnmixed, List.forall₂_cons, ih]
          constructor
          · rintro ⟨isOf, unmixed, others⟩
            exact ⟨⟨isOf, unmixed⟩, others⟩
          · rintro ⟨⟨isOf, unmixed⟩, others⟩
            exact ⟨isOf, unmixed, others⟩

/-! ### Later worlds -/

/-- Names that stand for a unit go on to stand for it. -/
def World.Sustains (before after : World) (unit : UnitType) : Prop :=
  ∀ loader name, before.standing? loader name = some unit → after.standing? loader name = some unit

theorem World.Onward.sustains {before after : World} (onward : before.Onward after)
    (unit : UnitType) : before.Sustains after unit :=
  fun _ _ stands => onward.standing? stands

section Later
variable {before after : World}

theorem Value.IsOf.later {loader : LoaderId} {name : String} {value : Value}
    (isOf : value.IsOf before loader name)
    (sustains : ∀ unit ∈ value.units, before.Sustains after unit) :
    value.IsOf after loader name := by
  cases value with
  | object id unit fields =>
      have stands := sustains unit List.mem_cons_self loader name (Action.standing?_iff.mpr isOf)
      exact Action.standing?_iff.mp stands
  | _ => exact isOf

theorem Value.IsOf.congr {loader other : LoaderId} {name : String} {value : Value}
    (isOf : value.IsOf before loader name)
    (same : before.standing? loader name = before.standing? other name) :
    value.IsOf before other name := by
  cases value with
  | object id unit fields =>
      exact Action.standing?_iff.mp (same.symm.trans (Action.standing?_iff.mpr isOf))
  | _ => exact isOf

mutual

theorem Value.Unmixed.later {value : Value} (unmixed : value.Unmixed before)
    (sustains : ∀ unit ∈ value.units, before.Sustains after unit) : value.Unmixed after := by
  cases value with
  | object id unit fields =>
      rw [Value.Unmixed] at unmixed ⊢
      exact unmixed.later fun other member => sustains other (List.mem_cons_of_mem _ member)
  | _ => simp only [Value.Unmixed]

theorem Value.AllUnmixed.later {loader : LoaderId} {values : List Value} {fields : List FieldDecl}
    (unmixed : Value.AllUnmixed before loader values fields)
    (sustains : ∀ unit ∈ Value.unitsOfAll values, before.Sustains after unit) :
    Value.AllUnmixed after loader values fields := by
  cases values with
  | nil =>
      cases fields with
      | nil => trivial
      | cons field rest => cases unmixed
  | cons value values =>
      cases fields with
      | nil => cases unmixed
      | cons field rest =>
          rw [Value.AllUnmixed] at unmixed ⊢
          obtain ⟨isOf, first, others⟩ := unmixed
          have here : ∀ unit ∈ value.units, before.Sustains after unit :=
            fun unit member => sustains unit (List.mem_append_left _ member)
          exact ⟨fun name same => (isOf name same).later here, first.later here,
            others.later fun unit member => sustains unit (List.mem_append_right _ member)⟩

end

theorem Value.Belongs.onward {loader : LoaderId} {value : Value} {type : TypeRef}
    (belongs : value.Belongs before loader type) (onward : before.Onward after) :
    value.Belongs after loader type := by
  have sustains : ∀ unit ∈ value.units, before.Sustains after unit :=
    fun unit _ => onward.sustains unit
  refine ⟨?_, belongs.unmixed.later sustains⟩
  intro name same
  exact (belongs.isOf name same).later sustains

end Later

theorem Value.belongs_plain {world : World} {loader : LoaderId} {value : Value} {type : TypeRef}
    (plain : value.units = []) (primitive : type.isPrimitive = true) :
    value.Belongs world loader type := by
  refine ⟨?_, ?_⟩
  · rintro name rfl
    cases primitive
  · cases value with
    | object id unit fields => cases plain
    | _ => simp only [Value.Unmixed]

theorem Value.belongs_null {world : World} {loader : LoaderId} {type : TypeRef} :
    Value.null.Belongs world loader type :=
  ⟨fun _ _ => trivial, trivial⟩

/-! ## Loaders that agree -/

namespace World

variable {before after world : World} {name : String} {loader : LoaderId}

theorem meaningIn_owner {ids : List LoaderId} {meaning : Meaning}
    (leads : world.meaningIn name ids = some meaning) :
    ∃ owner found, world.ownerIn name ids = some owner ∧ world.loaders[owner]? = some found ∧
      found.answer? owner name = some (some meaning) := by
  induction ids with
  | nil => cases leads
  | cons id rest ih =>
      unfold meaningIn at leads
      unfold ownerIn
      cases here : world.loaders[id]? with
      | none =>
          simp only [here] at leads
          cases leads
      | some found =>
          simp only [here] at leads ⊢
          cases answer : found.answer? id name with
          | none =>
              simp only [answer] at leads
              rw [if_pos ((Loader.leaves_iff id).mpr answer)]
              exact ih leads
          | some given =>
              simp only [answer] at leads
              subst leads
              have kept : ¬found.leaves name = true := by
                rw [Loader.leaves_iff id, answer]
                exact Option.some_ne_none _
              rw [if_neg kept]
              exact ⟨id, found, rfl, here, answer⟩

theorem Continues.owner?_of_answer (continues : before.Continues after) {owner : LoaderId}
    {found : Loader} {meaning : Meaning} (owned : before.owner? loader name = some owner)
    (here : before.loaders[owner]? = some found)
    (answer : found.answer? owner name = some (some meaning)) :
    after.owner? loader name = some owner := by
  obtain ⟨next, there, step⟩ := continues.loaders owner found here
  apply continues.owner? owned there
  rw [← Bool.not_eq_true, Loader.leaves_iff owner, (step.retains name meaning).mp answer]
  exact nofun

/-- Where a name has the same owner, it stands for the same unit. -/
theorem standing?_congr {other : LoaderId}
    (same : world.owner? loader name = world.owner? other name) :
    world.standing? loader name = world.standing? other name := by
  unfold World.owner? at same
  unfold World.standing? standingIn
  rw [same]

/-- The units that hosts have are those that their names stand for. -/
def Steady (world : World) : Prop :=
  ∀ unit ∈ world.registered, world.standing? unit.resolver unit.name = some unit

theorem Continues.registered (continues : before.Continues after) {unit : UnitType} :
    unit ∈ after.registered ↔ unit ∈ before.registered := by
  rw [mem_registered, mem_registered]
  apply exists_congr
  intro id
  apply exists_congr
  intro units
  apply and_congr_left
  intro _
  refine ⟨?_, ?_⟩
  · intro there
    have inside := (List.getElem?_eq_some_iff.mp there).1
    rw [continues.count] at inside
    obtain ⟨next, found, step⟩ := continues.loaders id _ (List.getElem?_eq_getElem inside)
    cases there.symm.trans found
    exact (List.getElem?_eq_getElem inside).trans (congrArg some (step.host step.parent.symm).symm)
  · intro here
    obtain ⟨next, found, step⟩ := continues.loaders id _ here
    rwa [step.host rfl] at found

theorem Sound.own {held : UnitType → Prop} (sound : world.Sound held) (steady : world.Steady)
    {unit : UnitType} (has : world.Has unit) :
    world.standing? unit.resolver unit.name = some unit := by
  obtain ⟨id, found, name, here, live⟩ := has
  cases found with
  | compiled parent pending defined =>
      obtain ⟨definition, known, given⟩ := Option.bind_eq_some_iff.mp live
      have order := (sound.tidy id _ here name definition known).1
      obtain ⟨image, resolver⟩ := order.unit unit given
      have named : unit.name = name := (congrArg UnitImage.name image).trans order.named
      rw [named, resolver]
      exact World.standing?_of_live here live
  | host units => exact steady unit (mem_registered_of_lookup here live)

/-- A later world in order, in which hosts are as they were. -/
structure Follows (before after : World) : Prop where
  continues : before.Continues after
  sound : after.Sound fun _ => False
  steady : after.Steady

theorem Follows.onward {last : World} (follows : before.Follows after)
    (onward : after.Onward last) : before.Follows last where
  continues := IsTrans.trans _ _ _ follows.continues onward.continues
  sound := onward.sound _ follows.sound
  steady unit member :=
    onward.standing? (follows.steady unit (onward.continues.registered.mp member))

end World

def UnitImage.parameterUnits (image : UnitImage) : List String :=
  image.constructors.flatMap fun ctor => ctor.paramTypes.filterMap TypeRef.unit?

namespace Environment

open Evaluation UnitForge.Action

variable {world : World} (env : Environment world)

/-- Whenever code of a known unit refers to another unit, the loader that answers for the name of a
parameter's type is the same to both. -/
def Agreeing : Prop :=
  ∀ {caller origin}, env.origin? caller = some origin →
    ∀ name ∈ caller.image.references, name ≠ caller.image.name →
      ∀ callee, (resolve caller.resolver name world).1 = .ok callee →
        ∀ other ∈ callee.image.parameterUnits,
          world.owner? caller.resolver other = world.owner? callee.resolver other

/-- A known unit that its own name stands for, in a later world. -/
structure Settled (unit : UnitType) (after : World) : Prop where
  follows : world.Follows after
  known : (env.origin? (.ofUnit unit)).isSome = true
  own : after.standing? unit.resolver unit.name = some unit

variable {env} {unit : UnitType} {after : World}

theorem Settled.onward {last : World} (settled : env.Settled unit after)
    (onward : after.Onward last) : env.Settled unit last :=
  ⟨settled.follows.onward onward, settled.known, onward.standing? settled.own⟩

section Settled
variable (closed : env.Closed) (agreeing : env.Agreeing)

/-- The unit that code refers to by a name: it is settled, and the names of the types of its
parameters stand for the same units to it as to the code. -/
structure Reached (env : Environment world) (unit : UnitType) (name : String) (seen : UnitImage)
    (after : World) (target : UnitType) : Prop where
  image : target.image = seen
  settled : env.Settled target after
  stands : after.standing? unit.resolver name = some target
  agrees : ∀ other ∈ seen.parameterUnits, ∀ last, after.Onward last →
    last.standing? unit.resolver other = last.standing? target.resolver other

theorem parameterUnits_subset (image : UnitImage) : image.parameterUnits ⊆ image.references := by
  intro name member
  obtain ⟨ctor, inside, here⟩ := List.mem_flatMap.mp member
  exact List.mem_flatMap.mpr ⟨ctor, inside, List.mem_append_right _ here⟩

include agreeing in
theorem standing_agrees {origin : UnitCompiler.Origin}
    (known : env.origin? (.ofUnit unit) = some origin) {name : String}
    (referenced : name ∈ unit.image.references) (notOwn : name ≠ unit.name)
    {first target : UnitType} (found : (resolve unit.resolver name world).1 = .ok first)
    (means : Meaning.ofUnit target = .ofUnit first)
    (callable : (env.origin? (.ofUnit target)).isSome = true) {other : String}
    (member : other ∈ target.image.parameterUnits) (foreign : other ≠ target.name)
    (later : world.Continues after) :
    after.standing? unit.resolver other = after.standing? target.resolver other := by
  obtain ⟨image, resolver⟩ := Meaning.mk.inj means
  obtain ⟨origin', known'⟩ := Option.isSome_iff_exists.mp callable
  have inside : other ∈ target.image.references := parameterUnits_subset target.image member
  obtain ⟨leads, gives, -⟩ := env.resolves known' other inside foreign
  have meant := ((resolve_run (run_eta (resolve target.resolver other) world)).2 _).mpr
    ⟨leads, gives, rfl⟩
  obtain ⟨owner, loader, owned, here, answer⟩ := World.meaningIn_owner meant
  have owned : world.owner? target.resolver other = some owner := owned
  rw [image] at member
  have agreed : world.owner? unit.resolver other = some owner := by
    rw [← owned, resolver]
    exact agreeing known name referenced notOwn first found other member
  -- The owner in the first world answers for the name, and so it stays the owner.
  exact World.standing?_congr
    ((later.owner?_of_answer agreed here answer).trans
      (later.owner?_of_answer owned here answer).symm)

include closed agreeing in
theorem unitFor_reached (settled : env.Settled unit after) {origin : UnitCompiler.Origin}
    (known : env.origin? (.ofUnit unit) = some origin) {name : String} {image : UnitImage}
    (seen : origin.references.image? name = some image) :
    (unitFor unit name).Leads after (Reached env unit name image) := by
  have linked : Linked env.typing origin.references.image? (.ofUnit unit) after :=
    (Environment.linked known settled.known (closed known)).later settled.follows.continues.later
  have named := linked.named name image seen
  have ensures := unitFor_ensures linked seen
  unfold unitFor at ensures ⊢
  by_cases own : name = unit.name
  · subst own
    rw [if_pos rfl] at ensures ⊢
    exact .pure ⟨ensures.2.1, settled, settled.own, fun _ _ _ _ => rfl⟩
  · rw [if_neg own] at ensures ⊢
    rcases resolved : resolve unit.resolver name after with ⟨answer, last⟩
    obtain ⟨onward, stands⟩ := resolve_onward resolved
    refine .of_eq resolved onward ?_
    intro target same
    subst same
    obtain ⟨imageSame, callable⟩ := (ensures.of_run resolved).2
    have stands := stands target rfl
    have follows := settled.follows.onward onward
    have settledTarget : env.Settled target last :=
      ⟨follows, callable, follows.sound.own follows.steady (.of_standing stands)⟩
    refine ⟨imageSame, settledTarget, stands, ?_⟩
    intro other member final further
    by_cases itself : other = name
    · -- The unit's own name stands for it on both sides.
      have targetNamed : target.name = name := by
        rw [← named, ← imageSame]
        rfl
      have there := further.standing? settledTarget.own
      rw [targetNamed] at there
      rw [itself, there]
      exact further.standing? stands
    · have referenced : name ∈ unit.image.references := by
        have inside := (References.restrict_iff.mp seen).1
        rwa [env.image known] at inside
      obtain ⟨first, found, -⟩ := env.resolves known name referenced own
      obtain ⟨again, gone, run, -, means⟩ := resolve_later found settled.follows.continues.later
      cases resolved.symm.trans run
      rw [← imageSame] at member
      have notOwn : other ≠ target.name := by
        intro same
        exact itself (same.trans ((congrArg UnitImage.name imageSame).trans named))
      exact standing_agrees agreeing known referenced own found means callable member notOwn
        (follows.onward further).continues

/-! ## Running well-typed code -/

def SlotsBelong (after : World) (loader : LoaderId) (types : List TypeRef) (slots : List Value) :
    Prop :=
  ∀ (index : Nat) (type : TypeRef) (value : Value), types[index]? = some type →
    slots[index]? = some value → value.Belongs after loader type

theorem SlotsBelong.onward {last : World} {loader : LoaderId} {types : List TypeRef}
    {slots : List Value} (belong : SlotsBelong after loader types slots)
    (later : after.Onward last) : SlotsBelong last loader types slots :=
  fun index type value known here => (belong index type value known here).onward later

def Unmixes (env : Environment world) (run : Runner) : Prop :=
  ∀ (unit : UnitType) (ctor : ConstructorDecl) (args : List Value) (after : World),
    env.Settled unit after → ctor ∈ unit.constructors →
    List.Forall₂ (fun arg type => arg.Belongs after unit.resolver type) args ctor.paramTypes →
    (run unit ctor args).Leads after fun last object =>
      object.unit = unit ∧ Value.AllUnmixed last unit.resolver object.fields unit.fields

def CodeBelongs (env : Environment world) (run : Runner) (unit : UnitType) (types : List TypeRef)
    (slots : List Value) (code : Expr) (type : TypeRef) : Prop :=
  ∀ after, env.Settled unit after → SlotsBelong after unit.resolver types slots →
    (eval run { unit, slots } code).Leads after fun last value =>
      value.Belongs last unit.resolver type

variable {run : Runner} {types : List TypeRef} {slots : List Value}

theorem lift_belongs {outcome : Outcome} {loader : LoaderId} {type : TypeRef}
    (plain : outcome.Plain) (primitive : type.isPrimitive = true) :
    (lift outcome).Leads after fun last value => value.Belongs last loader type := by
  cases outcome with
  | ok value => exact .pure (Value.belongs_plain (plain value rfl) primitive)
  | error fault => exact .throw

theorem operand_belongs {code : Expr} {operandType type : TypeRef} {next : Value → Outcome}
    (operand : CodeBelongs env run unit types slots code operandType)
    (plain : ∀ value, (next value).Plain) (primitive : type.isPrimitive = true)
    (settled : env.Settled unit after) (belong : SlotsBelong after unit.resolver types slots) :
    (do lift (next (← eval run { unit, slots } code)) : Action Value).Leads after
      fun last value => value.Belongs last unit.resolver type :=
  .bind (operand after settled belong) fun _ _ _ _ => lift_belongs (plain _) primitive

theorem primitive_of_numeric {type : TypeRef} (numeric : Lower.isNumeric type = true) :
    type.isPrimitive = true := by
  rcases numeric_iff.mp numeric with rfl | rfl
  · rfl
  · rfl

theorem primitive_of_castsTo {type target : TypeRef} (casts : type.castsTo target = true) :
    target.isPrimitive = true := by
  cases type with
  | int | float => exact primitive_of_numeric casts
  | bool =>
      cases of_decide_eq_true casts
      rfl
  | _ => cases casts

theorem binary_belongs {op : BinaryOp} {left right : Expr} {l r type : TypeRef}
    (notLogical : op.isLogical = false) (first : CodeBelongs env run unit types slots left l)
    (second : CodeBelongs env run unit types slots right r) (primitive : type.isPrimitive = true) :
    CodeBelongs env run unit types slots (.binary op left right) type := by
  intro after settled belong
  rw [eval_binary notLogical]
  apply (first after settled belong).bind
  intro a middle onward _
  exact operand_belongs second (plain_binary op a) primitive (settled.onward onward)
    (belong.onward onward)

theorem logical_belongs {op : BinaryOp} {left right : Expr} (isLogical : op.isLogical = true)
    (first : CodeBelongs env run unit types slots left .bool)
    (second : CodeBelongs env run unit types slots right .bool) :
    CodeBelongs env run unit types slots (.binary op left right) .bool := by
  intro after settled belong
  cases op with
  | and | or =>
      rw [eval]
      apply (first after settled belong).bind
      intro a middle onward _
      split
      · exact .pure (Value.belongs_plain rfl rfl)
      · exact second middle (settled.onward onward) (belong.onward onward)
      · exact .throw
  | _ => cases isLogical

theorem evalAll_belongs {codes : List Expr} {wanted : List TypeRef}
    (each : List.Forall₂ (CodeBelongs env run unit types slots) codes wanted)
    (settled : env.Settled unit after) (belong : SlotsBelong after unit.resolver types slots) :
    (evalAll run { unit, slots } codes).Leads after fun last values =>
      List.Forall₂ (fun value type => value.Belongs last unit.resolver type) values wanted := by
  induction each generalizing after with
  | nil => exact .pure .nil
  | cons first _ ih =>
      rw [evalAll]
      apply (first after settled belong).bind
      intro value middle onward given
      apply (ih (settled.onward onward) (belong.onward onward)).bind
      intro values last further all
      refine .pure ?_
      exact .cons (given.onward further) all

section Code
variable (runs : env.Unmixes run) {origin : UnitCompiler.Origin}
  (known : env.origin? (.ofUnit unit) = some origin)
include closed agreeing runs known

theorem construct_belongs {name function : String} {image : UnitImage} {ctor : ConstructorDecl}
    {args : List (Expr × TypeRef)} (seen : origin.references.image? name = some image)
    (found : image.constructor? function = some ctor)
    (params : ctor.paramTypes = args.map Prod.snd)
    (each : ∀ arg ∈ args, CodeBelongs env run unit types slots arg.1 arg.2) :
    CodeBelongs env run unit types slots (.construct name function (args.map Prod.fst))
      (.unit name) := by
  intro after settled belong
  have count : ctor.params.length = (args.map Prod.fst).length := by
    have same := congrArg List.length params
    unfold ConstructorDecl.paramTypes at same
    rw [List.length_map, List.length_map] at same
    rwa [List.length_map]
  have all : List.Forall₂ (CodeBelongs env run unit types slots)
      (args.map Prod.fst) (args.map Prod.snd) := by
    rw [List.forall₂_map_left_iff, List.forall₂_map_right_iff, List.forall₂_same]
    exact each
  rw [eval]
  apply (unitFor_reached closed agreeing settled known seen).bind
  intro target middle onward reached
  rw [← reached.image] at found
  have member : ctor ∈ target.constructors := List.mem_of_find?_eq_some found
  refine .bind_ok (callee_run found count middle) ?_
  apply (evalAll_belongs all (settled.onward onward) (belong.onward onward)).bind
  intro values last further given
  -- What belongs to the parameters where the code is, belongs to them where the callee is.
  have given : List.Forall₂ (fun arg type => arg.Belongs last target.resolver type) values
      ctor.paramTypes := by
    rw [← params] at given
    apply (forall₂_and_zip given).imp
    rintro arg type ⟨inside, belongs⟩
    refine ⟨?_, belongs.unmixed⟩
    intro other same
    subst same
    have named : other ∈ image.parameterUnits := by
      rw [← reached.image]
      exact List.mem_flatMap.mpr ⟨ctor, member,
        List.mem_filterMap.mpr ⟨.unit other, (List.of_mem_zip inside).2, rfl⟩⟩
    exact (belongs.isOf other rfl).congr (reached.agrees other named last further)
  apply (runs target ctor values last (reached.settled.onward further) member given).bind
  intro object final onward made
  refine .pure ?_
  obtain ⟨owner, unmixed⟩ := made
  refine ⟨?_, ?_⟩
  · intro other same
    cases same
    have stands := onward.standing? (further.standing? reached.stands)
    rw [← owner] at stands
    exact standing?_iff.mp stands
  · rw [Instance.toValue, Value.Unmixed, owner]
    exact unmixed

theorem code_belongs {code : Expr} {type : TypeRef}
    (typed : Typed origin.references.image? types code type) :
    CodeBelongs env run unit types slots code type := by
  induction typed with
  | null => exact fun _ _ _ => .pure Value.belongs_null
  | int | float | bool | str => exact fun _ _ _ => .pure (Value.belongs_plain rfl rfl)
  | @slot index type typeKnown =>
      intro after settled belong
      rw [eval]
      cases here : slots[index.toNat]? with
      | none => exact .throw
      | some value => exact .pure (belong index.toNat type value typeKnown here)
  | neg numeric _ ih =>
      intro after settled belong
      rw [eval]
      exact operand_belongs ih (plain_unary .neg) (primitive_of_numeric numeric) settled belong
  | not admitted _ ih =>
      intro after settled belong
      rw [eval]
      refine operand_belongs ih (plain_unary .not) ?_ settled belong
      rcases admitted with rfl | rfl
      · rfl
      · rfl
  | logical isLogical _ _ left right => exact logical_belongs isLogical left right
  | comparison isComparison _ _ _ left right =>
      exact binary_belongs (isLogical_of_comparison isComparison) left right rfl
  | concat _ _ left right => exact binary_belongs rfl left right rfl
  | arithmetic isArithmetic numeric _ _ left right =>
      exact binary_belongs (isLogical_of_arithmetic isArithmetic) left right
        (primitive_of_numeric numeric)
  | @cast code type target casts _ ih =>
      intro after settled belong
      rw [eval]
      exact operand_belongs ih (fun value => plain_cast value target) (primitive_of_castsTo casts)
        settled belong
  | toText _ _ ih =>
      intro after settled belong
      rw [eval]
      exact operand_belongs ih plain_toText rfl settled belong
  | length _ ih =>
      intro after settled belong
      rw [eval]
      exact operand_belongs ih plain_length rfl settled belong
  | construct seen found params _ ih =>
      exact construct_belongs closed agreeing runs known seen found params ih

end Code

theorem belong_set {loader : LoaderId} {value : Value} {type : TypeRef}
    (belong : SlotsBelong after loader types slots) (given : value.Belongs after loader type) :
    SlotsBelong after loader (types ++ [type]) (slots.set types.length value) := by
  intro index wanted found known here
  by_cases last : types.length = index
  · subst last
    rw [List.getElem?_concat_length] at known
    cases known
    have inside := (List.getElem?_eq_some_iff.mp here).1
    rw [List.length_set] at inside
    rw [List.getElem?_set_self inside] at here
    cases here
    exact given
  · rw [List.getElem?_set_ne last] at here
    have earlier : index < types.length := by
      have := (List.getElem?_eq_some_iff.mp known).1
      rw [List.length_append, List.length_singleton] at this
      omega
    rw [List.getElem?_append_left earlier] at known
    exact belong index wanted found known here

theorem belong_initial {ctor : ConstructorDecl} {args : List Value} {loader : LoaderId}
    (given : List.Forall₂ (fun arg type => arg.Belongs after loader type) args ctor.paramTypes) :
    SlotsBelong after loader ctor.paramTypes (initialSlots ctor args) := by
  have count : args.length = ctor.params.length := by
    rw [given.length_eq, ConstructorDecl.paramTypes, List.length_map]
  intro index type value known here
  obtain ⟨within, rfl⟩ := List.getElem?_eq_some_iff.mp known
  rw [← given.length_eq] at within
  unfold initialSlots at here
  dsimp only at here
  rw [List.take_of_length_le (by omega), List.getElem?_append_left within,
    List.getElem?_eq_getElem within] at here
  cases here
  exact given.get within _

section Bodies
variable (runs : env.Unmixes run) {origin : UnitCompiler.Origin}
  (known : env.origin? (.ofUnit unit) = some origin)
include closed agreeing runs known

theorem runBody_belongs {last : List TypeRef} {body : List Stmt}
    (typed : BodyTyped origin.references.image? types body last) (settled : env.Settled unit after)
    (belong : SlotsBelong after unit.resolver types slots) :
    (runBody run unit body slots).Leads after fun final slots =>
      SlotsBelong final unit.resolver last slots := by
  induction typed generalizing after slots with
  | nil => exact .pure belong
  | @cons types last step body type here value rest ih =>
      rw [runBody]
      apply (code_belongs closed agreeing runs known value after settled belong).bind
      intro found middle onward given
      split
      · rw [here]
        exact ih (settled.onward onward) (belong_set (belong.onward onward) given)
      · exact .throw

end Bodies

include closed agreeing in
theorem runWithin_unmixes (limit levels : Nat) : env.Unmixes (runWithin limit levels) := by
  induction levels with
  | zero => exact fun _ _ _ _ _ _ _ => .throw
  | succ levels ih =>
      intro unit ctor args after settled member given
      obtain ⟨origin, known⟩ := Option.isSome_iff_exists.mp settled.known
      obtain ⟨last, body, -, init⟩ := (wellTyped known ctor member).parts
      rw [runWithin_succ init.length_eq]
      apply (runBody_belongs closed agreeing ih known body settled (belong_initial given)).bind
      intro slots middle onward filled
      have codes : List.Forall₂ (CodeBelongs env (runWithin limit levels) unit last slots)
          ctor.init (unit.fields.map (·.type)) := by
        rw [List.forall₂_map_right_iff]
        exact init.imp fun _ _ code => code_belongs closed agreeing ih known code
      apply (evalAll_belongs codes (settled.onward onward) filled).bind
      intro fields final further all
      rw [List.forall₂_map_right_iff] at all
      refine .of_eq rfl (World.onward_of_same rfl rfl) ?_
      intro object same
      cases same
      have same : final.Onward { final with nextInstance := final.nextInstance + 1 } :=
        World.onward_of_same rfl rfl
      exact ⟨rfl, (allUnmixed_iff.mpr all).later fun unit _ => same.sustains unit⟩

/-! ## Choosing constructors -/

theorem identity_leads {loader : LoaderId} {name : String} {given : UnitType} :
    Leads (do
      try
        let expected ← resolve loader name
        return decide (expected.id = given.id)
      catch
        | .typeNotFound _ => return false
        | error => throw error) after fun last accepted => accepted = true →
          ∃ expected, last.standing? loader name = some expected ∧ expected.id = given.id := by
  refine .bind (Q := fun last early => early = .error true ∨ early = .ok true →
    ∃ expected, last.standing? loader name = some expected ∧ expected.id = given.id)
    (.tryCatch ?_ fun fault last _ => ?_) ?_
  · apply (resolve_leads loader name).bind
    intro expected last _ stands
    refine .pure ?_
    intro same
    rcases same with same | same
    · exact ⟨expected, stands, of_decide_eq_true (Except.error.inj same)⟩
    · cases same
  · cases fault with
    | typeNotFound name => exact .pure nofun
    | _ => exact .throw
  · intro early last _ stands
    cases early with
    | error accepted => exact .pure fun same => stands (.inl (congrArg _ same))
    | ok accepted => exact .pure fun same => stands (.inr (congrArg _ same))

/-- A unit that is known, in a world in order, and that its own name stands for. -/
structure Ready (held : UnitType → Prop) (unit : UnitType) (after : World) : Prop where
  sound : after.Sound held
  knows : after.Knows held unit
  own : after.standing? unit.resolver unit.name = some unit

structure Given (held : UnitType → Prop) (after : World) (arg : Value) : Prop where
  known : Known held after arg
  unmixed : arg.Unmixed after

section Arguments
variable {held : UnitType → Prop} {nullable : Bool} {args : List Value}

theorem Ready.onward {last : World} (ready : Ready held unit after) (onward : after.Onward last) :
    Ready held unit last :=
  ⟨onward.sound held ready.sound, onward.knows ready.knows, onward.standing? ready.own⟩

theorem Given.onward {last : World} {arg : Value} (given : Given held after arg)
    (onward : after.Onward last) : Given held last arg :=
  ⟨given.known.onward onward, given.unmixed.later fun unit _ => onward.sustains unit⟩

theorem accepts_belongs (ready : Ready held unit after) {param : TypeRef} {arg : Value}
    (given : Given held after arg) :
    (accepts unit nullable param arg).Leads after fun last accepted =>
      accepted = true → arg.Belongs last unit.resolver param := by
  cases param with
  | unit name =>
      cases arg with
      | null => exact .pure fun _ => Value.belongs_null
      | object id found fields =>
          have known : after.Knows held found := given.known found List.mem_cons_self
          have belongs {last : World} (onward : after.Onward last)
              (stands : last.standing? unit.resolver name = some found) :
              (Value.object id found fields).Belongs last unit.resolver (.unit name) := by
            refine ⟨?_, (given.onward onward).unmixed⟩
            intro other same
            cases same
            exact standing?_iff.mp stands
          -- Units that are known in one world are told apart by their numbers.
          have identity {last : World} (onward : after.Onward last) {other : UnitType}
              (knows : last.Knows held other) (same : other.id = found.id) : other = found :=
            (ready.onward onward).sound.distinct other found knows (onward.knows known) same
          rw [accepts]
          by_cases named : found.name = name
          · rw [if_neg (not_not_intro named)]
            by_cases itself : name = unit.name
            · rw [if_pos itself]
              refine .pure ?_
              intro same
              apply belongs (Std.Refl.refl _)
              rw [itself, ← identity (Std.Refl.refl _) ready.knows (of_decide_eq_true same)]
              exact ready.own
            · rw [if_neg itself]
              apply identity_leads.imp
              intro last accepted onward stands same
              obtain ⟨expected, here, same⟩ := stands same
              cases identity onward (.inr (.of_standing here)) same
              exact belongs onward here
          · rw [if_pos named]
            exact .pure fun same => absurd same Bool.false_ne_true
      | int | float | bool | str =>
          refine .pure ?_
          intro same
          cases of_decide_eq_true same
  | int | float | bool | str =>
      apply (accepts_leads _ arg).imp
      intro last accepted onward _ _
      refine ⟨?_, (given.onward onward).unmixed⟩
      intro name same
      cases same

theorem acceptsAll_belongs (ready : Ready held unit after) {params : List TypeRef}
    (given : ∀ arg ∈ args, Given held after arg) (count : params.length = args.length) :
    (acceptsAll unit nullable params args).Leads after fun last accepted => accepted = true →
      List.Forall₂ (fun arg type => arg.Belongs last unit.resolver type) args params := by
  induction params generalizing args after with
  | nil =>
      cases args with
      | nil => exact .pure fun _ => .nil
      | cons arg rest => cases count
  | cons param params ih =>
      cases args with
      | nil => cases count
      | cons arg args =>
          rw [acceptsAll]
          apply (accepts_belongs ready (given arg List.mem_cons_self)).bind
          intro accepted last onward belongs
          cases accepted with
          | false => exact .pure fun same => absurd same Bool.false_ne_true
          | true =>
              have rest := ih (ready.onward onward)
                (fun arg member => (given arg (List.mem_cons_of_mem _ member)).onward onward)
                (Nat.succ_inj.mp count)
              exact rest.imp fun final all further others same =>
                .cons ((belongs rfl).onward further) (others same)

theorem admitsArguments_belongs (ready : Ready held unit after) {ctor : ConstructorDecl}
    (given : ∀ arg ∈ args, Given held after arg) :
    (admitsArguments unit nullable args ctor).Leads after fun last accepted => accepted = true →
      List.Forall₂ (fun arg type => arg.Belongs last unit.resolver type) args ctor.paramTypes := by
  unfold admitsArguments
  by_cases count : ctor.params.length = args.length
  · rw [if_neg (not_not_intro count)]
    apply acceptsAll_belongs ready given
    rw [ConstructorDecl.paramTypes, List.length_map, count]
  · rw [if_pos count]
    exact .pure fun same => absurd same Bool.false_ne_true

theorem candidates_belongs (ready : Ready held unit after)
    (given : ∀ arg ∈ args, Given held after arg) :
    (candidates unit args).Leads after fun last found => ∀ ctor ∈ found,
      ctor ∈ unit.constructors ∧
        List.Forall₂ (fun arg type => arg.Belongs last unit.resolver type) args
          ctor.paramTypes := by
  refine .filterM ?_ ?_ (Std.Refl.refl after)
  · intro ctor _ middle onward
    exact admitsArguments_belongs (ready.onward onward)
      fun arg member => (given arg member).onward onward
  · intro ctor _ _ onward each
    exact each.imp fun _ _ belongs => belongs.onward onward

end Arguments

/-! ## Construction -/

section Construction
variable {held : UnitType → Prop} {args : List Value} (limit : Nat)
include closed agreeing

theorem unmixed_of_run {ctor : ConstructorDecl} (settled : env.Settled unit after)
    (member : ctor ∈ unit.constructors)
    (given : List.Forall₂ (fun arg type => arg.Belongs after unit.resolver type) args
      ctor.paramTypes) :
    (Evaluation.run limit unit ctor args).Leads after fun last object =>
      object.toValue.Unmixed last := by
  apply (runWithin_unmixes closed agreeing limit (limit + 1) unit ctor args after
    settled member given).imp
  intro last object _ made
  rw [Instance.toValue, Value.Unmixed, made.1]
  exact made.2

variable (settled : env.Settled unit after) (ready : Ready held unit after)
  (given : ∀ arg ∈ args, Given held after arg)
include settled ready given

/-- Instances that are constructed of unmixed arguments are unmixed. -/
theorem construct_unmixed :
    (construct limit unit args).Leads after fun last object => object.toValue.Unmixed last := by
  unfold construct
  cases argumentTypes args with
  | error fault => exact .throw
  | ok types =>
      refine .bind_ok rfl ?_
      apply (candidates_belongs ready given).bind
      intro found last onward belong
      match found with
      | [] => exact .throw
      | [ctor] =>
          obtain ⟨member, each⟩ := belong ctor (List.mem_singleton_self ctor)
          exact unmixed_of_run closed agreeing limit (settled.onward onward) member each
      | first :: second :: rest => exact .throw

theorem constructWith_unmixed (name : String) :
    (constructWith limit unit name args).Leads after fun last object =>
      object.toValue.Unmixed last := by
  unfold constructWith
  cases found : unit.image.constructor? name with
  | none => exact .throw
  | some ctor =>
      apply (admitsArguments_belongs ready given).bind
      intro accepted last onward belong
      cases accepted with
      | true =>
          exact unmixed_of_run closed agreeing limit (settled.onward onward)
            (List.mem_of_find?_eq_some found) (belong rfl)
      | false => exact .throw

end Construction

end Settled

end Environment

end UnitForge
