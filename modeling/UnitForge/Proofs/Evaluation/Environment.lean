import UnitForge.Files.Memory
import UnitForge.Proofs.Compiler.Origin
import UnitForge.Proofs.Evaluation.Selection

/-! # Type soundness

Units that were compiled without errors, in a world in which the names in them lead to units with
the images that the compiler saw. Constructing them from arguments that conform to their types gives
instances that do, or fails for a reason that no type can rule out. -/
set_option autoImplicit false
namespace UnitForge

open Step

/-- Units whose images were compiled without errors, in a world in which each name that they refer
to leads, by their own resolver, to a unit with the image that the compiler saw under it. -/
structure Environment (world : World) where
  /-- Where the image of a unit comes from; nothing is known of other units. -/
  origin? : Meaning → Option UnitCompiler.Origin
  image : ∀ {meaning origin}, origin? meaning = some origin → origin.image = meaning.image
  /-- Slots are numbered with 32 bits. -/
  numbered : ∀ {meaning origin}, origin? meaning = some origin →
    ∀ ctor ∈ meaning.image.constructors, ctor.Numbered
  resolves : ∀ {meaning origin}, origin? meaning = some origin →
    ∀ name ∈ meaning.image.references, name ≠ meaning.image.name →
      ∃ unit, (Action.resolve meaning.resolver name world).1 = .ok unit ∧
        ∀ image, origin.references.image? name = some image → unit.image = image

namespace Environment

open Evaluation UnitForge.Action

variable {world : World} (env : Environment world)

/-- Every image that the compiler saw was itself compiled without errors. -/
def Closed : Prop :=
  ∀ {meaning origin}, env.origin? meaning = some origin →
    ∀ name ∈ meaning.image.references, name ≠ meaning.image.name →
      ∀ unit, (Action.resolve meaning.resolver name world).1 = .ok unit →
        (origin.references.image? name).isSome = true → (env.origin? (.ofUnit unit)).isSome = true

variable {env}

theorem linked {setting : Setting} {meaning : Meaning} {origin : UnitCompiler.Origin}
    (known : env.origin? meaning = some origin) (callable : setting.callable meaning)
    (reaches : ∀ name ∈ meaning.image.references, name ≠ meaning.image.name →
      ∀ unit, (Action.resolve meaning.resolver name world).1 = .ok unit →
        (origin.references.image? name).isSome = true → setting.callable (.ofUnit unit)) :
    Linked setting origin.references.image? meaning world := by
  have same := env.image known
  refine ⟨callable, fun name image seen => origin.named seen, ?_, ?_⟩
  · intro image seen
    rw [← same] at seen ⊢
    exact origin.own seen
  · intro name image seen other
    have member : name ∈ meaning.image.references := by
      rw [← same]
      exact (References.restrict_iff.mp seen).1
    obtain ⟨unit, found, agrees⟩ := env.resolves known name member other
    have leads := ((resolve_run (run_eta (resolve meaning.resolver name) world)).2 _).mpr
      ⟨unit, found, rfl⟩
    refine ⟨.ofUnit unit, leads, agrees image seen, reaches name member other unit found ?_⟩
    rw [seen]
    rfl

theorem wellTyped {meaning : Meaning} {origin : UnitCompiler.Origin}
    (known : env.origin? meaning = some origin) :
    meaning.image.WellTyped origin.references.image? := by
  have same := env.image known
  have numbered := env.numbered known
  rw [← same] at numbered ⊢
  exact origin.elabUnit.wellTyped numbered

/-- Later worlds, in which known units give conforming instances or fail for a reason that no type
can rule out. -/
def typing (env : Environment world) : Setting where
  ready after := world.Later after
  callable meaning := (env.origin? meaning).isSome = true
  admits fault := fault.isExpected = true
  holds := FieldsConform
  stable later ready := IsTrans.trans _ _ _ ready later
  expected expected := expected

theorem runWithin_sound (closed : env.Closed) (limit levels : Nat) :
    (runWithin limit levels).Sound env.typing := by
  induction levels with
  | zero => exact fun _ _ _ _ _ _ _ _ => .throw rfl
  | succ levels ih =>
      intro unit ctor args reached ready callable member given
      obtain ⟨origin, known⟩ := Option.isSome_iff_exists.mp callable
      have linked := (linked known callable (closed known)).later ready
      refine (runWithin_ensures ih (wellTyped known ctor member) given ready linked).imp ?_
      exact fun object made => ⟨made.1, allConform_iff.mpr made.2⟩

/-! ## Hosts -/

def unitsOf (images : List UnitImage) : List UnitType :=
  images.zipIdx.map fun (image, id) => { id, image, origin := none, resolver := World.systemHost }

def hostWorld (units : List UnitType) : World where
  loaders := [.host (units.map fun unit => (unit.name, unit))]
  nextUnit := units.length
  nextInstance := 0

theorem image_unitsOf (images : List UnitImage) : (unitsOf images).map UnitType.image = images := by
  rw [unitsOf, List.map_map]
  exact List.zipIdx_map_fst 0 images

theorem ofUnit_unitsOf {images : List UnitImage} {unit : UnitType} (member : unit ∈ unitsOf images) :
    Meaning.ofUnit unit = { image := unit.image, resolver := World.systemHost } := by
  obtain ⟨_, -, rfl⟩ := List.mem_map.mp member
  rfl

theorem lookup_unit {units : List UnitType} (distinct : (units.map UnitType.name).Nodup)
    {unit : UnitType} (member : unit ∈ units) :
    (units.map fun unit => (unit.name, unit)).lookup unit.name = some unit := by
  induction units with
  | nil => cases member
  | cons first rest ih =>
      rw [List.map_cons, List.nodup_cons] at distinct
      rw [List.map_cons, List.lookup_cons]
      rcases List.mem_cons.mp member with rfl | later
      · simp
      · have other : unit.name ≠ first.name := fun same =>
          distinct.1 (same ▸ List.mem_map_of_mem later)
        rw [beq_eq_false_iff_ne.mpr other]
        exact ih distinct.2 later

theorem resolve_hostWorld {units : List UnitType} (distinct : (units.map UnitType.name).Nodup)
    {unit : UnitType} (member : unit ∈ units) :
    (resolve World.systemHost unit.name (hostWorld units)).1 = .ok unit := by
  change (resolveIn unit.name [World.systemHost] (hostWorld units)).1 = _
  have here : (hostWorld units).loaders[World.systemHost]? =
      some (.host (units.map fun unit => (unit.name, unit))) := rfl
  rw [resolveIn, except_get_run, here]
  dsimp only
  rw [lookup_unit distinct member]
  rfl

/-! ## Sources that refer to themselves only -/

section Source
variable {σ : Type} {manager : FileManager σ} {task : CompilationTask} {files : σ}
  {answers : List (SourceUnit × List UnitImage)} {prepared : Session σ} {source : SourceUnit}
  {images : List UnitImage}

/-- The images of a source that refers to its own structs only form an environment wherever each of
them has a place from which those that it refers to are found. -/
theorem exists_environment (place : UnitImage → LoaderId)
    (succeeded : (UnitCompiler.compile manager task files).1.succeeded = true)
    (preparing : UnitCompiler.prepare manager task (.start files) = (some answers, prepared))
    (answered : (source, images) ∈ answers)
    (numbered : ∀ image ∈ images, ∀ ctor ∈ image.constructors, ctor.Numbered)
    (selfContained : ∀ image ∈ images, image.references ⊆ images.map UnitImage.name)
    (placed : ∀ image ∈ images, ∀ other ∈ images, other.name ∈ image.references →
      other.name ≠ image.name → ∃ unit, (resolve (place image) other.name world).1 = .ok unit ∧
        Meaning.ofUnit unit = { image := other, resolver := place other }) :
    ∃ env : Environment world, env.Closed ∧ ∀ meaning, (env.origin? meaning).isSome = true ↔
      meaning.image ∈ images ∧ meaning.resolver = place meaning.image := by
  classical
  obtain ⟨_, _, again, -, origins⟩ := UnitCompiler.exists_origin succeeded
  cases preparing.symm.trans again
  choose origin from_ all same using origins source images answered
  let origin? (meaning : Meaning) : Option UnitCompiler.Origin :=
    if known : meaning.image ∈ images ∧ meaning.resolver = place meaning.image then
      some (origin meaning.image known.1)
    else none
  have inside {meaning : Meaning} {found : UnitCompiler.Origin}
      (known : origin? meaning = some found) : meaning.resolver = place meaning.image ∧
        meaning.image ∈ images ∧ found.images = images ∧ found.image = meaning.image := by
    by_cases here : meaning.image ∈ images ∧ meaning.resolver = place meaning.image
    · cases (dif_pos here).symm.trans known
      exact ⟨here.2, here.1, all _ here.1, same _ here.1⟩
    · cases (dif_neg here).symm.trans known
  have known {meaning : Meaning} (here : meaning.image ∈ images ∧
      meaning.resolver = place meaning.image) : (origin? meaning).isSome = true :=
    Option.isSome_of_eq_some (dif_pos here)
  have leads {meaning : Meaning} {found : UnitCompiler.Origin}
      (reached : origin? meaning = some found)
      {name : String} (referenced : name ∈ meaning.image.references)
      (foreign : name ≠ meaning.image.name) : ∃ image ∈ images, image.name = name ∧ ∃ unit,
        (resolve meaning.resolver name world).1 = .ok unit ∧
        Meaning.ofUnit unit = { image, resolver := place image } := by
    obtain ⟨here, member, -⟩ := inside reached
    obtain ⟨image, own, rfl⟩ := List.mem_map.mp (selfContained _ member referenced)
    rw [here]
    exact ⟨image, own, rfl, placed _ member image own referenced foreign⟩
  have resolves {meaning : Meaning} {found : UnitCompiler.Origin}
      (reached : origin? meaning = some found)
      (name : String) (referenced : name ∈ meaning.image.references)
      (foreign : name ≠ meaning.image.name) :
      ∃ unit, (resolve meaning.resolver name world).1 = .ok unit ∧
        ∀ image, found.references.image? name = some image → unit.image = image := by
    obtain ⟨image, own, rfl, unit, resolved, means⟩ := leads reached referenced foreign
    obtain ⟨-, -, whole, image_eq⟩ := inside reached
    refine ⟨unit, resolved, ?_⟩
    intro other seen
    rw [← whole] at own
    rw [← image_eq] at referenced
    have first := UnitCompiler.Origin.seen_of_mem own referenced
    cases first.symm.trans seen
    exact congrArg Meaning.image means
  have image {meaning : Meaning} {found : UnitCompiler.Origin}
      (reached : origin? meaning = some found) : found.image = meaning.image :=
    (inside reached).2.2.2
  have countable {meaning : Meaning} {found : UnitCompiler.Origin}
      (reached : origin? meaning = some found) :
      ∀ ctor ∈ meaning.image.constructors, ctor.Numbered :=
    numbered _ (inside reached).2.1
  refine ⟨⟨origin?, image, countable, resolves⟩, ?closed, ?exactly⟩
  case closed =>
    intro meaning found reached name referenced foreign unit resolved _
    obtain ⟨image, own, rfl, found, leads, means⟩ := leads reached referenced foreign
    cases leads.symm.trans resolved
    apply known
    rw [means]
    exact ⟨own, rfl⟩
  case exactly =>
    intro meaning
    constructor
    · intro reached
      obtain ⟨found, reached⟩ := Option.isSome_iff_exists.mp reached
      obtain ⟨here, member, -⟩ := inside reached
      exact ⟨member, here⟩
    · exact known

theorem exists_hostEnvironment
    (succeeded : (UnitCompiler.compile manager task files).1.succeeded = true)
    (preparing : UnitCompiler.prepare manager task (.start files) = (some answers, prepared))
    (answered : (source, images) ∈ answers)
    (numbered : ∀ image ∈ images, ∀ ctor ∈ image.constructors, ctor.Numbered)
    (selfContained : ∀ image ∈ images, image.references ⊆ images.map UnitImage.name) :
    ∃ env : Environment (hostWorld (unitsOf images)), env.Closed ∧
      ∀ unit ∈ unitsOf images, (env.origin? (.ofUnit unit)).isSome = true := by
  have images_eq := image_unitsOf images
  have hosted : ∀ image ∈ images, ∃ unit,
      (resolve World.systemHost image.name (hostWorld (unitsOf images))).1 = .ok unit ∧
        Meaning.ofUnit unit = { image, resolver := World.systemHost } := by
    intro image member
    obtain ⟨_, _, again, -, origins⟩ := UnitCompiler.exists_origin succeeded
    cases preparing.symm.trans again
    obtain ⟨origin, -, rfl, -⟩ := origins source images answered image member
    have distinct := origin.analysed.nodup
    rw [← images_eq] at member
    rw [← images_eq, List.map_map] at distinct
    obtain ⟨unit, known, rfl⟩ := List.mem_map.mp member
    exact ⟨unit, resolve_hostWorld distinct known, ofUnit_unitsOf known⟩
  obtain ⟨env, closed, inside⟩ := exists_environment (fun _ => World.systemHost) succeeded preparing
    answered numbered selfContained fun _ _ other member _ _ => hosted other member
  refine ⟨env, closed, fun unit member => (inside _).mpr ?_⟩
  rw [ofUnit_unitsOf member]
  exact ⟨images_eq ▸ List.mem_map_of_mem member, rfl⟩

end Source
/-! ## Construction -/

/-- Whether arguments are taken by just one constructor of a unit. -/
def Takes (world : World) (unit : UnitType) (args : List Value) : Prop :=
  (∀ arg ∈ args, arg.isNull = false) ∧ ∃ ctor, (candidates unit args world).1 = .ok [ctor]

def TakesBy (world : World) (unit : UnitType) (name : String) (args : List Value) : Prop :=
  ∃ ctor, unit.image.constructor? name = some ctor ∧
    (admitsArguments unit true args ctor world).1 = .ok true

/-- An instance whose fields have their types, all the way down, or a failure that no type can rule
out. -/
def Conforms (unit : UnitType) : Except Error Instance → Prop
  | .ok object => object.unit = unit ∧ Value.allConform object.fields unit.fields = true
  | .error fault => fault.isExpected = true

/-- Arguments are refused before anything is run. -/
def Refused : Except Error Instance → Prop
  | .error (.noMatchingConstructor ..) | .error (.ambiguousConstructor ..)
  | .error (.invalidArgument (.nullArgument _)) => True
  | _ => False

theorem run_conforms (closed : env.Closed) (limit : Nat) {unit : UnitType}
    (known : (env.origin? (.ofUnit unit)).isSome = true) {ctor : ConstructorDecl}
    (member : ctor ∈ unit.constructors) {args : List Value}
    (typed : List.Forall₂ (Value.HasType FieldsConform) args ctor.paramTypes) {after : World}
    (later : world.Later after) : Conforms unit (run limit unit ctor args after).1 := by
  have sound := runWithin_sound closed limit (limit + 1) unit ctor args after later known member
    typed
  rcases ran : runWithin limit (limit + 1) unit ctor args after with ⟨fault | object, last⟩
  · rw [run, ran]
    exact (sound.of_run ran).2
  · rw [run, ran]
    exact (sound.of_run ran).2

theorem resolves_references {unit : UnitType}
    (known : (env.origin? (.ofUnit unit)).isSome = true) :
    Resolves unit unit.image.references world := by
  obtain ⟨origin, known⟩ := Option.isSome_iff_exists.mp known
  intro name member other
  obtain ⟨found, leads, -⟩ := env.resolves known name member other
  exact ⟨found, leads⟩

def constructBy (limit : Nat) (unit : UnitType) (args : List Value) (call : String) :
    List ConstructorDecl → Action Instance
  | [] => throw (.noMatchingConstructor unit.name call)
  | [ctor] => run limit unit ctor args
  | several =>
    throw (.ambiguousConstructor unit.name call (several.map ConstructorDecl.signature))

theorem construct_eq {unit : UnitType} {args : List Value} {types : List TypeRef}
    {found : List ConstructorDecl} {after : World} (typed : argumentTypes args = .ok types)
    (chosen : candidates unit args world = (.ok found, after)) (limit : Nat) :
    construct limit unit args world =
      constructBy limit unit args (TypeRef.listText types) found after := by
  have same : construct limit unit args =
      (candidates unit args >>= constructBy limit unit args (TypeRef.listText types)) := by
    unfold construct
    rw [typed]
    rfl
  rw [same, except_bind_ok chosen]

section Arguments
variable {unit : UnitType} {args : List Value} (closed : env.Closed)
  (known : (env.origin? (.ofUnit unit)).isSome = true)
  (conforming : ∀ arg ∈ args, arg.isConforming = true) (limit : Nat)
include closed known conforming

theorem construct_run :
    (Takes world unit args ∧ Conforms unit (construct limit unit args world).1) ∨
    (¬Takes world unit args ∧ Refused (construct limit unit args world).1) := by
  cases nulls : args.findIdx? Value.isNull with
  | some index =>
      refine .inr ⟨?_, ?_⟩
      · rintro ⟨nonnull, _⟩
        rw [List.findIdx?_eq_none_iff.mpr nonnull] at nulls
        cases nulls
      · rw [construct, argumentTypes, nulls]
        trivial
  | none =>
      have types : argumentTypes args = .ok (args.filterMap Value.type?) := by
        rw [argumentTypes, nulls]
      obtain ⟨found, after, chosen, later, typed⟩ :=
        candidates_succeeds conforming (resolves_references known) (Std.Refl.refl world)
      have taken : Takes world unit args ↔ ∃ ctor, found = [ctor] := by
        unfold Takes
        rw [chosen, and_iff_right (List.findIdx?_eq_none_iff.mp nulls)]
        simp only [Except.ok.injEq]
      rw [taken, construct_eq types chosen]
      match found with
      | [] => exact .inr ⟨nofun, trivial⟩
      | [ctor] =>
          obtain ⟨member, given⟩ := typed ctor (List.mem_singleton_self ctor)
          exact .inl ⟨⟨ctor, rfl⟩, run_conforms closed limit known member given later⟩
      | first :: second :: rest => exact .inr ⟨nofun, trivial⟩

theorem constructWith_run (name : String) :
    (TakesBy world unit name args ∧ Conforms unit (constructWith limit unit name args world).1) ∨
    (¬TakesBy world unit name args ∧
      Refused (constructWith limit unit name args world).1) := by
  unfold constructWith TakesBy
  cases found : unit.image.constructor? name with
  | none => exact .inr ⟨nofun, trivial⟩
  | some ctor =>
      have member : ctor ∈ unit.constructors := List.mem_of_find?_eq_some found
      have names := (resolves_references known).mono fun name here =>
        List.mem_flatMap.mpr ⟨ctor, member, List.mem_append_right _ here⟩
      obtain ⟨accepted, after, chosen, later, typed⟩ :=
        @admitsArguments_succeeds unit true world world ctor args conforming names
          (Std.Refl.refl world)
      dsimp only
      rw [except_bind_ok chosen]
      cases accepted with
      | true =>
          refine .inl ⟨⟨ctor, rfl, ?_⟩, run_conforms closed limit known member (typed rfl) later⟩
          rw [chosen]
      | false =>
          refine .inr ⟨?_, trivial⟩
          rintro ⟨_, same, taken⟩
          cases same
          rw [chosen] at taken
          cases taken

end Arguments

/-- Constructing a unit that was compiled without errors, against units that were, in a world in
which its names lead to the images that the compiler saw. If one constructor takes the arguments,
the outcome is an instance of the unit in which every field has a value of its type, all the way
down, or the failure of an arithmetic operation or of too deep a nesting. If none does, or more than
one, the arguments are refused. The same holds of the constructor of any name. -/
theorem construct_conforms (env : Environment world) (closed : env.Closed) (limit : Nat)
    {unit : UnitType} (known : (env.origin? (.ofUnit unit)).isSome = true) {args : List Value}
    (conforming : ∀ arg ∈ args, arg.isConforming = true) :
    ((Takes world unit args ∧ Conforms unit (construct limit unit args world).1) ∨
      (¬Takes world unit args ∧ Refused (construct limit unit args world).1)) ∧
    ∀ name, (TakesBy world unit name args ∧
        Conforms unit (constructWith limit unit name args world).1) ∨
      (¬TakesBy world unit name args ∧
        Refused (constructWith limit unit name args world).1) :=
  ⟨construct_run closed known conforming limit, constructWith_run closed known conforming limit⟩

/-! ## A source of two structs -/

def lineTask : CompilationTask where
  options := []
  units := [{
    name := "demo.L"
    text := "struct P \x7b n: i64 \x7d impl P \x7b fn of(n: i64) -> P \x7b P \x7b n: n - 3 \x7d \x7d \x7d " ++
      "struct L \x7b p: P \x7d impl L \x7b fn to(n: i64) -> L \x7b L \x7b p: P::of(n) \x7d \x7d \x7d" }]

def memory : FileManager (MemoryStore StandardFiles) :=
  MemoryStore.manager StandardFiles.manager

def lineAnswers : List (SourceUnit × List UnitImage) :=
  ((UnitCompiler.prepare memory lineTask (.start (.ofInner (.ofTree .empty)))).1).getD []

def lineUnits : List UnitType :=
  unitsOf (lineAnswers.flatMap Prod.snd)

theorem line_facts :
    (UnitCompiler.compile memory lineTask (.ofInner (.ofTree .empty))).1.succeeded = true ∧
    lineUnits.map UnitType.name = ["demo.P", "demo.L"] ∧
    (∀ unit ∈ lineUnits, unit.image.references ⊆ ["demo.P", "demo.L"] ∧
      ∀ ctor ∈ unit.constructors, ctor.Numbered) ∧
    (∀ unit ∈ lineUnits, unit.constructors.map ConstructorDecl.paramTypes = [[.int]]) ∧
    (∀ unit ∈ lineUnits, ((candidates unit [.int 7] (hostWorld lineUnits)).1.map
      List.length).toOption = some 1) ∧
    ∀ unit ∈ lineUnits, unit.name = "demo.L" → ∀ ctor ∈ unit.constructors,
      ((Evaluation.run maxConstructDepth unit ctor [.int 7] (hostWorld lineUnits)).1.map
        Instance.text).toOption = some "L \x7b p: P \x7b n: 4 \x7d \x7d" := by
  decide +kernel

theorem exists_lineEnvironment : ∃ env : Environment (hostWorld lineUnits), env.Closed ∧
    ∀ unit ∈ lineUnits, (env.origin? (.ofUnit unit)).isSome = true := by
  obtain ⟨succeeded, names, units, -⟩ := line_facts
  obtain ⟨answers, prepared, preparing, sources, -⟩ := UnitCompiler.exists_origin succeeded
  have known : lineAnswers = answers := by
    rw [lineAnswers, preparing]
    rfl
  match answers, sources with
  | [(source, images)], _ =>
      have unitsEq : lineUnits = unitsOf images := by
        rw [lineUnits, known, List.flatMap_singleton]
      have images_eq := image_unitsOf images
      have namesEq : images.map UnitImage.name = ["demo.P", "demo.L"] := by
        rw [← images_eq, List.map_map, ← unitsEq]
        exact names
      have each (image : UnitImage) (member : image ∈ images) :
          image.references ⊆ ["demo.P", "demo.L"] ∧ ∀ ctor ∈ image.constructors, ctor.Numbered := by
        rw [← images_eq, ← unitsEq] at member
        obtain ⟨unit, known, rfl⟩ := List.mem_map.mp member
        exact units unit known
      rw [unitsEq]
      apply exists_hostEnvironment succeeded preparing List.mem_cons_self
        (fun image member => (each image member).2)
      intro image member
      exact namesEq ▸ (each image member).1

theorem construct_conforms_line : ∃ unit ∈ lineUnits, unit.name = "demo.L" ∧
    Conforms unit (construct maxConstructDepth unit [.int 7] (hostWorld lineUnits)).1 := by
  obtain ⟨env, closed, known⟩ := exists_lineEnvironment
  obtain ⟨-, names, -, -, taken, -⟩ := line_facts
  obtain ⟨unit, member, named⟩ := List.mem_map.mp
    (names ▸ List.mem_cons_of_mem _ List.mem_cons_self : "demo.L" ∈ lineUnits.map UnitType.name)
  refine ⟨unit, member, named, ?_⟩
  have conforming : ∀ arg ∈ [Value.int 7], arg.isConforming = true := by decide
  rcases (construct_conforms env closed maxConstructDepth (known unit member) conforming).1
    with ⟨-, conforms⟩ | ⟨refused, -⟩
  · exact conforms
  · refine absurd ⟨by decide, ?_⟩ refused
    have one := taken unit member
    rcases chosen : (candidates unit [.int 7] (hostWorld lineUnits)).1 with fault | found
    · rw [chosen] at one
      cases one
    · rw [chosen] at one
      obtain ⟨ctor, rfl⟩ := List.length_eq_one_iff.mp (Option.some.inj one)
      exact ⟨ctor, rfl⟩

end Environment

end UnitForge
