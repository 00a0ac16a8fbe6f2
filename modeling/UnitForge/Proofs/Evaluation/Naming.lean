import UnitForge.Proofs.Compiler.Constructors
import UnitForge.Proofs.Evaluation.Identity
import UnitForge.Proofs.Evaluation.Independence

/-! # Choosing by arguments and by name

A constructor is chosen by the types of arguments, or by its name. Both look up the names of
parameter types, which may define units; but as long as all artifacts that can be come to can be
read, the questions that are asked on the way always have an answer, and the same one whenever they
are asked. The constructors that arguments choose are therefore those whose names can be given with
these arguments, and it makes no difference how the only one was chosen. -/
set_option autoImplicit false
namespace UnitForge

open Step UnitForge.Action

/-! ## Settled questions -/

/-- A later world, for which names were looked up and none of them was lost. -/
structure World.Asked (first now : World) : Prop where
  onward : first.Onward now
  retains : first.Retains now
  counter : now.nextInstance = first.nextInstance

namespace World.Asked

variable {first now after : World}

theorem refl (first : World) : first.Asked first :=
  ⟨Std.Refl.refl first, Std.Refl.refl first, rfl⟩

theorem trans (asked : first.Asked now) (further : now.Asked after) : first.Asked after where
  onward := IsTrans.trans _ _ _ asked.onward further.onward
  retains := IsTrans.trans _ _ _ asked.retains further.retains
  counter := further.counter.trans asked.counter

end World.Asked

namespace Action

variable {α β : Type} {first : World} {step : Action α} {next : α → Action β} {value : α}
  {other : β}

/-- A question that has an answer, and the same one whenever it is asked. -/
def Settled (first : World) (step : Action α) (value : α) : Prop :=
  ∀ now, first.Asked now → ∃ after, step now = (.ok value, after) ∧ first.Asked after

theorem Settled.pure (value : α) : Settled first (Pure.pure value : Action α) value :=
  fun now asked => ⟨now, rfl, asked⟩

theorem Settled.bind (settled : Settled first step value)
    (rest : Settled first (next value) other) : Settled first (step >>= next) other := by
  intro now asked
  obtain ⟨middle, run, between⟩ := settled now asked
  obtain ⟨after, goes, last⟩ := rest middle between
  exact ⟨after, (except_bind_ok run).trans goes, last⟩

theorem Settled.filterM {test : α → Action Bool} {answer : α → Bool}
    (tests : ∀ item, Settled first (test item) (answer item)) (items : List α) :
    Settled first (items.filterM test) (items.filter answer) := by
  have loop (rest kept : List α) : Settled first (List.filterAuxM test rest kept)
      ((rest.filter answer).reverse ++ kept) := by
    induction rest generalizing kept with
    | nil => exact .pure kept
    | cons item rest ih =>
        apply (tests item).bind
        have later := ih (cond (answer item) (item :: kept) kept)
        cases chosen : answer item with
        | true =>
            rw [chosen] at later
            rw [List.filter_cons_of_pos chosen, List.reverse_cons, List.append_assoc]
            exact later
        | false =>
            rw [chosen] at later
            rw [List.filter_cons_of_neg (by rw [chosen]; exact Bool.false_ne_true)]
            exact later
  have reverses (kept : List α) :
      Settled first (Pure.pure kept.reverse : Action (List α)) kept.reverse := .pure kept.reverse
  have all : Settled first (items.filterM test) ((items.filter answer).reverse ++ []).reverse :=
    (loop items []).bind (reverses _)
  rwa [List.append_nil, List.reverse_reverse] at all

end Action

namespace Evaluation

open Environment

/-! ## Arguments -/

section Arguments
variable {held : UnitType → Prop} {first : World} {unit : UnitType}
  (readable : first.Readable unit.resolver) (sound : first.Sound held)
include readable sound

theorem identity_settled {given : UnitType} (known : first.Knows held given) (name : String) :
    ∃ answer, Settled first (do
      try
        let expected ← resolve unit.resolver name
        return decide (expected.id = given.id)
      catch
        | .typeNotFound _ => return false
        | error => throw error) answer := by
  classical
  refine ⟨decide (first.standing? unit.resolver name = some given), ?_⟩
  intro now asked
  have stands : (resolve unit.resolver name now).1 = .ok given ↔
      first.standing? unit.resolver name = some given := by
    rw [resolve_known_iff (asked.onward.sound held sound) (asked.onward.knows known)]
    exact ⟨asked.onward.standing_before asked.retains sound known, asked.onward.standing?⟩
  have run := identity_run unit.resolver name given now
  have counter := resolve_nextInstance unit.resolver name now
  rcases resolved : resolve unit.resolver name now with ⟨fault | expected, after⟩
  · cases readable.resolve_error asked.onward.continues .self resolved
    rw [resolved] at run stands counter
    have absent : first.standing? unit.resolver name ≠ some given :=
      fun here => nomatch stands.mpr here
    have retains : now.Retains after := resolve_retains resolved nofun
    refine ⟨after, ?_, asked.trans ⟨(resolve_onward resolved).1, retains, counter⟩⟩
    rw [decide_eq_false absent]
    exact run
  · obtain ⟨onward, gives⟩ := resolve_onward resolved
    rw [resolved] at run stands counter
    have retains : now.Retains after := resolve_retains resolved nofun
    have further : first.Asked after := asked.trans ⟨onward, retains, counter⟩
    have has : after.Knows held expected := .inr (.of_standing (gives expected rfl))
    have distinct := (further.onward.sound held sound).distinct expected given has
      (further.onward.knows known)
    have same : expected.id = given.id ↔ first.standing? unit.resolver name = some given := by
      rw [← stands, Except.ok.injEq]
      exact ⟨distinct, fun same => congrArg UnitType.id same⟩
    refine ⟨after, ?_, further⟩
    rw [← decide_eq_decide.mpr same]
    exact run

/-- Whether a parameter takes an argument that is not null is settled, and it does not matter
whether null would be allowed. -/
theorem accepts_settled {arg : Value} (known : Known held first arg) (valued : arg.isNull = false)
    (param : TypeRef) :
    ∃ answer, ∀ nullable, Settled first (accepts unit nullable param arg) answer := by
  cases param with
  | unit name =>
      cases arg with
      | null => cases valued
      | object id given fields =>
          by_cases named : given.name = name
          · by_cases itself : name = unit.name
            · refine ⟨decide (unit.id = given.id), ?_⟩
              intro nullable
              rw [accepts, if_neg (not_not_intro named), if_pos itself]
              exact .pure _
            · obtain ⟨answer, settled⟩ :=
                identity_settled readable sound (known given List.mem_cons_self) name
              refine ⟨answer, ?_⟩
              intro nullable
              rw [accepts, if_neg (not_not_intro named), if_neg itself]
              exact settled
          · refine ⟨false, ?_⟩
            intro nullable
            rw [accepts, if_pos named]
            exact .pure _
      | int | float | bool | str => exact ⟨_, fun _ => .pure _⟩
  | int | float | bool | str =>
      cases arg with
      | null => cases valued
      | _ => exact ⟨_, fun _ => .pure _⟩

variable {args : List Value} (known : ∀ arg ∈ args, Known held first arg)
  (valued : ∀ arg ∈ args, arg.isNull = false)
include known valued

theorem acceptsAll_settled (params : List TypeRef) :
    ∃ answer, ∀ nullable, Settled first (acceptsAll unit nullable params args) answer := by
  induction params generalizing args with
  | nil => exact ⟨true, fun nullable => .pure _⟩
  | cons param params ih =>
      cases args with
      | nil => exact ⟨true, fun nullable => .pure _⟩
      | cons arg args =>
          rw [List.forall_mem_cons] at known valued
          obtain ⟨answer, settled⟩ := accepts_settled readable sound known.1 valued.1 param
          obtain ⟨others, rest⟩ := ih known.2 valued.2
          cases answer with
          | false => exact ⟨false, fun nullable => (settled nullable).bind (.pure _)⟩
          | true => exact ⟨others, fun nullable => (settled nullable).bind (rest nullable)⟩

theorem admitsArguments_settled (ctor : ConstructorDecl) :
    ∃ answer, ∀ nullable, Settled first (admitsArguments unit nullable args ctor) answer := by
  by_cases count : ctor.params.length = args.length
  · obtain ⟨answer, settled⟩ := acceptsAll_settled readable sound known valued ctor.paramTypes
    refine ⟨answer, ?_⟩
    intro nullable
    rw [admitsArguments, if_neg (not_not_intro count)]
    exact settled nullable
  · refine ⟨false, ?_⟩
    intro nullable
    rw [admitsArguments, if_pos count]
    exact .pure _

end Arguments

/-! ## Instances -/

mutual

theorem mirrors_self (base : Nat) (value : Value) : value.Mirrors base base value := by
  cases value with
  | object id unit fields => exact .object rfl rfl (mirrors_all base fields)
  | _ => exact .plain rfl

theorem mirrors_all (base : Nat) (values : List Value) :
    List.Forall₂ (Value.Mirrors base base) values values := by
  cases values with
  | nil => exact .nil
  | cons value rest => exact .cons (mirrors_self base value) (mirrors_all base rest)

end

theorem run_unit {limit : Nat} {unit : UnitType} {ctor : ConstructorDecl} {args : List Value}
    {world : World} {object : Instance} (gave : (run limit unit ctor args world).1 = .ok object) :
    object.unit = unit := by
  obtain ⟨after, ran⟩ : ∃ after, run limit unit ctor args world = (.ok object, after) :=
    ⟨_, Prod.ext gave rfl⟩
  rw [run] at ran
  by_cases count : ctor.init.length = unit.fields.length
  · rw [runWithin_succ count] at ran
    rcases except_bind_run ran with ⟨_, _, -, failed⟩ | ⟨slots, middle, -, ran⟩
    · cases failed
    · rcases except_bind_run ran with ⟨_, _, -, failed⟩ | ⟨values, last, -, ran⟩
      · cases failed
      · cases ran
        rfl
  · rw [runWithin] at ran
    dsimp only at ran
    rw [if_pos count] at ran
    cases ran

/-- Two instances of a unit that were made from one world, and that only the numbers of units that
were defined on the way tell apart. -/
structure Alike (world : World) (unit : UnitType) (object object' : Instance) : Prop where
  left : object.unit = unit
  right : object'.unit = unit
  mirrors : object.toValue.Mirrors world.nextInstance world.nextInstance object'.toValue

theorem run_alike {world here there : World} {unit : UnitType}
    (readable : world.Readable unit.resolver) (left : world.Asked here) (right : world.Asked there)
    (limit : Nat) (ctor : ConstructorDecl) (args : List Value) :
    Answer.Both (Alike world unit) (run limit unit ctor args here).1
      (run limit unit ctor args there).1 := by
  have counted : here.nextInstance + world.nextInstance =
      there.nextInstance + world.nextInstance := by
    rw [left.counter, right.counter]
  have both := (runWithin_parallel readable limit (limit + 1) unit unit ctor args args
    ⟨rfl, .self⟩ (mirrors_all _ args) here there
    ⟨left.onward.continues, right.onward.continues, counted⟩).2
  change Answer.Both _ (run limit unit ctor args here).1 (run limit unit ctor args there).1 at both
  have own {world : World} {object : Instance}
      (gave : (run limit unit ctor args world).1 = .ok object) : object.unit = unit := run_unit gave
  generalize gave : (run limit unit ctor args here).1 = answer at both
  generalize gave' : (run limit unit ctor args there).1 = answer' at both
  cases both with
  | ok mirrors => exact .ok ⟨own gave, own gave', mirrors⟩
  | error fault => exact .error fault

/-! ## Choices -/

/-- What there is to say of arguments for a unit: the constructors that they choose, which are those
that can be named with them, and what becomes of both ways to construct. -/
structure NamesChosen (world : World) (unit : UnitType) (args : List Value)
    (found : List ConstructorDecl) : Prop where
  chosen : (candidates unit args world).1 = .ok found
  named : ∀ name, TakesBy world unit name args ↔ name ∈ found.map ConstructorDecl.name
  /-- It can be asked for a name after constructors were looked for. -/
  again : ∀ name, TakesBy (candidates unit args world).2 unit name args ↔
    TakesBy world unit name args
  passed : ∀ limit name, TakesBy world unit name args → ∃ ctor after, ctor ∈ found ∧
    ctor.name = name ∧ world.Asked after ∧
      constructWith limit unit name args world = run limit unit ctor args after
  refused : ∀ limit name, ¬TakesBy world unit name args → ∃ call,
    (constructWith limit unit name args world).1 = .error (.noMatchingConstructor unit.name call)
  none : found = [] → ∀ limit, (construct limit unit args world).1 =
    .error (.noMatchingConstructor unit.name (TypeRef.listText (args.filterMap Value.type?)))
  several : 1 < found.length → ∀ limit, (construct limit unit args world).1 =
    .error (.ambiguousConstructor unit.name (TypeRef.listText (args.filterMap Value.type?))
      (found.map ConstructorDecl.signature))
  one : ∀ ctor, found = [ctor] → ∀ limit, Answer.Both (Alike world unit)
    (construct limit unit args world).1 (constructWith limit unit ctor.name args world).1

section Choices
variable {world after : World} {unit : UnitType} {args : List Value}
  {admits : ConstructorDecl → Bool}

theorem argumentTypes_valued (valued : ∀ arg ∈ args, arg.isNull = false) :
    argumentTypes args = .ok (args.filterMap Value.type?) := by
  have none : args.findIdx? Value.isNull = .none := by
    rw [List.findIdx?_eq_none_iff]
    exact fun arg member => by simp [valued arg member]
  rw [argumentTypes, none]

section Settled
variable (settled : ∀ ctor nullable,
  Settled world (admitsArguments unit nullable args ctor) (admits ctor))
include settled

theorem takesBy_iff (asked : world.Asked after) (name : String) :
    TakesBy after unit name args ↔
      ∃ ctor, unit.image.constructor? name = some ctor ∧ admits ctor = true := by
  apply exists_congr
  intro ctor
  apply and_congr_right
  intro _
  obtain ⟨last, run, -⟩ := settled ctor true after asked
  rw [run, Except.ok.injEq]

theorem candidates_run_settled (asked : world.Asked after) :
    ∃ last, candidates unit args after = (.ok (unit.constructors.filter admits), last) ∧
      world.Asked last :=
  Settled.filterM (fun ctor => settled ctor false) unit.constructors after asked

theorem constructWith_admitted (limit : Nat) {name : String} {ctor : ConstructorDecl}
    (named : unit.image.constructor? name = some ctor) (admitted : admits ctor = true) :
    ∃ last, world.Asked last ∧
      constructWith limit unit name args world = run limit unit ctor args last := by
  obtain ⟨last, asked, later⟩ := settled ctor true world (.refl world)
  rw [admitted] at asked
  refine ⟨last, later, ?_⟩
  simp only [constructWith, named]
  exact except_bind_ok asked

theorem constructWith_unadmitted (limit : Nat) {name : String}
    (unnamed : ¬∃ ctor, unit.image.constructor? name = some ctor ∧ admits ctor = true) :
    ∃ call, (constructWith limit unit name args world).1 =
      .error (.noMatchingConstructor unit.name call) := by
  cases named : unit.image.constructor? name with
  | none =>
      simp only [constructWith, named]
      exact ⟨_, rfl⟩
  | some ctor =>
      have refused : admits ctor = false := by
        rw [← Bool.not_eq_true]
        exact fun admitted => unnamed ⟨ctor, named, admitted⟩
      obtain ⟨last, asked, -⟩ := settled ctor true world (.refl world)
      rw [refused] at asked
      simp only [constructWith, named]
      exact ⟨_, congrArg Prod.fst (except_bind_ok asked)⟩

omit settled in
theorem named_iff (apart : unit.image.NamesApart) (name : String) :
    (∃ ctor, unit.image.constructor? name = some ctor ∧ admits ctor = true) ↔
      name ∈ (unit.constructors.filter admits).map ConstructorDecl.name := by
  rw [List.mem_map]
  constructor
  · rintro ⟨ctor, named, admitted⟩
    have member : ctor ∈ unit.constructors := List.mem_of_find?_eq_some named
    exact ⟨ctor, List.mem_filter.mpr ⟨member, admitted⟩, by simpa using List.find?_some named⟩
  · rintro ⟨ctor, member, rfl⟩
    obtain ⟨member, admitted⟩ := List.mem_filter.mp member
    exact ⟨ctor, apart.constructor? member, admitted⟩

/-- If all questions are settled, and names are unambiguous, both ways to choose agree. -/
theorem namesChosen_of_settled (readable : world.Readable unit.resolver)
    (apart : unit.image.NamesApart) (valued : ∀ arg ∈ args, arg.isNull = false) :
    NamesChosen world unit args (unit.constructors.filter admits) := by
  obtain ⟨after, chosen, asked⟩ := candidates_run_settled settled (.refl world)
  have made (limit : Nat) := construct_eq (argumentTypes_valued valued) chosen limit
  have takes (name : String) := takesBy_iff settled (.refl world) name
  constructor
  case chosen => exact congrArg Prod.fst chosen
  case named =>
    intro name
    rw [takes, named_iff apart]
  case again =>
    intro name
    rw [takes, chosen]
    exact takesBy_iff settled asked name
  case passed =>
    intro limit name given
    obtain ⟨ctor, named, admitted⟩ := (takes name).mp given
    have member : ctor ∈ unit.constructors := List.mem_of_find?_eq_some named
    have same : ctor.name = name := by simpa using List.find?_some named
    obtain ⟨last, later, run⟩ := constructWith_admitted settled limit named admitted
    exact ⟨ctor, last, List.mem_filter.mpr ⟨member, admitted⟩, same, later, run⟩
  case refused =>
    intro limit name absent
    apply constructWith_unadmitted settled limit
    rwa [← takes]
  case none =>
    intro empty limit
    rw [made, empty]
    rfl
  case several =>
    intro many limit
    rw [made]
    generalize unit.constructors.filter admits = found at many
    rcases found with _ | ⟨first, _ | ⟨second, rest⟩⟩
    · exact absurd many (Nat.not_lt_zero 1)
    · exact absurd many (Nat.lt_irrefl 1)
    · rfl
  case one =>
    intro ctor only limit
    have taken : ctor ∈ unit.constructors.filter admits := only ▸ List.mem_singleton_self ctor
    obtain ⟨member, admitted⟩ := List.mem_filter.mp taken
    obtain ⟨last, later, run⟩ :=
      constructWith_admitted settled limit (apart.constructor? member) admitted
    rw [made, only, run]
    exact run_alike readable asked later limit ctor args

end Settled

end Choices

end Evaluation

open Evaluation

/-- For a unit with an image that a compiler has emitted, whose loader comes to nothing but artifacts
that can be read, the constructors that arguments choose are those that can be named with them. If
there is just one of them, choosing it by the arguments and naming it give the same instance or the
same error. -/
theorem names_chosen (tree : FileTree) (events : List Event) (origin : UnitCompiler.Origin)
    {unit : UnitType} {args : List Value} (emitted : unit.image = origin.image)
    (readable : ((Holdings.start tree).run events).workspace.world.Readable unit.resolver)
    (passable : ∀ arg ∈ args, ((Holdings.start tree).run events).Passable arg)
    (valued : ∀ arg ∈ args, arg.isNull = false) :
    ∃ found, NamesChosen ((Holdings.start tree).run events).workspace.world unit args found := by
  obtain ⟨sound, -⟩ := (Holdings.sound_start tree).run events
  have known : ∀ arg ∈ args, Known ((Holdings.start tree).run events).Holds
      ((Holdings.start tree).run events).workspace.world arg :=
    fun arg member => sound.known (passable arg member)
  have apart : unit.image.NamesApart := emitted ▸ origin.namesApart
  choose admits settled using admitsArguments_settled readable sound known valued
  exact ⟨_, namesChosen_of_settled settled readable apart valued⟩

/-! ## Edges and nodes -/

def artifactsOf (images : List UnitImage) : ArtifactTable :=
  ⟨images.flatMap fun image => (artifactOf image).outputs⟩

section Artifacts
variable {images : List UnitImage} (fits : ∀ image ∈ images, image.Fits)
include fits

theorem decodable_artifactsOf : (artifactsOf images).Decodable := by
  intro output member
  obtain ⟨image, given, own⟩ := List.mem_flatMap.mp member
  exact decodable_artifactOf (fits image given) output own

theorem mem_of_image?_artifactsOf {name : String} {image : UnitImage}
    (found : (artifactsOf images).image? name = some image) : image ∈ images := by
  obtain ⟨output, given, read⟩ := Option.bind_eq_some_iff.mp found
  obtain ⟨member, rfl⟩ := ArtifactTable.mem_of_get? given
  obtain ⟨made, inside, own⟩ := List.mem_flatMap.mp member
  cases List.mem_singleton.mp own
  have decoded : UnitImage.decode made.name made.encode = .ok made :=
    UnitImage.decode_encode (fits made inside)
  rw [OutputUnit.read, if_neg (not_not_intro rfl), decoded] at read
  cases read
  exact inside

end Artifacts

/-- A source of nodes and of edges. An edge is made from a node in two ways, and from a number. -/
def edgeTask : CompilationTask where
  options := []
  units := [{
    name := "d.A"
    text := "struct N;struct M;struct A\x7bn:N\x7dimpl A\x7bfn of(n:N)->A\x7bA\x7bn:n\x7d\x7d" ++
      "fn to(m:N)->A\x7bA\x7bn:m\x7d\x7dfn at(k:i64)->A\x7bA\x7bn:N::new()\x7d\x7d\x7d" }]

def edgeImages : List UnitImage :=
  ((UnitCompiler.prepare Environment.memory edgeTask
    (.start (.ofInner (.ofTree .empty)))).1.getD []).flatMap Prod.snd

/-- The unit of edges and a node. From one of the artifacts nothing is defined. -/
def edgeEvents : List Event :=
  [.ask (.resolve "loader" "d.A") (some "edge"), .ask (.resolve "loader" "d.N") (some "unit"),
    .ask (.construct "unit" []) (some "node")]

def edges : Holdings :=
  (Holdings.start .empty).run (loading (artifactsOf edgeImages) ++ edgeEvents)

def chosenNames (world : World) (unit : UnitType) (args : List Value) : Option (List String) :=
  ((candidates unit args world).1.map (·.map ConstructorDecl.name)).toOption

theorem edges_facts :
    (UnitCompiler.compile Environment.memory edgeTask (.ofInner (.ofTree .empty))).1.succeeded =
        true ∧
      (∀ image ∈ edgeImages, image.Fits) ∧
      (∀ loader ∈ edges.workspace.world.loaders, loader.Readable) ∧
      (edges.unit? "edge").map UnitType.resolver = some 2 ∧
      (edges.object? "node").isSome = true ∧
      ((edges.unit? "edge").bind fun edge => (edges.object? "node").bind fun node =>
        chosenNames edges.workspace.world edge [node.toValue]) = some ["of", "to"] ∧
      ((edges.unit? "edge").bind fun edge => chosenNames edges.workspace.world edge [.int 5]) =
        some ["at"] := by
  decide +kernel

theorem exists_edgeOrigin {image : UnitImage} (member : image ∈ edgeImages) :
    ∃ origin : UnitCompiler.Origin, image = origin.image := by
  obtain ⟨answers, prepared, preparing, -, origins⟩ := UnitCompiler.exists_origin edges_facts.1
  rw [edgeImages, preparing, Option.getD_some] at member
  obtain ⟨⟨source, images⟩, answered, inside⟩ := List.mem_flatMap.mp member
  obtain ⟨origin, -, -, same⟩ := origins source images answered image inside
  exact ⟨origin, same.symm⟩

/-- A node chooses two constructors of an edge, and a number the third one. -/
theorem names_chosen_edges : ∃ edge node, edges.unit? "edge" = some edge ∧
    edges.object? "node" = some node ∧
    (∃ found, NamesChosen edges.workspace.world edge [node.toValue] found ∧
      found.map ConstructorDecl.name = ["of", "to"]) ∧
    ∃ found, NamesChosen edges.workspace.world edge [.int 5] found ∧
      found.map ConstructorDecl.name = ["at"] := by
  obtain ⟨-, fits, readable, loader, isSome, two, one⟩ := edges_facts
  obtain ⟨edge, held, resolver⟩ := Option.map_eq_some_iff.mp loader
  obtain ⟨node, object⟩ := Option.isSome_iff_exists.mp isSome
  rw [held, Option.bind_some, object, Option.bind_some] at two
  rw [held, Option.bind_some] at one
  have once : edges.DefinesOnce 2 (artifactsOf edgeImages) :=
    defines_once .empty (loading (artifactsOf edgeImages)) edgeEvents (run_loading _)
      (decodable_artifactsOf fits)
  have own := (once.kept edge (.inl (Holdings.holds_of_unit? held)) resolver).1
  obtain ⟨origin, emitted⟩ := exists_edgeOrigin (mem_of_image?_artifactsOf fits own)
  have passable : edges.Passable node.toValue :=
    fun unit member => .inl (Holdings.holds_of_object? object member)
  have listed {args : List Value} {found : List ConstructorDecl} {names : List String}
      (choice : NamesChosen edges.workspace.world edge args found)
      (computed : chosenNames edges.workspace.world edge args = some names) :
      found.map ConstructorDecl.name = names := by
    rw [chosenNames, choice.chosen] at computed
    exact Option.some.inj computed
  obtain ⟨several, choice⟩ := names_chosen .empty (loading (artifactsOf edgeImages) ++ edgeEvents)
    origin emitted (World.readable_of_all readable _) (List.forall_mem_singleton.mpr passable)
    (List.forall_mem_singleton.mpr rfl)
  obtain ⟨single, choice'⟩ := names_chosen .empty (loading (artifactsOf edgeImages) ++ edgeEvents)
    origin emitted (World.readable_of_all readable _)
    (List.forall_mem_singleton.mpr (nofun : edges.Passable (.int 5)))
    (List.forall_mem_singleton.mpr rfl)
  exact ⟨edge, node, held, object, ⟨several, choice, listed choice two⟩,
    single, choice', listed choice' one⟩

end UnitForge
