import UnitForge.Proofs.Evaluation.Mixing
import UnitForge.Proofs.Loading.History

/-! # Instances in handles

Whatever is looked up, constructed and dropped, the instances in handles are unmixed, as long as
nothing is put into a host and every unit that loaders have to give was compiled without errors. -/
set_option autoImplicit false
namespace UnitForge

open Step UnitForge.Action

/-! ## Units that loaders have to give -/

namespace Environment

variable {world after : World} {env : Environment world}

/-- All units that loaders have to give were compiled without errors. -/
def Covers (env : Environment world) : Prop :=
  ∀ (id : LoaderId) loader name meaning, world.loaders[id]? = some loader →
    loader.answer? id name = some (some meaning) → (env.origin? meaning).isSome = true

theorem Covers.closed (covers : env.Covers) : env.Closed := by
  intro meaning origin _ name _ _ unit resolved _
  have means := ((resolve_run (run_eta (resolve meaning.resolver name) world)).2 _).mpr
    ⟨unit, resolved, rfl⟩
  obtain ⟨owner, loader, -, here, answer⟩ := World.meaningIn_owner means
  exact covers owner loader name _ here answer

theorem Covers.known (covers : env.Covers) (continues : world.Continues after) {unit : UnitType}
    (has : after.Has unit) : (env.origin? (.ofUnit unit)).isSome = true := by
  obtain ⟨id, next, name, there, live⟩ := has
  have inside := (List.getElem?_eq_some_iff.mp there).1
  rw [continues.count] at inside
  obtain ⟨again, found, step⟩ := continues.loaders id _ (List.getElem?_eq_getElem inside)
  cases there.symm.trans found
  refine covers id _ name _ (List.getElem?_eq_getElem inside) ((step.retains name _).mpr ?_)
  exact Loader.answer?_of_live? id live

end Environment

/-! ## What handles hold -/

variable {world before after : World}

/-- Units that their own names stand for, and instances of such units that are unmixed. -/
structure Held.Fair (after : World) (thing : Held) : Prop where
  own : ∀ unit ∈ thing.units, after.standing? unit.resolver unit.name = some unit
  unmixed : ∀ object, thing = .object object → object.toValue.Unmixed after

theorem Held.Fair.later {thing : Held} (fair : thing.Fair before)
    (sustains : ∀ unit ∈ thing.units, before.Sustains after unit) : thing.Fair after := by
  refine ⟨fun unit member => sustains unit member _ _ (fair.own unit member), ?_⟩
  intro object same
  subst same
  exact (fair.unmixed object rfl).later sustains

theorem World.Follows.fair_unit (follows : world.Follows after) {unit : UnitType}
    (has : after.Has unit) : (Held.unit unit).Fair after := by
  refine ⟨?_, nofun⟩
  intro other member
  cases List.mem_singleton.mp member
  exact follows.sound.own follows.steady has

theorem Value.Unmixed.field {object : Instance} (unmixed : object.toValue.Unmixed world)
    {value : Value} (member : value ∈ object.fields) : value.Unmixed world := by
  rw [Instance.toValue, Value.Unmixed, allUnmixed_iff] at unmixed
  obtain ⟨field, -, belongs⟩ := exists_of_forall₂ unmixed.flip value member
  exact belongs.unmixed

/-- Holdings in order, in which the hosts are those of an earlier world. -/
structure Holdings.Fair (world : World) (now : Holdings) : Prop where
  sound : now.Sound
  follows : world.Follows now.workspace.world
  fair : ∀ entry ∈ now.handles, entry.2.Fair now.workspace.world

/-! ## Quiet requests -/

/-- Whether a request leaves the hosts as they are and adds no loader. -/
def Request.isQuiet : Request → Bool
  | newHost | newLoader .. | defineImage .. | defineFromOrigin .. | register .. => false
  | _ => true

def Event.isQuiet : Event → Bool
  | ask request _ => request.isQuiet
  | drop _ => true

namespace Holdings.Fair

variable {now : Holdings} (fair : now.Fair world)
include fair

theorem own {unit : UnitType} (holds : now.Holds unit) :
    now.workspace.world.standing? unit.resolver unit.name = some unit := by
  obtain ⟨entry, member, inside⟩ := holds
  exact (fair.fair entry member).own unit inside

theorem argument {arg : Argument} {value : Value} (given : arg.value? now = some value) :
    value.Unmixed now.workspace.world := by
  cases arg with
  | held handle =>
      obtain ⟨object, held, rfl⟩ := Option.map_eq_some_iff.mp given
      exact (fair.fair _ (mem_of_object? held)).unmixed object rfl
  | _ =>
      cases given
      simp only [Value.Unmixed]

theorem arguments {args : List Argument} {values : List Value}
    (given : args.mapM (Argument.value? now) = some values) :
    ∀ value ∈ values, Environment.Given now.Holds now.workspace.world value := by
  intro value member
  obtain ⟨arg, -, found⟩ := exists_of_forall₂ (mapM_eq_some_iff.mp given) value member
  exact ⟨fun unit inside => .inl (holds_of_argument found inside), fair.argument found⟩

theorem object {object : Instance} (onward : now.workspace.world.Onward after)
    (known : Evaluation.Known now.Holds after object.toValue)
    (unmixed : object.toValue.Unmixed after) : (Held.object object).Fair after := by
  refine ⟨?_, ?_⟩
  · intro unit member
    rcases known unit member with holds | has
    · exact onward.standing? (fair.own holds)
    · exact (fair.follows.onward onward).sound.own (fair.follows.onward onward).steady has
  · intro other same
    cases same
    exact unmixed

theorem settle : now.settle.Fair world := by
  have sound : now.workspace.world.Sound now.Holds := fair.sound
  have continues : now.workspace.world.Continues now.settle.workspace.world :=
    World.continues_release sound _
  have sustains (unit : UnitType) (alive : now.Live unit) :
      now.workspace.world.Sustains now.settle.workspace.world unit := by
    refine fun loader name => World.standing?_release sound _ (List.mem_append.mpr ?_)
    exact alive.symm.imp id mem_held.mpr
  refine ⟨fair.sound.settle.1, ⟨?_, ?_, ?_⟩, ?_⟩
  · exact IsTrans.trans _ _ _ fair.follows.continues continues
  · exact World.Sound.of_known fair.sound.settle.1 fun _ => False.elim
  · intro unit member
    have member := continues.registered.mp member
    exact sustains unit (.inr member) _ _ (fair.follows.steady unit member)
  · intro entry member
    exact (fair.fair entry member).later fun unit inside =>
      sustains unit (.inl ⟨entry, member, inside⟩)

end Holdings.Fair

section Steps
variable {env : Environment world} (covers : env.Covers) (agreeing : env.Agreeing) {now : Holdings}
  (fair : now.Fair world)
include covers fair

theorem Holdings.Fair.settled {handle : String} {unit : UnitType}
    (held : now.unit? handle = some unit) :
    env.Settled unit now.workspace.world ∧
      Environment.Ready now.Holds unit now.workspace.world := by
  have holds := Holdings.holds_of_unit? held
  have own := fair.own holds
  exact ⟨⟨fair.follows, covers.known fair.follows.continues (.of_standing own), own⟩,
    ⟨fair.sound, .inl holds, own⟩⟩

include agreeing

theorem Request.leads_fair {request : Request} (quiet : request.isQuiet = true)
    {action : Action (Option Held)} (given : request.action now = some action) :
    action.Leads now.workspace.world fun after answer =>
      ∀ thing, answer = some thing → thing.Fair after := by
  have unit {after : World} (onward : now.workspace.world.Onward after) {found : UnitType}
      (has : after.Has found) : (Held.unit found).Fair after :=
    (fair.follows.onward onward).fair_unit has
  cases request with
  | newHost | newLoader | defineImage | defineFromOrigin | register => cases quiet
  | resolve place name =>
      obtain ⟨loader, -, rfl⟩ := Option.map_eq_some_iff.mp given
      apply (Evaluation.resolve_leads loader name).map
      intro after found onward stands thing same
      cases same
      exact unit onward (.of_standing stands)
  | findLocal loader name =>
      obtain ⟨loader, -, rfl⟩ := Option.map_eq_some_iff.mp given
      apply (findLocal_leads fair.follows.sound loader name).map
      intro after found onward has thing same
      cases same
      exact unit onward has
  | findDefined loader name =>
      obtain ⟨loader, -, rfl⟩ := Option.map_eq_some_iff.mp given
      apply (findDefined_leads loader name).map
      intro after found onward has thing same
      obtain ⟨found, rfl, rfl⟩ := Option.map_eq_some_iff.mp same
      exact unit onward (has found rfl)
  | construct handle args =>
      obtain ⟨target, unitHeld, given⟩ := Option.bind_eq_some_iff.mp given
      obtain ⟨values, argsHeld, given⟩ := Option.bind_eq_some_iff.mp given
      cases given
      obtain ⟨settled, ready⟩ := fair.settled covers unitHeld
      have args := fair.arguments argsHeld
      have known := Evaluation.construct_leads Evaluation.maxConstructDepth ready.knows
        fun value member => (args value member).known
      apply ((Environment.construct_unmixed covers.closed agreeing _ settled ready args).and
        known).map
      rintro after object onward ⟨unmixed, known⟩ thing same
      cases same
      exact fair.object onward known unmixed
  | constructWith handle name args =>
      obtain ⟨target, unitHeld, given⟩ := Option.bind_eq_some_iff.mp given
      obtain ⟨values, argsHeld, given⟩ := Option.bind_eq_some_iff.mp given
      cases given
      obtain ⟨settled, ready⟩ := fair.settled covers unitHeld
      have args := fair.arguments argsHeld
      have known := Evaluation.constructWith_leads Evaluation.maxConstructDepth ready.knows name
        fun value member => (args value member).known
      apply ((Environment.constructWith_unmixed covers.closed agreeing _ settled ready args
        name).and known).map
      rintro after object onward ⟨unmixed, known⟩ thing same
      cases same
      exact fair.object onward known unmixed
  | field handle name =>
      obtain ⟨object, held, rfl⟩ := Option.map_eq_some_iff.mp given
      refine .pure ?_
      intro thing same
      obtain ⟨inner, found, rfl⟩ := Option.map_eq_some_iff.mp same
      have whole := fair.fair _ (Holdings.mem_of_object? held)
      refine ⟨fun other member => whole.own other (Instance.mem_units_of_get? found member), ?_⟩
      intro other same
      cases same
      exact (whole.unmixed object rfl).field (Instance.mem_fields_of_get? found)
  | unitOf handle =>
      obtain ⟨object, held, rfl⟩ := Option.map_eq_some_iff.mp given
      refine .pure ?_
      intro thing same
      cases same
      refine ⟨?_, nofun⟩
      intro other member
      cases List.mem_singleton.mp member
      exact (fair.fair _ (Holdings.mem_of_object? held)).own _ List.mem_cons_self

theorem Holdings.Fair.step {event : Event} (quiet : event.isQuiet = true) :
    (now.step event).Fair world := by
  cases event with
  | drop handle =>
      have sound : now.workspace.world.Sound now.Holds := fair.sound
      refine Holdings.Fair.settle ⟨?_, fair.follows, ?_⟩
      · apply sound.of_known
        rintro unit ⟨entry, member, inside⟩
        refine .inl ?_
        exact ⟨entry, (List.mem_filter.mp member).1, inside⟩
      · intro entry member
        exact fair.fair entry (List.mem_filter.mp member).1
  | ask request handle =>
      cases given : request.action now with
      | none =>
          rw [Holdings.step_unasked given]
          exact fair
      | some action =>
          rcases run : action now.workspace.world with ⟨answer, after⟩
          rw [Holdings.step_ask given run]
          obtain ⟨onward, gives⟩ :=
            (Request.leads_fair covers agreeing fair quiet given).of_run run
          obtain ⟨handles, same, from_⟩ := Holdings.keep_eq handle answer after now
          rw [same]
          refine Holdings.Fair.settle ⟨?_, fair.follows.onward onward, ?_⟩
          · have sound := (Request.advances given fair.sound answer after run).2
            apply sound.of_known
            rintro unit ⟨entry, member, inside⟩
            refine .inl ?_
            rcases from_ entry member with old | rfl
            · exact .inl ⟨entry, old, inside⟩
            · exact .inr inside
          · intro entry member
            rcases from_ entry member with old | rfl
            · exact (fair.fair entry old).later fun unit _ => onward.sustains unit
            · exact gives _ rfl _ rfl

theorem Holdings.Fair.run {events : List Event} (quiet : ∀ event ∈ events, event.isQuiet = true) :
    (now.run events).Fair world := by
  induction events generalizing now with
  | nil => exact fair
  | cons event rest ih =>
      exact ih (fair.step covers agreeing (quiet event List.mem_cons_self))
        fun other member => quiet other (List.mem_cons_of_mem _ member)

end Steps

/-! ## Instances never mix loaders -/

namespace Holdings

def Unmixed (now : Holdings) : Prop :=
  ∀ handle object, (handle, Held.object object) ∈ now.handles →
    object.toValue.Unmixed now.workspace.world

/-- Units that are alive are those that their names stand for. -/
def Steady (now : Holdings) : Prop :=
  ∀ unit, now.Live unit → now.workspace.world.standing? unit.resolver unit.name = some unit

end Holdings

/-- Whatever is looked up, constructed from what is held, taken out of instances and dropped, in
whatever order: in each field of a unit type, all the way down, the instances in handles have null
or an instance of the very unit that the type stands for to the owner of the field. All that loaders
have to give was compiled without errors, the loaders agree on the units of parameters, and no unit
was replaced in a host. -/
theorem Holdings.run_unmixed (now : Holdings) (sound : now.Sound) (steady : now.Steady)
    (unmixed : now.Unmixed) (env : Environment now.workspace.world) (covers : env.Covers)
    (agreeing : env.Agreeing) {events : List Event}
    (quiet : ∀ event ∈ events, event.isQuiet = true) : (now.run events).Unmixed := by
  have fair : now.Fair now.workspace.world := by
    constructor
    case sound => exact sound
    case follows =>
      refine ⟨Std.Refl.refl _, World.Sound.of_known sound fun _ => False.elim, ?_⟩
      intro unit member
      exact steady unit (.inr member)
    case fair =>
      intro entry member
      constructor
      · intro unit inside
        exact steady unit (.inl ⟨entry, member, inside⟩)
      · rintro object same
        exact unmixed entry.1 object (same ▸ member)
  intro handle object member
  have last := (fair.run covers agreeing quiet).fair _ member
  exact last.unmixed object rfl

/-! ## A loader over a host -/

def ArtifactTable.ofImages (images : List UnitImage) : ArtifactTable :=
  ⟨images.map fun image => { name := image.name, kind := .unit, bytes := image.encode }⟩

/-- A world with a host, which has units, and a loader over it, which has artifacts. -/
def World.stacked (units : List UnitType) (artifacts : ArtifactTable) : World where
  loaders := [.host (units.map fun unit => (unit.name, unit)),
    .compiled World.systemHost artifacts []]
  nextUnit := units.length
  nextInstance := 0

def Holdings.stacked (units : List UnitType) (artifacts : ArtifactTable) : Holdings where
  workspace := { Workspace.start .empty with world := World.stacked units artifacts }
  handles := ("over", .loader 1) :: units.map fun unit => (unit.name, .unit unit)

namespace Environment

theorem mem_unitsOf {images : List UnitImage} {unit : UnitType} (member : unit ∈ unitsOf images) :
    unit.resolver = World.systemHost ∧ (unitsOf images)[unit.id]? = some unit := by
  obtain ⟨⟨image, index⟩, inside, rfl⟩ := List.mem_map.mp member
  refine ⟨rfl, ?_⟩
  rw [unitsOf, List.getElem?_map, List.getElem?_zipIdx, List.mk_mem_zipIdx_iff_getElem?.mp inside]
  simp

theorem mem_of_lookup {units : List UnitType} {name : String} {unit : UnitType}
    (found : (units.map fun unit => (unit.name, unit)).lookup name = some unit) :
    unit ∈ units := by
  obtain ⟨front, rest, whole, -⟩ := List.lookup_eq_some_iff.mp found
  have member : (name, unit) ∈ units.map fun unit => (unit.name, unit) :=
    whole ▸ List.mem_append_right _ List.mem_cons_self
  obtain ⟨other, inside, same⟩ := List.mem_map.mp member
  cases same
  exact inside

section Stacked
variable {units : List UnitType} {artifacts : ArtifactTable}

theorem loader_stacked {id : LoaderId} {loader : Loader}
    (here : (World.stacked units artifacts).loaders[id]? = some loader) :
    id = World.systemHost ∧ loader = .host (units.map fun unit => (unit.name, unit)) ∨
      id = 1 ∧ loader = .compiled World.systemHost artifacts [] := by
  match id, here with
  | 0, rfl => exact .inl ⟨rfl, rfl⟩
  | 1, rfl => exact .inr ⟨rfl, rfl⟩

theorem mem_of_knows {unit : UnitType} (known : (World.stacked units artifacts).Knows
    (Holdings.stacked units artifacts).Holds unit) : unit ∈ units := by
  rcases known with ⟨entry, member, inside⟩ | ⟨id, loader, name, here, live⟩
  · rcases List.mem_cons.mp member with rfl | later
    · cases inside
    · obtain ⟨other, there, rfl⟩ := List.mem_map.mp later
      cases List.mem_singleton.mp inside
      exact there
  · rcases loader_stacked here with ⟨rfl, rfl⟩ | ⟨rfl, rfl⟩
    · exact mem_of_lookup live
    · cases live

theorem owner?_stacked {loader : LoaderId} (inside : loader < 2) {name : String}
    (absent : artifacts.get? name = none) :
    (World.stacked units artifacts).owner? loader name = some World.systemHost := by
  have left : (Loader.compiled World.systemHost artifacts []).leaves name = true :=
    Loader.leaves_compiled.mpr ⟨rfl, absent⟩
  match loader, inside with
  | 0, _ => rfl
  | 1, _ =>
      change (World.stacked units artifacts).ownerIn name [1, World.systemHost] = _
      exact if_pos left

theorem resolve_stacked {loader : LoaderId} (inside : loader < 2) {name : String}
    (absent : artifacts.get? name = none) {unit : UnitType}
    (found : (units.map fun unit => (unit.name, unit)).lookup name = some unit) :
    (resolve loader name (World.stacked units artifacts)).1 = .ok unit := by
  rw [resolve_owner, owner?_stacked inside absent]
  dsimp only
  rw [ask_host (World.stacked units artifacts).loaders.getElem?_cons_zero, found]

end Stacked

section Sound
variable {hosted : List UnitImage} (distinct : ((unitsOf hosted).map UnitType.name).Nodup)
  (artifacts : ArtifactTable)
include distinct

theorem stacked_sound : (Holdings.stacked (unitsOf hosted) artifacts).Sound := by
  refine ⟨?_, ?_, ?_, ?_⟩
  · intro id loader here
    rcases loader_stacked here with ⟨rfl, rfl⟩ | ⟨rfl, rfl⟩
    · intro entry member
      obtain ⟨unit, inside, rfl⟩ := List.mem_map.mp member
      exact ⟨rfl, lookup_unit distinct inside⟩
    · exact nofun
  · intro unit known
    obtain ⟨resolver, -⟩ := mem_unitsOf (mem_of_knows known)
    rw [World.Keeps, resolver]
    exact ⟨_, rfl, trivial⟩
  · intro unit known
    obtain ⟨-, here⟩ := mem_unitsOf (mem_of_knows known)
    exact (List.getElem?_eq_some_iff.mp here).1
  · intro unit other known known' same
    have here := (mem_unitsOf (mem_of_knows known)).2
    rw [same, (mem_unitsOf (mem_of_knows known')).2] at here
    exact (Option.some.inj here).symm

theorem stacked_steady : (Holdings.stacked (unitsOf hosted) artifacts).Steady := by
  intro unit live
  have member := mem_of_knows ((stacked_sound distinct artifacts).knows live)
  rw [(mem_unitsOf member).1]
  exact World.standing?_of_live rfl (lookup_unit distinct member)

end Sound

theorem stacked_unmixed (units : List UnitType) (artifacts : ArtifactTable) :
    (Holdings.stacked units artifacts).Unmixed := by
  intro handle object member
  rcases List.mem_cons.mp member with same | later
  · cases same
  · obtain ⟨unit, -, same⟩ := List.mem_map.mp later
    cases same

/-- Images for a host and others for a loader over it. They refer to themselves and to what the host
has. -/
structure Stack (hosted own : List UnitImage) : Prop where
  distinct : ((hosted ++ own).map UnitImage.name).Nodup
  refers : ∀ image ∈ hosted ++ own, ∀ name ∈ image.references,
    name = image.name ∨ name ∈ hosted.map UnitImage.name
  fits : ∀ image ∈ own, image.Fits

namespace Stack
variable {hosted own : List UnitImage}

def place (hosted : List UnitImage) (image : UnitImage) : LoaderId :=
  if image.name ∈ hosted.map UnitImage.name then World.systemHost else 1

theorem place_lt (image : UnitImage) : place hosted image < 2 := by
  unfold place
  split_ifs <;> decide

theorem place_hosted {image : UnitImage} (member : image ∈ hosted) :
    place hosted image = World.systemHost :=
  if_pos (List.mem_map_of_mem member)

theorem names_unitsOf : (unitsOf hosted).map UnitType.name = hosted.map UnitImage.name := by
  conv_rhs => rw [← image_unitsOf hosted, List.map_map]
  rfl

theorem image_mem {unit : UnitType} (member : unit ∈ unitsOf hosted) : unit.image ∈ hosted := by
  rw [← image_unitsOf hosted]
  exact List.mem_map_of_mem member

theorem ofUnit_eq {unit : UnitType} (member : unit ∈ unitsOf hosted) : Meaning.ofUnit unit =
    { image := unit.image, resolver := place hosted unit.image } := by
  rw [ofUnit_unitsOf member, place_hosted (image_mem member)]

theorem get?_ofImages {name : String} {output : OutputUnit}
    (given : (ArtifactTable.ofImages own).get? name = some output) :
    ∃ image ∈ own, image.name = name ∧
      output = { name := image.name, kind := .unit, bytes := image.encode } := by
  have named := List.find?_some given
  obtain ⟨image, member, rfl⟩ := List.mem_map.mp (List.mem_of_find?_eq_some given)
  exact ⟨image, member, of_decide_eq_true named, rfl⟩

variable (stack : Stack hosted own)
include stack

theorem apart {image other : UnitImage} (below : image ∈ hosted) (above : other ∈ own) :
    image.name ≠ other.name := by
  have distinct := stack.distinct
  rw [List.map_append, List.nodup_append] at distinct
  exact distinct.2.2 _ (List.mem_map_of_mem below) _ (List.mem_map_of_mem above)

theorem nodup_units : ((unitsOf hosted).map UnitType.name).Nodup := by
  have distinct := stack.distinct
  rw [List.map_append, List.nodup_append] at distinct
  rw [names_unitsOf]
  exact distinct.1

theorem place_own {image : UnitImage} (member : image ∈ own) : place hosted image = 1 := by
  apply if_neg
  intro inside
  obtain ⟨other, below, same⟩ := List.mem_map.mp inside
  exact stack.apart below member same

theorem absent {name : String} (inside : name ∈ hosted.map UnitImage.name) :
    (ArtifactTable.ofImages own).get? name = none := by
  obtain ⟨other, below, rfl⟩ := List.mem_map.mp inside
  apply Option.eq_none_iff_forall_ne_some.mpr
  intro output given
  obtain ⟨image, above, same, -⟩ := get?_ofImages given
  exact stack.apart below above same.symm

theorem found {loader : LoaderId} (inside : loader < 2) {name : String}
    (known : name ∈ hosted.map UnitImage.name) : ∃ unit ∈ unitsOf hosted, unit.name = name ∧
      (resolve loader name (World.stacked (unitsOf hosted) (.ofImages own))).1 = .ok unit := by
  have absent := stack.absent known
  rw [← names_unitsOf] at known
  obtain ⟨unit, member, rfl⟩ := List.mem_map.mp known
  exact ⟨unit, member, rfl, resolve_stacked inside absent (lookup_unit stack.nodup_units member)⟩

theorem foreign {image : UnitImage} (member : image ∈ hosted ++ own) {name : String}
    (referenced : name ∈ image.references) (other : name ≠ image.name) :
    name ∈ hosted.map UnitImage.name :=
  (stack.refers image member name referenced).resolve_left other

theorem references_subset {image : UnitImage} (member : image ∈ hosted ++ own) :
    image.references ⊆ (hosted ++ own).map UnitImage.name := by
  intro name referenced
  rw [List.map_append]
  rcases stack.refers image member name referenced with rfl | inside
  · rw [← List.map_append]
    exact List.mem_map_of_mem member
  · exact List.mem_append_left _ inside

/-- Whatever an image refers to is found where it is. -/
theorem placed {image other : UnitImage} (member : image ∈ hosted ++ own)
    (otherMember : other ∈ hosted ++ own) (referenced : other.name ∈ image.references)
    (ne : other.name ≠ image.name) : ∃ unit,
      (resolve (place hosted image) other.name
        (World.stacked (unitsOf hosted) (.ofImages own))).1 = .ok unit ∧
      Meaning.ofUnit unit = { image := other, resolver := place hosted other } := by
  obtain ⟨unit, inside, named, resolved⟩ :=
    stack.found (place_lt image) (stack.foreign member referenced ne)
  have same : unit.image = other := List.inj_on_of_nodup_map stack.distinct
    (List.mem_append_left _ (image_mem inside)) otherMember named
  refine ⟨unit, resolved, ?_⟩
  rw [ofUnit_eq inside, same]

variable {env : Environment (World.stacked (unitsOf hosted) (.ofImages own))}
  (known : ∀ meaning, (env.origin? meaning).isSome = true ↔
    meaning.image ∈ hosted ++ own ∧ meaning.resolver = place hosted meaning.image)
include known

theorem covers : env.Covers := by
  intro id loader name meaning here answer
  apply (known meaning).mpr
  rcases loader_stacked here with ⟨rfl, rfl⟩ | ⟨rfl, rfl⟩
  · obtain ⟨unit, live, rfl⟩ := Option.map_eq_some_iff.mp (Option.some.inj answer)
    have member := mem_of_lookup live
    rw [ofUnit_eq member]
    exact ⟨List.mem_append_left _ (image_mem member), rfl⟩
  · rw [answer?_compiled, List.lookup_nil] at answer
    obtain ⟨output, given, means⟩ := Option.map_eq_some_iff.mp answer
    obtain ⟨image, member, rfl, rfl⟩ := get?_ofImages given
    rw [Meaning.ofArtifact?_eq, OutputUnit.read, if_neg (not_not_intro rfl),
      UnitImage.decode_encode (stack.fits image member)] at means
    cases means
    exact ⟨List.mem_append_right _ member, (stack.place_own member).symm⟩

theorem agreeing : env.Agreeing := by
  intro caller origin reached name referenced ne callee resolved other parameter
  obtain ⟨member, here⟩ := (known caller).mp (Option.isSome_of_eq_some reached)
  have inside : caller.resolver < 2 := by
    rw [here]
    exact place_lt caller.image
  obtain ⟨unit, below, -, again⟩ := stack.found inside (stack.foreign member referenced ne)
  obtain rfl : unit = callee := Except.ok.inj (again.symm.trans resolved)
  have own : unit.image ∈ hosted := image_mem below
  have seen : other ∈ unit.image.references := parameterUnits_subset unit.image parameter
  have hostKnows : other ∈ hosted.map UnitImage.name := by
    rcases stack.refers unit.image (List.mem_append_left _ own) other seen with rfl | inside
    · exact List.mem_map_of_mem own
    · exact inside
  rw [(mem_unitsOf below).1, owner?_stacked inside (stack.absent hostKnows),
    owner?_stacked (by decide) (stack.absent hostKnows)]

end Stack

/-! ## A source of three structs -/

/-- A source of three structs. An instance of the first is passed to a constructor of the second. -/
def boxTask : CompilationTask where
  options := []
  units := [{
    name := "demo.C"
    text := "struct A \x7b n: i64 \x7d impl A \x7b fn of(n: i64) -> A \x7b A \x7b n: n \x7d \x7d \x7d " ++
      "struct B \x7b a: A \x7d impl B \x7b fn wrap(a: A) -> B \x7b B \x7b a: a \x7d \x7d \x7d " ++
      "struct C \x7b b: B \x7d impl C \x7b fn make(n: i64) -> C \x7b " ++
      "C \x7b b: B::wrap(A::of(n)) \x7d \x7d \x7d" }]

def boxAnswers : List (SourceUnit × List UnitImage) :=
  ((UnitCompiler.prepare memory boxTask (.start (.ofInner (.ofTree .empty)))).1).getD []

def boxHosted : List UnitImage :=
  (boxAnswers.flatMap Prod.snd).take 2

def boxOwn : List UnitImage :=
  (boxAnswers.flatMap Prod.snd).drop 2

theorem box_facts :
    (UnitCompiler.compile memory boxTask (.ofInner (.ofTree .empty))).1.succeeded = true ∧
    (boxHosted ++ boxOwn).map UnitImage.name = ["demo.A", "demo.B", "demo.C"] ∧
    (∀ image ∈ boxHosted ++ boxOwn, (∀ ctor ∈ image.constructors, ctor.Numbered) ∧
      ∀ name ∈ image.references, name = image.name ∨ name ∈ boxHosted.map UnitImage.name) ∧
    ∀ image ∈ boxOwn, image.Fits := by
  decide +kernel

theorem boxStack : Stack boxHosted boxOwn := by
  obtain ⟨-, names, refers, fits⟩ := box_facts
  refine ⟨?_, fun image member => (refers image member).2, fits⟩
  rw [names]
  decide

theorem exists_boxEnvironment :
    ∃ env : Environment (World.stacked (unitsOf boxHosted) (.ofImages boxOwn)),
      env.Covers ∧ env.Agreeing := by
  obtain ⟨succeeded, -, numbered, -⟩ := box_facts
  obtain ⟨answers, prepared, preparing, sources, -⟩ := UnitCompiler.exists_origin succeeded
  have known : boxAnswers = answers := by
    rw [boxAnswers, preparing]
    rfl
  match answers, sources with
  | [(source, images)], _ =>
      have whole : images = boxHosted ++ boxOwn := by
        rw [boxHosted, boxOwn, List.take_append_drop, known, List.flatMap_singleton]
      rw [whole] at preparing
      obtain ⟨env, -, inside⟩ := exists_environment (Stack.place boxHosted) succeeded preparing
        List.mem_cons_self (fun image member => (numbered image member).1)
        (fun _ => boxStack.references_subset) fun _ member _ => boxStack.placed member
      exact ⟨env, boxStack.covers inside, boxStack.agreeing inside⟩

end Environment

open Environment

def boxProcess : Holdings :=
  .stacked (unitsOf boxHosted) (.ofImages boxOwn)

/-- The third struct is constructed and its unit dropped; what is taken out of the instance is
passed to a constructor once more. -/
def boxEvents : List Event :=
  [.ask (.resolve "over" "demo.C") (some "C"), .ask (.construct "C" [.int 7]) (some "made"),
    .drop "C", .ask (.field "made" "b") (some "box"), .ask (.field "box" "a") (some "content"),
    .ask (.constructWith "demo.B" "wrap" [.held "content"]) (some "again")]

/-- The code of a loader's unit passes an instance of the host's first unit to a constructor of its
second one. -/
theorem Holdings.run_unmixed_box : (boxProcess.run boxEvents).Unmixed ∧
    ∀ entry ∈ [("made", "demo.C", 1), ("box", "demo.B", 0), ("content", "demo.A", 0),
      ("again", "demo.B", 0)],
      ((boxProcess.run boxEvents).object? entry.1).map
        (fun object => (object.unit.name, object.unit.resolver)) = some entry.2 := by
  obtain ⟨env, covers, agreeing⟩ := exists_boxEnvironment
  refine ⟨Holdings.run_unmixed boxProcess (stacked_sound boxStack.nodup_units _)
    (stacked_steady boxStack.nodup_units _) (stacked_unmixed _ _) env covers agreeing (by decide),
    ?_⟩
  decide +kernel

end UnitForge
