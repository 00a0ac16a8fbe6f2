import UnitForge.Holdings
import UnitForge.Proofs.Evaluation.Known
import UnitForge.Proofs.Loading.Release

/-! # Histories

What can be done with loaders, units and instances that are held by name: making hosts and loaders,
giving units to hosts, looking names up, constructing, looking into instances, and letting go of
anything at any time. Whatever is done, in whatever order, the books of the loaders are in order
afterwards, and the loader of a compilation goes on to answer as it did. -/
set_option autoImplicit false
namespace UnitForge

open Step UnitForge.Action

/-! ## Requests -/

inductive Argument where
  | null
  | int (value : Int64)
  | float (value : Binary64)
  | bool (value : Bool)
  | str (value : String)
  | held (handle : String)
  deriving Repr

/-- What loaders, units and instances can be asked for. They are told by their handles. -/
inductive Request where
  | newHost
  | newLoader (parent : String) (artifacts : ArtifactTable)
  | defineImage (host : String) (image : UnitImage) (origin : Option Path)
  | defineFromOrigin (host : String) (origin : Path) (name : String)
  | register (host unit : String)
  | resolve (place name : String)
  | findLocal (loader name : String)
  | findDefined (loader name : String)
  | construct (unit : String) (args : List Argument)
  | constructWith (unit name : String) (args : List Argument)
  | field (object name : String)
  | unitOf (object : String)
  deriving Repr

/-- A request whose answer may be put into a handle, or a handle that is let go of. -/
inductive Event where
  | ask (request : Request) (handle : Option String)
  | drop (handle : String)
  deriving Repr

namespace Holdings

/-- The loader in a handle. A unit stands for the loader that its names are looked up by. -/
def loader? (holdings : Holdings) (handle : String) : Option LoaderId :=
  (holdings.get? handle).bind Held.loader?

def host? (holdings : Holdings) (handle : String) : Option LoaderId :=
  (holdings.loader? handle).filter fun id =>
    match holdings.workspace.world.loaders[id]? with
    | some (.host _) => true
    | _ => false

def unit? (holdings : Holdings) (handle : String) : Option UnitType :=
  match holdings.get? handle with
  | some (.unit unit) => some unit
  | _ => none

def object? (holdings : Holdings) (handle : String) : Option Instance :=
  match holdings.get? handle with
  | some (.object object) => some object
  | _ => none

end Holdings

def Argument.value? (holdings : Holdings) : Argument → Option Value
  | null => some .null
  | int value => some (.int value)
  | float value => some (.float value)
  | bool value => some (.bool value)
  | str value => some (.str value)
  | held handle => (holdings.object? handle).map Instance.toValue

def Request.action (holdings : Holdings) : Request → Option (Action (Option Held))
  | newHost => some ((fun id => some (.loader id)) <$> Action.newHost)
  | newLoader parent artifacts =>
    (holdings.loader? parent).map fun parent =>
      (fun id => some (.loader id)) <$> Action.newLoader parent artifacts
  | defineImage host image origin =>
    (holdings.host? host).map fun host =>
      (fun unit => some (.unit unit)) <$> Action.defineImage host image origin
  | defineFromOrigin host origin name =>
    (holdings.host? host).map fun host =>
      (fun unit => some (.unit unit)) <$>
        Action.defineFromOrigin holdings.workspace.tree host origin name
  | register host unit => do
    let host ← holdings.host? host
    let unit ← holdings.unit? unit
    return (fun earlier => earlier.map .unit) <$> Action.register host unit
  | resolve place name =>
    (holdings.loader? place).map fun loader =>
      (fun unit => some (.unit unit)) <$> Action.resolve loader name
  | findLocal loader name =>
    (holdings.loader? loader).map fun loader =>
      (fun unit => some (.unit unit)) <$> Action.findLocal loader name
  | findDefined loader name =>
    (holdings.loader? loader).map fun loader =>
      (fun found => found.map .unit) <$> Action.findDefined loader name
  | construct unit args => do
    let unit ← holdings.unit? unit
    let args ← args.mapM (Argument.value? holdings)
    return (fun object => some (.object object)) <$>
      Evaluation.construct Evaluation.maxConstructDepth unit args
  | constructWith unit name args => do
    let unit ← holdings.unit? unit
    let args ← args.mapM (Argument.value? holdings)
    return (fun object => some (.object object)) <$>
      Evaluation.constructWith Evaluation.maxConstructDepth unit name args
  | field object name =>
    (holdings.object? object).map fun object =>
      return ((object.get? name).bind Value.instance?).map .object
  | unitOf object =>
    (holdings.object? object).map fun object => return some (.unit object.unit)

namespace Holdings

/-- Puts what a request gave into a handle, if there is one for it, and lets go of every unit that
nothing holds any more. -/
def keep (handle : Option String) (answer : Except Error (Option Held)) (world : World)
    (holdings : Holdings) : Holdings :=
  let next := { holdings with workspace := { holdings.workspace with world } }
  match handle, answer with
  | some handle, .ok (some thing) => next.hold handle thing
  | _, _ => next.settle

def step (holdings : Holdings) : Event → Holdings
  | .drop handle => holdings.drop handle
  | .ask request handle =>
    match request.action holdings with
    | none => holdings
    | some action =>
      let (answer, world) := action holdings.workspace.world
      holdings.keep handle answer world

def run (holdings : Holdings) (events : List Event) : Holdings :=
  events.foldl step holdings

theorem step_unasked {holdings : Holdings} {request : Request}
    (given : request.action holdings = none) (handle : Option String) :
    holdings.step (.ask request handle) = holdings := by
  simp only [step, given]

theorem step_ask {holdings : Holdings} {request : Request} {action : Action (Option Held)}
    (given : request.action holdings = some action) {answer : Except Error (Option Held)}
    {world : World} (run : action holdings.workspace.world = (answer, world))
    (handle : Option String) :
    holdings.step (.ask request handle) = holdings.keep handle answer world := by
  simp only [step, given, run]

theorem run_append (holdings : Holdings) (earlier later : List Event) :
    holdings.run (earlier ++ later) = (holdings.run earlier).run later :=
  List.foldl_append

/-! ## Holders -/

def Holds (holdings : Holdings) (unit : UnitType) : Prop :=
  ∃ entry ∈ holdings.handles, unit ∈ entry.2.units

def Live (holdings : Holdings) (unit : UnitType) : Prop :=
  holdings.Holds unit ∨ unit ∈ holdings.workspace.world.registered

variable {holdings : Holdings} {handle : String}

theorem mem_of_get? {thing : Held} (held : holdings.get? handle = some thing) :
    (handle, thing) ∈ holdings.handles := by
  obtain ⟨front, rest, whole, -⟩ := List.lookup_eq_some_iff.mp held
  exact whole ▸ List.mem_append_right _ List.mem_cons_self

theorem mem_of_unit? {unit : UnitType} (held : holdings.unit? handle = some unit) :
    (handle, .unit unit) ∈ holdings.handles := by
  unfold unit? at held
  split at held
  · rename_i found same
    cases held
    exact mem_of_get? same
  · cases held

theorem mem_of_object? {object : Instance} (held : holdings.object? handle = some object) :
    (handle, .object object) ∈ holdings.handles := by
  unfold object? at held
  split at held
  · rename_i found same
    cases held
    exact mem_of_get? same
  · cases held

theorem holds_of_unit? {unit : UnitType} (held : holdings.unit? handle = some unit) :
    holdings.Holds unit :=
  ⟨_, mem_of_unit? held, List.mem_cons_self⟩

theorem holds_of_object? {object : Instance} (held : holdings.object? handle = some object)
    {unit : UnitType} (member : unit ∈ object.toValue.units) : holdings.Holds unit :=
  ⟨_, mem_of_object? held, member⟩

theorem holds_of_argument {arg : Argument} {value : Value}
    (given : arg.value? holdings = some value) {unit : UnitType} (member : unit ∈ value.units) :
    holdings.Holds unit := by
  cases arg with
  | held handle =>
      obtain ⟨object, held, rfl⟩ := Option.map_eq_some_iff.mp given
      exact holds_of_object? held member
  | _ =>
      cases given
      cases member

theorem holds_of_arguments {args : List Argument} {values : List Value}
    (given : args.mapM (Argument.value? holdings) = some values) {value : Value}
    (member : value ∈ values) {unit : UnitType} (inside : unit ∈ value.units) :
    holdings.Holds unit := by
  obtain ⟨arg, -, found⟩ := exists_of_forall₂ (mapM_eq_some_iff.mp given) value member
  exact holds_of_argument found inside

theorem exists_of_host? {id : LoaderId} (held : holdings.host? handle = some id) :
    ∃ units, holdings.workspace.world.loaders[id]? = some (.host units) := by
  obtain ⟨-, isHost⟩ := Option.filter_eq_some_iff.mp held
  split at isHost
  · rename_i units here
    exact ⟨units, here⟩
  · cases isHost

end Holdings

/-! ## What a request leads to -/

def gained : Except Error (Option Held) → List UnitType
  | .ok (some thing) => thing.units
  | _ => []

/-- From a world in order, a step leads to one in order, in which the loaders of compilations answer
as they did. -/
def Action.Advances (step : Action (Option Held)) (held : UnitType → Prop) (before : World) :
    Prop :=
  ∀ answer after, step before = (answer, after) →
    before.Evolves after ∧ after.Sound fun unit => held unit ∨ unit ∈ gained answer

namespace Action

variable {α : Type} {held : UnitType → Prop} {before : World}

theorem advances_of_sound {step : Action (Option Held)}
    (each : ∀ answer after, step before = (answer, after) →
      before.Evolves after ∧ after.Sound held ∧ ∀ unit ∈ gained answer, after.Knows held unit) :
    step.Advances held before := by
  intro answer after run
  obtain ⟨evolves, sound, known⟩ := each answer after run
  refine ⟨evolves, sound.of_known ?_⟩
  intro unit here
  rcases here with holds | member
  · exact .inl holds
  · exact known unit member

theorem advances_of_leads {step : Action α} {thing : α → Option Held} (sound : before.Sound held)
    (leads : step.Leads before fun after value =>
      ∀ unit ∈ gained (.ok (thing value)), after.Knows held unit) :
    (thing <$> step : Action (Option Held)).Advances held before := by
  apply advances_of_sound
  intro answer after run
  obtain ⟨onward, known⟩ := (leads.map (R := fun after found =>
    ∀ unit ∈ gained (.ok found), after.Knows held unit) fun _ _ _ known => known).of_run run
  refine ⟨onward.continues.evolves, onward.sound held sound, ?_⟩
  intro unit member
  cases answer with
  | error fault => cases member
  | ok found => exact known found rfl unit member

theorem advances_pure {thing : Option Held} (sound : before.Sound held)
    (known : ∀ unit ∈ gained (.ok thing), held unit) :
    (pure thing : Action (Option Held)).Advances held before := by
  apply advances_of_sound
  intro answer after run
  cases run
  exact ⟨Std.Refl.refl _, sound, fun unit member => .inl (known unit member)⟩

/-! ### Loaders -/

theorem advances_newHost (sound : before.Sound held) :
    ((fun id => some (.loader id)) <$> newHost : Action (Option Held)).Advances held before := by
  apply advances_of_sound
  intro answer after run
  cases run
  exact ⟨before.evolves_extend _, sound.extend World.blank_host, nofun⟩

theorem advances_newLoader (sound : before.Sound held) (parent : LoaderId)
    (artifacts : ArtifactTable) :
    ((fun id => some (.loader id)) <$> newLoader parent artifacts :
      Action (Option Held)).Advances held before := by
  apply advances_of_sound
  intro answer after run
  cases run
  exact ⟨before.evolves_extend _, sound.extend (World.blank_compiled parent artifacts), nofun⟩

/-! ### Hosts -/

theorem defineImage_run (host : LoaderId) (image : UnitImage) (origin : Option Path) :
    defineImage host image origin before =
      let unit : UnitType := { id := before.nextUnit, image, origin, resolver := host }
      (.ok unit, { before with
        loaders := before.loaders.modify host (World.hosting unit)
        nextUnit := before.nextUnit + 1 }) :=
  rfl

section Hosts
variable {host : LoaderId} {units : List (String × UnitType)}
  (here : before.loaders[host]? = some (.host units))
include here

theorem register_run (unit : UnitType) : register host unit before =
    (.ok (units.lookup unit.name),
      { before with loaders := before.loaders.modify host (World.hosting unit) }) := by
  have known : before.hostUnits host = units := by
    unfold World.hostUnits
    rw [here]
  rw [← known]
  rfl

theorem advances_register (sound : before.Sound held) {unit : UnitType} (holds : held unit) :
    ((fun earlier => earlier.map .unit) <$> register host unit :
      Action (Option Held)).Advances held before := by
  intro answer after run
  rcases except_map_run run with ⟨fault, last, failed, same⟩ | ⟨earlier, last, gave, same⟩
  · rw [register_run here] at failed
    cases failed
  · rw [register_run here] at gave
    cases gave
    cases same
    refine ⟨World.evolves_hosting here rfl, ?_⟩
    -- The unit that had the name is alive in the world before only, unless it is held.
    have known : before.Sound fun other =>
        held other ∨ other ∈ gained (.ok ((units.lookup unit.name).map .unit)) := by
      apply sound.of_known
      intro other known
      rcases known with holds | member
      · exact .inl holds
      · cases found : units.lookup unit.name with
        | none =>
            rw [found] at member
            cases member
        | some earlier =>
            rw [found] at member
            cases List.mem_singleton.mp member
            exact .inr ⟨host, _, unit.name, here, found⟩
    exact known.hosting here rfl rfl (.inl holds)

theorem advances_defineImage (sound : before.Sound held) (image : UnitImage)
    (origin : Option Path) :
    ((fun unit => some (.unit unit)) <$> defineImage host image origin :
      Action (Option Held)).Advances held before := by
  intro answer after run
  rcases except_map_run run with ⟨fault, last, failed, same⟩ | ⟨unit, last, gave, same⟩
  · rw [defineImage_run] at failed
    cases failed
  · rw [defineImage_run] at gave
    cases gave
    cases same
    refine ⟨World.evolves_hosting here rfl, ?_⟩
    let unit : UnitType := { id := before.nextUnit, image, origin, resolver := host }
    have kept : before.Keeps unit := ⟨_, here, trivial⟩
    have fresh := sound.newUnit kept rfl
    have there : { before with nextUnit := before.nextUnit + 1 }.loaders[host]? =
        some (.host units) := here
    have given : { before with
        loaders := before.loaders.modify host (World.hosting unit)
        nextUnit := before.nextUnit + 1 }.Sound fun other => held other ∨ other = unit :=
      fresh.hosting there rfl rfl (.inr rfl)
    apply given.of_known
    intro other known
    refine .inl ?_
    rcases known with holds | member
    · exact .inl holds
    · exact .inr (List.mem_singleton.mp member)

theorem advances_defineFromOrigin (sound : before.Sound held) (tree : FileTree) (origin : Path)
    (name : String) :
    ((fun unit => some (.unit unit)) <$> defineFromOrigin tree host origin name :
      Action (Option Held)).Advances held before := by
  have failing (fault : Error) :
      ((fun unit => some (.unit unit)) <$> (throw fault : Action UnitType) :
        Action (Option Held)).Advances held before :=
    advances_of_leads sound .throw
  unfold defineFromOrigin
  split
  · exact failing _
  · exact failing _
  · split
    · exact failing _
    · exact advances_defineImage here sound _ _

end Hosts

/-! ### Loaders of compilations -/

theorem findLocal_leads (sound : before.Sound held) (loader : LoaderId) (name : String) :
    (findLocal loader name).Leads before fun after unit => after.Has unit := by
  by_cases compiled : ∃ parent pending defined,
      before.loaders[loader]? = some (.compiled parent pending defined)
  · obtain ⟨parent, pending, defined, here⟩ := compiled
    cases unknown : defined.lookup name with
    | none =>
        rcases run : findLocal loader name before with ⟨answer, after⟩
        obtain ⟨onward, live⟩ := findLocal_onward here unknown run
        refine .of_eq run onward ?_
        intro unit same
        obtain ⟨next, there, live⟩ := live unit same
        exact ⟨loader, next, name, there, live⟩
    | some definition =>
        have absent := (sound.tidy loader _ here name definition unknown).2
        have run : findLocal loader name before = (.error (.typeNotFound name), before) := by
          rw [findLocal_eq here, absent]
        exact .of_eq run (Std.Refl.refl _) nofun
  · have foreign : ∀ parent pending defined,
        before.loaders[loader]? ≠ some (.compiled parent pending defined) :=
      fun parent pending defined here => compiled ⟨parent, pending, defined, here⟩
    have run := findLocal_foreign foreign name
    exact .of_eq run (Std.Refl.refl _) nofun

theorem findDefined_leads (loader : LoaderId) (name : String) :
    (findDefined loader name).Leads before fun after found =>
      ∀ unit, found = some unit → after.Has unit := by
  by_cases compiled : ∃ parent pending defined,
      before.loaders[loader]? = some (.compiled parent pending defined)
  · obtain ⟨parent, pending, defined, here⟩ := compiled
    rcases run : findDefined loader name before with ⟨answer, after⟩
    obtain ⟨onward, live⟩ := findDefined_onward here run
    refine .of_eq run onward ?_
    intro found same unit given
    obtain ⟨next, there, live⟩ := live unit (same.trans (congrArg Except.ok given))
    exact ⟨loader, next, name, there, live⟩
  · have foreign : ∀ parent pending defined,
        before.loaders[loader]? ≠ some (.compiled parent pending defined) :=
      fun parent pending defined here => compiled ⟨parent, pending, defined, here⟩
    refine .of_eq (findDefined_foreign foreign name) (Std.Refl.refl _) ?_
    intro found same unit given
    cases same
    cases given

end Action

section Field
variable {object inner : Instance} {name : String}
  (found : (object.get? name).bind Value.instance? = some inner)
include found

theorem Instance.mem_fields_of_get? : inner.toValue ∈ object.fields := by
  obtain ⟨value, given, isObject⟩ := Option.bind_eq_some_iff.mp found
  obtain ⟨index, -, here⟩ := Option.bind_eq_some_iff.mp given
  cases value with
  | object id unit fields =>
      cases isObject
      exact List.mem_of_getElem? here
  | _ => cases isObject

theorem Instance.mem_units_of_get? {unit : UnitType} (member : unit ∈ inner.toValue.units) :
    unit ∈ object.toValue.units :=
  List.mem_cons_of_mem _
    (Evaluation.mem_unitsOfAll.mpr ⟨_, Instance.mem_fields_of_get? found, member⟩)

end Field

theorem Request.advances {holdings : Holdings} {request : Request}
    {action : Action (Option Held)} (given : request.action holdings = some action)
    (sound : holdings.workspace.world.Sound holdings.Holds) :
    action.Advances holdings.Holds holdings.workspace.world := by
  cases request with
  | newHost =>
      cases given
      exact advances_newHost sound
  | newLoader parent artifacts =>
      obtain ⟨parent, -, rfl⟩ := Option.map_eq_some_iff.mp given
      exact advances_newLoader sound parent artifacts
  | defineImage host image origin =>
      obtain ⟨host, held, rfl⟩ := Option.map_eq_some_iff.mp given
      obtain ⟨units, here⟩ := Holdings.exists_of_host? held
      exact advances_defineImage here sound image origin
  | defineFromOrigin host origin name =>
      obtain ⟨host, held, rfl⟩ := Option.map_eq_some_iff.mp given
      obtain ⟨units, here⟩ := Holdings.exists_of_host? held
      exact advances_defineFromOrigin here sound _ origin name
  | register host unit =>
      obtain ⟨host, held, given⟩ := Option.bind_eq_some_iff.mp given
      obtain ⟨unit, unitHeld, given⟩ := Option.bind_eq_some_iff.mp given
      cases given
      obtain ⟨units, here⟩ := Holdings.exists_of_host? held
      exact advances_register here sound (Holdings.holds_of_unit? unitHeld)
  | resolve place name =>
      obtain ⟨loader, -, rfl⟩ := Option.map_eq_some_iff.mp given
      refine advances_of_leads sound ((Evaluation.resolve_leads loader name).imp ?_)
      intro after unit _ stands other member
      cases List.mem_singleton.mp member
      exact .inr (.of_standing stands)
  | findLocal loader name =>
      obtain ⟨loader, -, rfl⟩ := Option.map_eq_some_iff.mp given
      refine advances_of_leads sound ((findLocal_leads sound loader name).imp ?_)
      intro after unit _ has other member
      cases List.mem_singleton.mp member
      exact .inr has
  | findDefined loader name =>
      obtain ⟨loader, -, rfl⟩ := Option.map_eq_some_iff.mp given
      refine advances_of_leads sound ((findDefined_leads loader name).imp ?_)
      intro after found _ has other member
      cases found with
      | none => cases member
      | some unit =>
          cases List.mem_singleton.mp member
          exact .inr (has _ rfl)
  | construct unit args =>
      obtain ⟨unit, unitHeld, given⟩ := Option.bind_eq_some_iff.mp given
      obtain ⟨values, argsHeld, given⟩ := Option.bind_eq_some_iff.mp given
      cases given
      refine advances_of_leads sound (Evaluation.construct_leads _
        (.inl (Holdings.holds_of_unit? unitHeld)) fun value member other inside => .inl ?_)
      exact Holdings.holds_of_arguments argsHeld member inside
  | constructWith unit name args =>
      obtain ⟨unit, unitHeld, given⟩ := Option.bind_eq_some_iff.mp given
      obtain ⟨values, argsHeld, given⟩ := Option.bind_eq_some_iff.mp given
      cases given
      refine advances_of_leads sound (Evaluation.constructWith_leads _
        (.inl (Holdings.holds_of_unit? unitHeld)) name fun value member other inside => .inl ?_)
      exact Holdings.holds_of_arguments argsHeld member inside
  | field object name =>
      obtain ⟨object, held, rfl⟩ := Option.map_eq_some_iff.mp given
      apply advances_pure sound
      intro unit member
      cases found : (object.get? name).bind Value.instance? with
      | none =>
          rw [found] at member
          cases member
      | some inner =>
          rw [found] at member
          exact Holdings.holds_of_object? held (Instance.mem_units_of_get? found member)
  | unitOf object =>
      obtain ⟨object, held, rfl⟩ := Option.map_eq_some_iff.mp given
      apply advances_pure sound
      intro unit member
      cases List.mem_singleton.mp member
      exact Holdings.holds_of_object? held List.mem_cons_self

/-! ## Runs -/

namespace Holdings

variable {holdings : Holdings}

/-- The loaders are in order, and so are all units that are alive. -/
def Sound (holdings : Holdings) : Prop :=
  holdings.workspace.world.Sound holdings.Holds

theorem Sound.knows (sound : holdings.Sound) {unit : UnitType} (live : holdings.Live unit) :
    holdings.workspace.world.Knows holdings.Holds unit :=
  live.imp_right fun member => World.Sound.has_registered sound member

theorem sound_start (tree : FileTree) : (start tree).Sound := by
  have none : ∀ unit, ¬(start tree).workspace.world.Knows (start tree).Holds unit := by
    rintro unit (⟨entry, member, -⟩ | ⟨id, loader, name, here, live⟩)
    · cases member
    · cases List.mem_singleton.mp (List.mem_of_getElem? here)
      cases live
  constructor
  case tidy =>
    intro id loader here
    cases List.mem_singleton.mp (List.mem_of_getElem? here)
    exact nofun
  case keeps =>
    intro unit known
    exact absurd known (none unit)
  case numbered =>
    intro unit known
    exact absurd known (none unit)
  case distinct =>
    intro unit other known
    exact absurd known (none unit)

theorem mem_held {unit : UnitType} :
    unit ∈ (holdings.handles.flatMap fun (_, thing) => thing.units) ↔ holdings.Holds unit := by
  rw [List.mem_flatMap]
  rfl

theorem Sound.settle (sound : holdings.Sound) :
    holdings.settle.Sound ∧ holdings.workspace.world.Evolves holdings.settle.workspace.world := by
  have listed : holdings.workspace.world.Sound
      (· ∈ holdings.handles.flatMap fun (_, thing) => thing.units) :=
    World.Sound.of_known sound fun unit member => .inl (mem_held.mp member)
  refine ⟨?_, (World.continues_release listed _).evolves⟩
  exact (World.Sound.release _ listed).of_known fun unit holds => .inl (mem_held.mpr holds)

/-- What a request gave is put beside what is held, and what nobody holds is let go of. -/
theorem keep_eq (handle : Option String) (answer : Except Error (Option Held)) (world : World)
    (holdings : Holdings) : ∃ handles,
      holdings.keep handle answer world =
        settle { workspace := { holdings.workspace with world }, handles } ∧
      ∀ entry ∈ handles, entry ∈ holdings.handles ∨ answer = .ok (some entry.2) := by
  unfold Holdings.keep
  dsimp only
  split
  · rename_i handle thing
    refine ⟨_, rfl, ?_⟩
    intro entry member
    rcases List.mem_append.mp member with old | new
    · exact .inl (List.mem_filter.mp old).1
    · cases List.mem_singleton.mp new
      exact .inr rfl
  · exact ⟨holdings.handles, rfl, fun entry member => .inl member⟩

theorem Sound.keep (handle : Option String) {answer : Except Error (Option Held)} {world : World}
    (sound : world.Sound fun unit => holdings.Holds unit ∨ unit ∈ gained answer) :
    (holdings.keep handle answer world).Sound ∧
      world.Evolves (holdings.keep handle answer world).workspace.world := by
  obtain ⟨handles, same, from_⟩ := keep_eq handle answer world holdings
  rw [same]
  refine Sound.settle (World.Sound.of_known sound fun unit holds => .inl ?_)
  obtain ⟨entry, member, inside⟩ := holds
  rcases from_ entry member with old | rfl
  · exact .inl ⟨entry, old, inside⟩
  · exact .inr inside

theorem Sound.step (sound : holdings.Sound) (event : Event) :
    (holdings.step event).Sound ∧
      holdings.workspace.world.Evolves (holdings.step event).workspace.world := by
  cases event with
  | drop handle =>
      refine Sound.settle (World.Sound.of_known sound fun unit holds => .inl ?_)
      obtain ⟨entry, member, inside⟩ := holds
      exact ⟨entry, (List.mem_filter.mp member).1, inside⟩
  | ask request handle =>
      cases given : request.action holdings with
      | none =>
          rw [step_unasked given]
          exact ⟨sound, Std.Refl.refl _⟩
      | some action =>
          rcases run : action holdings.workspace.world with ⟨answer, world⟩
          rw [step_ask given run]
          obtain ⟨evolves, next⟩ := Request.advances given sound answer world run
          obtain ⟨kept, onward⟩ := Sound.keep handle next
          exact ⟨kept, IsTrans.trans _ _ _ evolves onward⟩

/-- Whatever happens, the books are in order, and the loaders of compilations answer as they did. -/
theorem Sound.run (sound : holdings.Sound) (events : List Event) :
    (holdings.run events).Sound ∧
      holdings.workspace.world.Evolves (holdings.run events).workspace.world := by
  induction events generalizing holdings with
  | nil => exact ⟨sound, Std.Refl.refl _⟩
  | cons event rest ih =>
      obtain ⟨next, evolves⟩ := sound.step event
      obtain ⟨last, onward⟩ := ih next
      exact ⟨last, IsTrans.trans _ _ _ evolves onward⟩

end Holdings

end UnitForge
