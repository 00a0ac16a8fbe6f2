import UnitForge.Proofs.Loading.History

/-! # One definition for each name

The loader of a compilation whose artifacts can all be read, from the moment when nothing has been
defined from them. Its parent is never asked for a name of an artifact, and at no time are there two
live units of one name that it has defined, whatever is done with the loader and its units and
whenever handles are let go of. -/
set_option autoImplicit false
namespace UnitForge

open Step UnitForge.Action

namespace ArtifactTable

/-- Every artifact holds an image of its name. -/
def Decodable (table : ArtifactTable) : Prop :=
  ∀ output ∈ table.outputs, ∃ image, output.read output.name = .ok image

def image? (table : ArtifactTable) (name : String) : Option UnitImage :=
  (table.get? name).bind fun output => (output.read name).toOption

variable {table : ArtifactTable} {name : String}

theorem mem_of_get? {output : OutputUnit} (given : table.get? name = some output) :
    output ∈ table.outputs ∧ output.name = name :=
  ⟨List.mem_of_find?_eq_some given, by simpa using List.find?_some given⟩

theorem Decodable.image? (decodable : table.Decodable) (member : name ∈ table.names) :
    ∃ output image, table.get? name = some output ∧ output.read name = .ok image ∧
      table.image? name = some image := by
  rw [mem_names_iff, contains, Option.isSome_iff_exists] at member
  obtain ⟨output, given⟩ := member
  obtain ⟨inside, named⟩ := mem_of_get? given
  obtain ⟨image, found⟩ := decodable output inside
  rw [named] at found
  refine ⟨output, image, given, found, ?_⟩
  rw [ArtifactTable.image?, given, Option.bind_some, found]
  rfl

theorem mem_names_of_image? {image : UnitImage} (found : table.image? name = some image) :
    name ∈ table.names := by
  obtain ⟨output, given, -⟩ := Option.bind_eq_some_iff.mp found
  rw [mem_names_iff, contains, given]
  rfl

end ArtifactTable

def World.IsDefined (world : World) (loader : LoaderId) (name : String) : Prop :=
  ∃ unit, (findDefined loader name world).1 = .ok (some unit)

/-- A loader has at most one live unit of each name, and has it from its own artifacts. -/
structure Holdings.DefinesOnce (now : Holdings) (loader : LoaderId) (table : ArtifactTable) :
    Prop where
  unique : ∀ unit other, now.Live unit → now.Live other →
    unit.resolver = loader → other.resolver = loader → unit.name = other.name → unit = other
  covered : ∀ name, name ∈ table.names ↔
    name ∈ now.workspace.world.pending loader ∨ now.workspace.world.IsDefined loader name
  apart : ∀ name,
    ¬(name ∈ now.workspace.world.pending loader ∧ now.workspace.world.IsDefined loader name)
  kept : ∀ unit, now.Live unit → unit.resolver = loader →
    table.image? unit.name = some unit.image ∧
      resolve loader unit.name now.workspace.world = (.ok unit, now.workspace.world) ∧
      findDefined loader unit.name now.workspace.world = (.ok (some unit), now.workspace.world)
  image : ∀ name ∈ table.names, ∃ unit,
    (resolve loader name now.workspace.world).1 = .ok unit ∧ unit.resolver = loader ∧
      table.image? name = some unit.image
  own : ∀ name ∈ table.names, ∀ parents,
    resolve loader name now.workspace.world = resolveIn name [loader] now.workspace.world ∧
      resolveIn name (loader :: parents) now.workspace.world =
        resolveIn name [loader] now.workspace.world

namespace World

variable {world : World} {loader : LoaderId} {table : ArtifactTable} {name : String}

/-- A loader that answers from a table: the names of the table lead to its images, and all others
are left to the parent. -/
def AnswersFrom (world : World) (loader : LoaderId) (table : ArtifactTable) : Prop :=
  ∃ parent pending defined, world.loaders[loader]? = some (.compiled parent pending defined) ∧
    ∀ name, (Loader.compiled parent pending defined).answer? loader name =
      (table.image? name).map fun image => some { image, resolver := loader }

theorem answersFrom_of_evolves {first : World} {parent : LoaderId}
    (fresh : first.loaders[loader]? = some (.compiled parent table []))
    (decodable : table.Decodable) (evolves : first.Evolves world) :
    world.AnswersFrom loader table := by
  obtain ⟨next, here, refined⟩ := evolves loader parent table [] fresh
  cases next with
  | host units => cases refined.parent
  | compiled parent' pending defined =>
      refine ⟨parent', pending, defined, here, ?_⟩
      intro name
      by_cases member : name ∈ table.names
      · obtain ⟨output, image, given, found, holds⟩ := decodable.image? member
        rw [holds]
        apply (refined.retains name { image, resolver := loader }).mp
        rw [answer?_compiled, List.lookup_nil, given, Option.map_some, Meaning.ofArtifact?_eq,
          found]
      · have absent : table.get? name = none := by
          rw [ArtifactTable.mem_names_iff, ArtifactTable.contains] at member
          exact Option.not_isSome_iff_eq_none.mp member
        rw [ArtifactTable.image?, absent]
        apply refined.passes name
        rw [answer?_compiled, absent]
        rfl

theorem mem_names_iff_leaves {found : Loader} (decodable : table.Decodable)
    (answers : found.answer? loader name =
      (table.image? name).map fun image => some { image, resolver := loader }) :
    name ∈ table.names ↔ found.leaves name = false := by
  rw [← Bool.not_eq_true, Loader.leaves_iff loader, answers, Option.map_eq_none_iff]
  constructor
  · intro member absent
    obtain ⟨output, image, -, -, holds⟩ := decodable.image? member
    cases absent.symm.trans holds
  · intro given
    obtain ⟨image, found⟩ := Option.ne_none_iff_exists'.mp given
    exact ArtifactTable.mem_names_of_image? found

section Answers
variable {parent : LoaderId} {pending : ArtifactTable} {defined : List (String × Definition)}
  (here : world.loaders[loader]? = some (.compiled parent pending defined))
include here

theorem mem_pending_iff : name ∈ world.pending loader ↔ (pending.get? name).isSome = true := by
  rw [World.pending_compiled here]
  exact ArtifactTable.mem_names_iff

theorem isDefined_iff : world.IsDefined loader name ↔ (defined.lookup name).isSome = true := by
  unfold IsDefined
  rw [findDefined_run here]
  rcases defined.lookup name with _ | ⟨image, _ | unit⟩
  · exact ⟨nofun, nofun⟩
  · exact ⟨fun _ => rfl, fun _ => ⟨_, rfl⟩⟩
  · exact ⟨fun _ => rfl, fun _ => ⟨_, rfl⟩⟩

theorem leaves_eq_false_iff : (Loader.compiled parent pending defined).leaves name = false ↔
    name ∈ world.pending loader ∨ world.IsDefined loader name := by
  rw [mem_pending_iff here, isDefined_iff here]
  cases known : defined.lookup name with
  | none => simp [Loader.leaves, ArtifactTable.contains, known]
  | some definition => simp [Loader.leaves, known]

theorem resolve_owned (owned : (Loader.compiled parent pending defined).leaves name = false)
    (parents : List LoaderId) :
    resolve loader name world = resolveIn name [loader] world ∧
      resolveIn name (loader :: parents) world = resolveIn name [loader] world := by
  refine ⟨?_, resolveIn_owned here owned parents⟩
  obtain ⟨rest, chain⟩ := exists_chain here
  rw [resolve, except_get_run, chain]
  exact resolveIn_owned here owned rest

end Answers

end World

namespace Holdings

variable {now : Holdings} {loader : LoaderId} {table : ArtifactTable}

theorem Sound.recorded (sound : now.Sound) {parent : LoaderId} {pending : ArtifactTable}
    {defined : List (String × Definition)}
    (here : now.workspace.world.loaders[loader]? = some (.compiled parent pending defined))
    {unit : UnitType} (live : now.Live unit) (resolver : unit.resolver = loader) :
    (Loader.compiled parent pending defined).live? unit.name = some unit := by
  obtain ⟨found, there, kept⟩ := World.Sound.keeps sound unit (sound.knows live)
  rw [resolver] at there
  cases here.symm.trans there
  exact kept

theorem Sound.definesOnce (sound : now.Sound) (decodable : table.Decodable)
    (answers : now.workspace.world.AnswersFrom loader table) : now.DefinesOnce loader table := by
  obtain ⟨parent, pending, defined, here, from_⟩ := answers
  have recorded {unit : UnitType} (live : now.Live unit) (resolver : unit.resolver = loader) :=
    sound.recorded here live resolver
  have tidy := World.Sound.tidy sound loader _ here
  have listed (name : String) := World.mem_names_iff_leaves decodable (from_ name)
  constructor
  case unique =>
    intro unit other live live' resolver resolver' same
    have first := recorded live resolver
    rw [same, recorded live' resolver'] at first
    exact (Option.some.inj first).symm
  case covered =>
    intro name
    rw [listed, World.leaves_eq_false_iff here]
  case apart =>
    rintro name ⟨waiting, found⟩
    rw [World.mem_pending_iff here] at waiting
    rw [World.isDefined_iff here, Option.isSome_iff_exists] at found
    obtain ⟨definition, known⟩ := found
    rw [(tidy name definition known).2] at waiting
    cases waiting
  case kept =>
    intro unit live resolver
    have lives := recorded live resolver
    obtain ⟨definition, known, has⟩ := Option.bind_eq_some_iff.mp lives
    have means := (from_ unit.name).symm.trans (Loader.answer?_of_live? loader lives)
    obtain ⟨image, found, same⟩ := Option.map_eq_some_iff.mp means
    cases same
    have owned := (listed unit.name).mp (ArtifactTable.mem_names_of_image? found)
    refine ⟨found, ?_, ?_⟩
    · rw [(World.resolve_owned here owned []).1]
      exact ask_live here lives
    · rw [findDefined_run here, known]
      obtain ⟨image, _⟩ := definition
      cases has
      rfl
  case image =>
    intro name member
    obtain ⟨output, image, -, -, found⟩ := decodable.image? member
    have leads : now.workspace.world.meaning? loader name = some { image, resolver := loader } := by
      obtain ⟨rest, chain⟩ := World.exists_chain here
      rw [World.meaning?, chain, World.meaningIn, here]
      dsimp only
      rw [from_ name, found]
      rfl
    obtain ⟨unit, gave, means⟩ :=
      ((resolve_run (run_eta (resolve loader name) now.workspace.world)).2 _).mp leads
    cases means
    exact ⟨unit, gave, rfl, found⟩
  case own =>
    intro name member parents
    exact World.resolve_owned here ((listed name).mp member) parents

end Holdings

/-- From the moment when nothing has been defined from the artifacts of a loader, all of which can
be read, the loader has at most one live unit of each name, whatever is done. The names of the
artifacts are those that are pending and those that are defined, none of which is both. A live unit
is the one that resolving its name gives, and so is the one found among the definitions. A name of
an artifact always leads to a unit with the image of the artifact, and no other loader is asked for
it. -/
theorem defines_once (tree : FileTree) (earlier later : List Event) {loader parent : LoaderId}
    {table : ArtifactTable}
    (fresh : ((Holdings.start tree).run earlier).workspace.world.loaders[loader]? =
      some (.compiled parent table []))
    (decodable : table.Decodable) :
    ((Holdings.start tree).run (earlier ++ later)).DefinesOnce loader table := by
  obtain ⟨before, -⟩ := (Holdings.sound_start tree).run earlier
  obtain ⟨sound, evolves⟩ := before.run later
  rw [← Holdings.run_append] at sound evolves
  exact sound.definesOnce decodable (World.answersFrom_of_evolves fresh decodable evolves)

/-! ## A unit that is dropped -/

def counter : UnitImage where
  name := "demo.A"
  source := ""
  fields := [{ name := "n", type := .int }]
  constructors := [{ name := "new", params := [], locals := 0, body := [], init := [.int 7] }]

def artifactOf (image : UnitImage) : ArtifactTable :=
  ⟨[{ name := image.name, kind := .unit, bytes := image.encode }]⟩

theorem decodable_artifactOf {image : UnitImage} (fits : image.Fits) :
    (artifactOf image).Decodable := by
  intro output member
  cases List.mem_singleton.mp member
  refine ⟨image, ?_⟩
  rw [OutputUnit.read, if_neg (not_not_intro rfl)]
  exact UnitImage.decode_encode fits

def loading (table : ArtifactTable) : List Event :=
  [.ask .newHost (some "host"), .ask (.newLoader "host" table) (some "loader")]

theorem run_loading (table : ArtifactTable) :
    ((Holdings.start .empty).run (loading table)).workspace.world.loaders[2]? =
      some (.compiled 1 table []) :=
  rfl

/-- The unit is defined and an instance made, both are dropped, and the unit is defined anew. -/
def dropping : List Event :=
  [.ask (.resolve "loader" "demo.A") (some "unit"), .ask (.construct "unit" []) (some "object"),
    .drop "unit", .drop "object", .ask (.findDefined "loader" "demo.A") (some "again")]

theorem defines_once_counter :
    ((Holdings.start .empty).run (loading (artifactOf counter) ++ dropping)).DefinesOnce 2
      (artifactOf counter) :=
  defines_once .empty _ dropping (run_loading _) (decodable_artifactOf (by decide))

end UnitForge
