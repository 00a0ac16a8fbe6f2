import UnitForge.Proofs.Image.RoundTrip
import UnitForge.Proofs.Loading.Owner

/-! # Units that names stand for

A name stands for a unit at a loader if the owner of the name has the unit and the unit is alive.
Looking names up may define more units, but it changes none that is alive: what a name stands for,
it goes on to stand for. Loaders keep their books in order on the way: no name is both pending and
defined, and each unit is recorded by the loader that its names are looked up by. -/
set_option autoImplicit false
namespace UnitForge

open Step UnitForge.Action

/-! ## Loaders in order -/

structure Definition.InOrder (id : LoaderId) (name : String) (definition : Definition) : Prop where
  named : definition.image.name = name
  unit : ∀ unit, definition.unit = some unit → unit.image = definition.image ∧ unit.resolver = id

namespace Loader

/-- A host has its units under their names, one each. The loader of a compilation has nothing both
pending and defined. -/
def Tidy (id : LoaderId) : Loader → Prop
  | host units => ∀ entry ∈ units, entry.2.name = entry.1 ∧ units.lookup entry.1 = some entry.2
  | compiled _ pending defined => ∀ name definition, defined.lookup name = some definition →
      definition.InOrder id name ∧ pending.get? name = none

/-- Whether a unit is the one that a loader has under the unit's name. Hosts may have given the name
to another unit. -/
def Keeps (unit : UnitType) : Loader → Prop
  | host _ => True
  | compiled _ _ defined => (defined.lookup unit.name).bind Definition.unit = some unit

structure Continues (id : LoaderId) (before after : Loader) : Prop
    extends World.Refines id before after where
  host : before.parent? = none → after = before

structure Onward (id : LoaderId) (before after : Loader) : Prop
    extends Continues id before after where
  live : ∀ name unit, before.live? name = some unit → after.live? name = some unit
  tidy : before.Tidy id → after.Tidy id

theorem leaves_iff (id : LoaderId) {name : String} {loader : Loader} :
    loader.leaves name = true ↔ loader.answer? id name = none := by
  cases loader with
  | host units => simp [leaves, answer?]
  | compiled parent pending defined =>
      rw [leaves_compiled, answer?_compiled]
      cases defined.lookup name with
      | none => simp
      | some definition => simp

theorem answer?_of_live? (id : LoaderId) {name : String} {loader : Loader} {unit : UnitType}
    (live : loader.live? name = some unit) :
    loader.answer? id name = some (some (.ofUnit unit)) := by
  cases loader with
  | host units => exact congrArg (fun found => some (found.map Meaning.ofUnit)) live
  | compiled parent pending defined =>
      obtain ⟨definition, known, has⟩ := Option.bind_eq_some_iff.mp live
      have own : Meaning.ofDefinition id definition = .ofUnit unit := by
        unfold Meaning.ofDefinition
        rw [has]
      rw [answer?_compiled, known, ← own]

theorem not_leaves_of_live? {name : String} {loader : Loader} {unit : UnitType}
    (live : loader.live? name = some unit) : loader.leaves name = false := by
  rw [← Bool.not_eq_true, leaves_iff 0, answer?_of_live? 0 live]
  exact nofun

theorem Continues.refl (id : LoaderId) (loader : Loader) : Continues id loader loader :=
  { World.Refines.refl id loader with host := fun _ => rfl }

theorem Onward.refl (id : LoaderId) (loader : Loader) : Onward id loader loader :=
  { Continues.refl id loader with live := fun _ _ found => found, tidy := fun tidy => tidy }

section Trans
variable {id : LoaderId} {before middle after : Loader}

theorem Continues.trans (first : Continues id before middle) (second : Continues id middle after) :
    Continues id before after where
  parent := second.parent.trans first.parent
  passes name left := second.passes name (first.passes name left)
  retains name meaning := (first.retains name meaning).trans (second.retains name meaning)
  host root := (second.host (first.parent.trans root)).trans (first.host root)

theorem Onward.trans (first : Onward id before middle) (second : Onward id middle after) :
    Onward id before after :=
  { first.toContinues.trans second.toContinues with
    live := fun name unit found => second.live name unit (first.live name unit found)
    tidy := fun tidy => second.tidy (first.tidy tidy) }

end Trans

theorem Onward.keeps {id : LoaderId} {before after : Loader} (onward : Onward id before after)
    {unit : UnitType} (keeps : before.Keeps unit) : after.Keeps unit := by
  have parent := onward.parent
  cases after with
  | host units => trivial
  | compiled parent' pending' defined' =>
      cases before with
      | host units => cases parent
      | compiled parent pending defined => exact onward.live unit.name unit keeps

end Loader

/-! ## Worlds in order -/

namespace World

def Has (world : World) (unit : UnitType) : Prop :=
  ∃ (id : LoaderId) (loader : Loader) (name : String),
    world.loaders[id]? = some loader ∧ loader.live? name = some unit

def Knows (held : UnitType → Prop) (world : World) (unit : UnitType) : Prop :=
  held unit ∨ world.Has unit

/-- The loader of a unit exists, and has the unit if it defines its units itself. -/
def Keeps (world : World) (unit : UnitType) : Prop :=
  ∃ loader, world.loaders[unit.resolver]? = some loader ∧ loader.Keeps unit

/-- The loaders are in order, and so are the units that they or some holders have: each is kept by
its loader, and they have numbers of their own. -/
structure Sound (held : UnitType → Prop) (world : World) : Prop where
  tidy : ∀ (id : LoaderId) loader, world.loaders[id]? = some loader → loader.Tidy id
  keeps : ∀ unit, world.Knows held unit → world.Keeps unit
  numbered : ∀ unit, world.Knows held unit → unit.id < world.nextUnit
  distinct : ∀ unit other, world.Knows held unit → world.Knows held other →
    unit.id = other.id → unit = other

/-- A later world, in which hosts are as they were and loaders answer what they did. Units may have
been defined and let go of. -/
structure Continues (before after : World) : Prop where
  count : after.loaders.length = before.loaders.length
  loaders : ∀ (id : LoaderId) loader, before.loaders[id]? = some loader →
    ∃ next, after.loaders[id]? = some next ∧ Loader.Continues id loader next

instance : IsPreorder World Continues where
  refl _ := ⟨rfl, fun id loader here => ⟨loader, here, .refl id loader⟩⟩
  trans _ _ _ first second := by
    refine ⟨second.count.trans first.count, ?_⟩
    intro id loader here
    obtain ⟨middle, there, continues⟩ := first.loaders id loader here
    obtain ⟨last, found, further⟩ := second.loaders id middle there
    exact ⟨last, found, continues.trans further⟩

structure Onward (before after : World) : Prop where
  count : after.loaders.length = before.loaders.length
  loaders : ∀ (id : LoaderId) loader, before.loaders[id]? = some loader →
    ∃ next, after.loaders[id]? = some next ∧ Loader.Onward id loader next
  sound : ∀ held, before.Sound held → after.Sound held

instance : IsPreorder World Onward where
  refl _ := ⟨rfl, fun id loader here => ⟨loader, here, .refl id loader⟩, fun _ sound => sound⟩
  trans _ _ _ first second := by
    refine ⟨second.count.trans first.count, ?_,
      fun held sound => second.sound held (first.sound held sound)⟩
    intro id loader here
    obtain ⟨middle, there, onward⟩ := first.loaders id loader here
    obtain ⟨last, found, further⟩ := second.loaders id middle there
    exact ⟨last, found, onward.trans further⟩

variable {before after : World} {held : UnitType → Prop} {unit : UnitType}

/-- If no unit is new, the units need only be kept. -/
theorem Sound.of_fewer {others : UnitType → Prop} (sound : before.Sound held)
    (known : ∀ unit, after.Knows others unit → before.Knows held unit)
    (counter : after.nextUnit = before.nextUnit)
    (tidy : ∀ (id : LoaderId) loader, after.loaders[id]? = some loader → loader.Tidy id)
    (keeps : ∀ unit, after.Knows others unit → after.Keeps unit) : after.Sound others where
  tidy := tidy
  keeps := keeps
  numbered unit here := by
    rw [counter]
    exact sound.numbered unit (known unit here)
  distinct unit other here there := sound.distinct unit other (known unit here) (known other there)

theorem Sound.of_known {others : UnitType → Prop} (sound : before.Sound held)
    (known : ∀ unit, others unit → before.Knows held unit) : before.Sound others := by
  have within : ∀ unit, before.Knows others unit → before.Knows held unit := by
    intro unit known'
    rcases known' with holds | has
    · exact known unit holds
    · exact .inr has
  apply sound.of_fewer within rfl sound.tidy
  intro unit here
  exact sound.keeps unit (within unit here)

namespace Onward

variable (onward : before.Onward after)
include onward

theorem has (has : before.Has unit) : after.Has unit := by
  obtain ⟨id, loader, name, here, live⟩ := has
  obtain ⟨next, there, step⟩ := onward.loaders id loader here
  exact ⟨id, next, name, there, step.live name unit live⟩

theorem knows (known : before.Knows held unit) : after.Knows held unit :=
  known.imp_right onward.has

theorem continues : before.Continues after := by
  refine ⟨onward.count, ?_⟩
  intro id loader here
  obtain ⟨next, there, step⟩ := onward.loaders id loader here
  exact ⟨next, there, step.toContinues⟩

end Onward

theorem Continues.later (continues : before.Continues after) : before.Later after := by
  apply later_of_each continues.count
  intro id loader here
  obtain ⟨next, there, step⟩ := continues.loaders id loader here
  exact ⟨next, there, step.toRefines⟩

/-! ## Standing -/

def standingIn (world : World) (name : String) (ids : List LoaderId) : Option UnitType :=
  (world.ownerIn name ids).bind fun id => (world.loaders[id]?).bind (Loader.live? name)

def standing? (world : World) (loader : LoaderId) (name : String) : Option UnitType :=
  world.standingIn name (world.chain world.loaders.length loader)

theorem standingIn_iff {name : String} {ids : List LoaderId} :
    before.standingIn name ids = some unit ↔
      ∃ id loader, before.ownerIn name ids = some id ∧ before.loaders[id]? = some loader ∧
        loader.live? name = some unit := by
  unfold standingIn
  rw [Option.bind_eq_some_iff]
  apply exists_congr
  intro id
  rw [Option.bind_eq_some_iff]
  simp only [exists_and_left]

theorem Has.of_standing {loader : LoaderId} {name : String}
    (stands : before.standing? loader name = some unit) : before.Has unit := by
  obtain ⟨id, loader, -, here, live⟩ := standingIn_iff.mp stands
  exact ⟨id, loader, name, here, live⟩

section Continues
variable (continues : before.Continues after) {name : String} {owner : LoaderId} {next : Loader}
include continues

/-- The owner of a name goes on to be its owner as long as it answers for the name. -/
theorem Continues.ownerIn {ids : List LoaderId} (owned : before.ownerIn name ids = some owner)
    (there : after.loaders[owner]? = some next) (kept : next.leaves name = false) :
    after.ownerIn name ids = some owner := by
  obtain ⟨front, rest, rfl, passed, -⟩ := ownerIn_split owned
  have passes : ∀ id ∈ front, ∃ loader, after.loaders[id]? = some loader ∧
      loader.leaves name = true := by
    intro id member
    obtain ⟨other, found, left⟩ := passed id member
    obtain ⟨next, there, step⟩ := continues.loaders id other found
    rw [Loader.leaves_iff id] at left
    exact ⟨next, there, (Loader.leaves_iff id).mpr (step.passes name left)⟩
  rw [ownerIn_append passes, World.ownerIn, there]
  exact if_neg (Bool.eq_false_iff.mp kept)

theorem Continues.owner? {loader : LoaderId} (owned : before.owner? loader name = some owner)
    (there : after.loaders[owner]? = some next) (kept : next.leaves name = false) :
    after.owner? loader name = some owner := by
  unfold World.owner?
  rw [continues.count, continues.later.chain]
  exact continues.ownerIn owned there kept

theorem Continues.standing?_owner {loader : LoaderId}
    (owned : before.owner? loader name = some owner) (there : after.loaders[owner]? = some next)
    (live : next.live? name = some unit) : after.standing? loader name = some unit :=
  standingIn_iff.mpr ⟨owner, next,
    continues.owner? owned there (Loader.not_leaves_of_live? live), there, live⟩

theorem Continues.standing?
    (lives : ∀ (id : LoaderId) loader name, before.loaders[id]? = some loader →
      loader.live? name = some unit →
        ∃ next, after.loaders[id]? = some next ∧ next.live? name = some unit)
    {loader : LoaderId} (stands : before.standing? loader name = some unit) :
    after.standing? loader name = some unit := by
  obtain ⟨owner, found, owned, here, live⟩ := standingIn_iff.mp stands
  obtain ⟨next, there, live⟩ := lives owner found name here live
  exact continues.standing?_owner owned there live

end Continues

/-- A loader that has a unit of a name is itself the owner of the name. -/
theorem standing?_of_live {id : LoaderId} {loader : Loader} {name : String}
    (here : before.loaders[id]? = some loader) (live : loader.live? name = some unit) :
    before.standing? id name = some unit := by
  obtain ⟨rest, chain⟩ := exists_chain here
  refine standingIn_iff.mpr ⟨id, loader, ?_, here, live⟩
  rw [chain, World.ownerIn, here]
  exact if_neg (Bool.eq_false_iff.mp (Loader.not_leaves_of_live? live))

theorem Onward.standing? (onward : before.Onward after) {loader : LoaderId} {name : String}
    (stands : before.standing? loader name = some unit) :
    after.standing? loader name = some unit := by
  refine onward.continues.standing? ?_ stands
  intro id found name here live
  obtain ⟨next, there, step⟩ := onward.loaders id found here
  exact ⟨next, there, step.live name unit live⟩

/-! ## Steps onward -/

/-- If every loader goes onward, so does the world, as long as the units that are new have new
numbers and are kept by their loaders. -/
theorem onward_of_loaders (New : UnitType → Prop)
    (count : after.loaders.length = before.loaders.length)
    (loaders : ∀ (id : LoaderId) loader, before.loaders[id]? = some loader →
      ∃ next, after.loaders[id]? = some next ∧ Loader.Onward id loader next)
    (counter : before.nextUnit ≤ after.nextUnit)
    (has : ∀ unit, after.Has unit → before.Has unit ∨ New unit)
    (one : ∀ unit other, New unit → New other → unit = other)
    (new : ∀ held, before.Sound held → ∀ unit, New unit →
      after.Keeps unit ∧ before.nextUnit ≤ unit.id ∧ unit.id < after.nextUnit) :
    before.Onward after := by
  refine ⟨count, loaders, ?_⟩
  intro held sound
  have known (unit : UnitType) (known : after.Knows held unit) :
      before.Knows held unit ∨ New unit := by
    rcases known with holds | found
    · exact .inl (.inl holds)
    · exact (has unit found).imp_left .inr
  have keeps (unit : UnitType) (kept : before.Keeps unit) : after.Keeps unit := by
    obtain ⟨loader, here, kept⟩ := kept
    obtain ⟨next, there, step⟩ := loaders unit.resolver loader here
    exact ⟨next, there, step.keeps kept⟩
  constructor
  case tidy =>
    intro id next there
    have bound := (List.getElem?_eq_some_iff.mp there).1
    rw [count] at bound
    obtain ⟨again, found, step⟩ := loaders id _ (List.getElem?_eq_getElem bound)
    cases there.symm.trans found
    exact step.tidy (sound.tidy id _ (List.getElem?_eq_getElem bound))
  case keeps =>
    intro unit here
    rcases known unit here with old | fresh
    · exact keeps unit (sound.keeps unit old)
    · exact (new held sound unit fresh).1
  case numbered =>
    intro unit here
    rcases known unit here with old | fresh
    · exact Nat.lt_of_lt_of_le (sound.numbered unit old) counter
    · exact (new held sound unit fresh).2.2
  case distinct =>
    intro unit other here there same
    rcases known unit here, known other there with ⟨old | fresh, old' | fresh'⟩
    · exact sound.distinct unit other old old' same
    · have := sound.numbered unit old
      have := (new held sound other fresh').2.1
      omega
    · have := sound.numbered other old'
      have := (new held sound unit fresh).2.1
      omega
    · exact one unit other fresh fresh'

/-- If no unit is new, the loaders need only go onward. -/
theorem onward_of_kept (count : after.loaders.length = before.loaders.length)
    (loaders : ∀ (id : LoaderId) loader, before.loaders[id]? = some loader →
      ∃ next, after.loaders[id]? = some next ∧ Loader.Onward id loader next)
    (counter : before.nextUnit ≤ after.nextUnit)
    (kept : ∀ unit, after.Has unit → before.Has unit) : before.Onward after := by
  apply onward_of_loaders (fun _ => False) count loaders counter
  case has =>
    intro unit found
    exact .inl (kept unit found)
  case one =>
    intro unit other new
    cases new
  case new =>
    intro held sound unit new
    cases new

theorem onward_of_same (loaders : after.loaders = before.loaders)
    (counter : after.nextUnit = before.nextUnit) : before.Onward after := by
  apply onward_of_kept
  case count => rw [loaders]
  case loaders =>
    intro id loader here
    rw [loaders]
    exact ⟨loader, here, .refl id loader⟩
  case counter => exact Nat.le_of_eq counter.symm
  case kept =>
    intro unit has
    unfold Has at has ⊢
    rwa [loaders] at has

theorem of_modified_loader {id : LoaderId} {change : Loader → Loader}
    (loaders : after.loaders = before.loaders.modify id change) {other : LoaderId} {next : Loader}
    (there : after.loaders[other]? = some next) :
    ∃ loader, before.loaders[other]? = some loader ∧
      next = if id = other then change loader else loader := by
  cases here : before.loaders[other]? with
  | none =>
      rw [loaders, List.getElem?_modify, here] at there
      cases there
  | some loader =>
      have changed := modified_loader loaders here
      exact ⟨loader, rfl, Option.some.inj (there.symm.trans changed)⟩

theorem onward_of_modified {id : LoaderId} {loader : Loader} {change : Loader → Loader}
    (loaders : after.loaders = before.loaders.modify id change)
    (here : before.loaders[id]? = some loader) (step : Loader.Onward id loader (change loader)) :
    ∀ (other : LoaderId) loader, before.loaders[other]? = some loader →
      ∃ next, after.loaders[other]? = some next ∧ Loader.Onward other loader next := by
  intro other found there
  refine ⟨_, modified_loader loaders there, ?_⟩
  by_cases same : id = other
  · subst same
    cases here.symm.trans there
    rw [if_pos rfl]
    exact step
  · rw [if_neg same]
    exact .refl other found

section Compiled
variable {id parent : LoaderId} {pending left : ArtifactTable}
  {defined : List (String × Definition)} {name : String}

theorem onward_defining {definition : Definition}
    (others : ∀ other, other ≠ name → left.get? other = pending.get? other)
    (own : (Loader.compiled parent pending defined).answer? id name =
      some (some (.ofDefinition id definition)))
    (dead : (Loader.compiled parent pending defined).live? name = none)
    (order : (Loader.compiled parent pending defined).Tidy id →
      definition.InOrder id name ∧ left.get? name = none) :
    Loader.Onward id (.compiled parent pending defined)
      (.compiled parent left (assign name definition defined)) := by
  refine { refines_defining others own with
    live := fun other unit found => ?_
    tidy := fun tidy other found known => ?_
    host := nofun }
  · have ne : other ≠ name := by
      rintro rfl
      rw [dead] at found
      cases found
    rw [Loader.live?, lookup_assign_other _ _ ne]
    exact found
  · by_cases same : other = name
    · subst same
      rw [lookup_assign_self] at known
      cases known
      exact order tidy
    · rw [lookup_assign_other _ _ same] at known
      rw [others other same]
      exact tidy other found known

/-- A loader defines a unit under a name that it has no unit of. -/
theorem onward_define {image : UnitImage} {change : Loader → Loader}
    (here : before.loaders[id]? = some (.compiled parent pending defined))
    (loaders : after.loaders = before.loaders.modify id change)
    (changed : change (.compiled parent pending defined) = .compiled parent left
      (assign name { image, unit := some (nextOf before id image) } defined))
    (counter : after.nextUnit = before.nextUnit + 1)
    (others : ∀ other, other ≠ name → left.get? other = pending.get? other)
    (own : (Loader.compiled parent pending defined).answer? id name =
      some (some { image, resolver := id }))
    (dead : (Loader.compiled parent pending defined).live? name = none)
    (order : (Loader.compiled parent pending defined).Tidy id →
      image.name = name ∧ left.get? name = none) :
    before.Onward after ∧ ∃ next, after.loaders[id]? = some next ∧
      next.live? name = some (nextOf before id image) := by
  have live : (change (.compiled parent pending defined)).live? name =
      some (nextOf before id image) := by
    rw [changed, Loader.live?, lookup_assign_self]
    rfl
  have there := modified_loader loaders here
  rw [if_pos rfl] at there
  have step : Loader.Onward id (.compiled parent pending defined)
      (change (.compiled parent pending defined)) := by
    rw [changed]
    apply onward_defining others own dead
    intro tidy
    obtain ⟨named, gone⟩ := order tidy
    refine ⟨⟨named, ?_⟩, gone⟩
    intro unit same
    cases same
    exact ⟨rfl, rfl⟩
  refine ⟨?_, _, there, live⟩
  apply onward_of_loaders (· = nextOf before id image)
  case count => rw [loaders, List.length_modify]
  case loaders => exact onward_of_modified loaders here step
  case counter => omega
  case has =>
    intro unit has
    obtain ⟨other, next, key, there, found⟩ := has
    obtain ⟨loader, old, rfl⟩ := of_modified_loader loaders there
    by_cases same : id = other
    · subst same
      cases here.symm.trans old
      rw [if_pos rfl, changed, Loader.live?] at found
      by_cases named : key = name
      · subst named
        rw [lookup_assign_self] at found
        cases found
        exact .inr rfl
      · rw [lookup_assign_other _ _ named] at found
        exact .inl ⟨id, _, key, old, found⟩
    · rw [if_neg same] at found
      exact .inl ⟨other, loader, key, old, found⟩
  case one =>
    intro unit other same same'
    exact same.trans same'.symm
  case new =>
    intro held sound unit same
    subst same
    refine ⟨⟨_, there, ?_⟩, Nat.le_refl _, by rw [counter]; exact Nat.lt_succ_self _⟩
    have named : (nextOf before id image).name = name := (order (sound.tidy id _ here)).1
    rw [changed] at live ⊢
    rw [Loader.Keeps, named]
    exact live

theorem onward_use {output : OutputUnit} {why : Malformation}
    (here : before.loaders[id]? = some (.compiled parent pending defined))
    (unknown : defined.lookup name = none) (given : pending.get? name = some output)
    (faulty : output.read name = .error why) : before.Onward (before.use id name) := by
  have others : ∀ other, other ≠ name → (pending.erase name).get? other = pending.get? other :=
    fun other ne => pending.get?_erase_other ne.symm
  have own : (Loader.compiled parent pending defined).answer? id name = some none := by
    rw [answer?_compiled, unknown, given, Option.map_some, Meaning.ofArtifact?_eq, faulty]
  have step : Loader.Onward id (.compiled parent pending defined)
      (.compiled parent (pending.erase name) defined) := by
    refine { refines_taking others (pending.get?_erase_self name) own with
      live := fun _ _ found => found
      tidy := fun tidy other found known => ⟨(tidy other found known).1, ?_⟩
      host := nofun }
    have ne : other ≠ name := by
      rintro rfl
      cases unknown.symm.trans known
    rw [others other ne]
    exact (tidy other found known).2
  refine onward_of_kept (List.length_modify _ _ _) (onward_of_modified rfl here step)
    (Nat.le_refl _) ?_
  intro unit has
  obtain ⟨other, next, key, there, found⟩ := has
  obtain ⟨loader, old, rfl⟩ := of_modified_loader rfl there
  by_cases same : id = other
  · subst same
    cases here.symm.trans old
    rw [if_pos rfl] at found
    exact ⟨id, _, key, old, found⟩
  · rw [if_neg same] at found
    exact ⟨other, loader, key, old, found⟩

end Compiled

end World

theorem OutputUnit.name_of_read {name : String} {output : OutputUnit} {image : UnitImage}
    (found : output.read name = .ok image) : image.name = name := by
  unfold OutputUnit.read at found
  split at found
  · cases found
  · exact UnitImage.name_of_decode found

/-! ## Looking names up -/

namespace Action

variable {before after : World} {id : LoaderId} {name : String}

section Compiled
variable {parent : LoaderId} {pending : ArtifactTable} {defined : List (String × Definition)}
  (here : before.loaders[id]? = some (.compiled parent pending defined))
include here

theorem redefine_onward {image : UnitImage}
    (known : defined.lookup name = some { image, unit := none }) :
    before.Onward (define id image name before).2 ∧
      ∃ next, (define id image name before).2.loaders[id]? = some next ∧
        next.live? name = some (nextOf before id image) := by
  refine World.onward_define here rfl rfl rfl (fun _ _ => rfl) ?_ ?_ ?_
  · rw [answer?_compiled, known]
    rfl
  · rw [Loader.live?, known]
    rfl
  · intro tidy
    obtain ⟨order, absent⟩ := tidy name _ known
    exact ⟨order.named, absent⟩

theorem define_onward {output : OutputUnit} {image : UnitImage}
    (unknown : defined.lookup name = none) (given : pending.get? name = some output)
    (found : output.read name = .ok image) :
    before.Onward (define id image name (before.use id name)).2 ∧
      ∃ next, (define id image name (before.use id name)).2.loaders[id]? = some next ∧
        next.live? name = some (nextOf before id image) := by
  refine World.onward_define here (List.modify_modify_eq _ _ _ _) rfl rfl
    (fun other ne => pending.get?_erase_other ne.symm) ?_ ?_ ?_
  · rw [answer?_compiled, unknown, given, Option.map_some, Meaning.ofArtifact?_eq, found]
  · rw [Loader.live?, unknown]
    rfl
  · intro _
    exact ⟨OutputUnit.name_of_read found, pending.get?_erase_self name⟩

theorem findLocal_onward (unknown : defined.lookup name = none) {answer : Except Error UnitType}
    (run : findLocal id name before = (answer, after)) :
    before.Onward after ∧ ∀ unit, answer = .ok unit →
      ∃ next, after.loaders[id]? = some next ∧ next.live? name = some unit := by
  rw [findLocal_eq here] at run
  cases given : pending.get? name with
  | none =>
      simp only [given] at run
      cases run
      exact ⟨Std.Refl.refl _, nofun⟩
  | some output =>
      simp only [given] at run
      cases found : output.read name with
      | error why =>
          simp only [found] at run
          cases run
          exact ⟨World.onward_use here unknown given found, nofun⟩
      | ok image =>
          simp only [found] at run
          obtain ⟨onward, live⟩ := define_onward here unknown given found
          cases run
          refine ⟨onward, ?_⟩
          intro unit same
          cases same
          exact live

theorem findDefined_onward {answer : Except Error (Option UnitType)}
    (run : findDefined id name before = (answer, after)) :
    before.Onward after ∧ ∀ unit, answer = .ok (some unit) →
      ∃ next, after.loaders[id]? = some next ∧ next.live? name = some unit := by
  rw [findDefined_run here] at run
  rcases known : defined.lookup name with _ | ⟨image, _ | unit⟩
  · simp only [known] at run
    cases run
    exact ⟨Std.Refl.refl _, nofun⟩
  · simp only [known] at run
    obtain ⟨onward, live⟩ := redefine_onward here known
    cases run
    refine ⟨onward, ?_⟩
    intro unit same
    cases same
    exact live
  · simp only [known] at run
    cases run
    refine ⟨Std.Refl.refl _, fun unit same => ⟨_, here, ?_⟩⟩
    cases same
    rw [Loader.live?, known]
    rfl

end Compiled

theorem ask_onward {loader : Loader} (here : before.loaders[id]? = some loader)
    {answer : Except Error UnitType} (run : resolveIn name [id] before = (answer, after)) :
    before.Onward after ∧ ∀ unit, answer = .ok unit →
      ∃ next, after.loaders[id]? = some next ∧ next.live? name = some unit := by
  cases loader with
  | host units =>
      rw [ask_host here] at run
      cases given : units.lookup name with
      | none =>
          simp only [given] at run
          cases run
          exact ⟨Std.Refl.refl _, nofun⟩
      | some unit =>
          simp only [given] at run
          cases run
          refine ⟨Std.Refl.refl _, fun unit same => ⟨_, here, ?_⟩⟩
          cases same
          exact given
  | compiled parent pending defined =>
      rw [ask_compiled here] at run
      rcases known : defined.lookup name with _ | ⟨image, _ | unit⟩
      · simp only [known] at run
        exact findLocal_onward here known run
      · simp only [known] at run
        obtain ⟨onward, live⟩ := redefine_onward here known
        cases run
        refine ⟨onward, ?_⟩
        intro unit same
        cases same
        exact live
      · simp only [known] at run
        cases run
        refine ⟨Std.Refl.refl _, fun unit same => ⟨_, here, ?_⟩⟩
        cases same
        rw [Loader.live?, known]
        rfl

/-- Resolving a name gives the unit that the name stands for from then on. -/
theorem resolve_onward {loader : LoaderId} {answer : Except Error UnitType}
    (run : resolve loader name before = (answer, after)) :
    before.Onward after ∧ ∀ unit, answer = .ok unit →
      after.standing? loader name = some unit := by
  rw [resolve_owner] at run
  cases owned : before.owner? loader name with
  | none =>
      simp only [owned] at run
      cases run
      exact ⟨Std.Refl.refl _, nofun⟩
  | some owner =>
      simp only [owned] at run
      obtain ⟨-, -, -, -, found, here, -⟩ := World.ownerIn_split owned
      obtain ⟨onward, gives⟩ := ask_onward here run
      refine ⟨onward, ?_⟩
      intro unit same
      obtain ⟨next, there, live⟩ := gives unit same
      exact onward.continues.standing?_owner owned there live

theorem ask_live {loader : Loader} (here : before.loaders[id]? = some loader) {unit : UnitType}
    (live : loader.live? name = some unit) : resolveIn name [id] before = (.ok unit, before) := by
  cases loader with
  | host units =>
      rw [ask_host here]
      simp only [show units.lookup name = some unit from live]
  | compiled parent pending defined =>
      rw [ask_compiled here]
      rcases known : defined.lookup name with _ | ⟨image, _ | found⟩
      · rw [Loader.live?, known] at live
        cases live
      · rw [Loader.live?, known] at live
        cases live
      · rw [Loader.live?, known] at live
        cases live
        rfl

/-- Resolving a name that stands for a unit gives this unit and changes nothing. -/
theorem resolve_standing {loader : LoaderId} {unit : UnitType}
    (stands : before.standing? loader name = some unit) :
    resolve loader name before = (.ok unit, before) := by
  obtain ⟨owner, found, owned, here, live⟩ := World.standingIn_iff.mp stands
  have owned : before.owner? loader name = some owner := owned
  rw [resolve_owner, owned]
  exact ask_live here live

theorem standing?_iff {loader : LoaderId} {unit : UnitType} :
    before.standing? loader name = some unit ↔
      resolve loader name before = (.ok unit, before) :=
  ⟨resolve_standing, fun run => (resolve_onward run).2 unit rfl⟩

end Action

end UnitForge
