import UnitForge.Proofs.Loading.Fresh
import UnitForge.Proofs.Loading.Standing

/-! # Worlds between calls

What happens to a world besides looking names up: loaders are added, hosts are given units, and
units that nobody holds any more are let go of. The books stay in order, and the loader of a
compilation answers every name as it did before. -/
set_option autoImplicit false
namespace UnitForge

open Step UnitForge.Action

namespace World

variable {before after world : World} {held : UnitType → Prop} {unit : UnitType}

theorem Refines.trans {id : LoaderId} {before middle after : Loader}
    (first : Refines id before middle) (second : Refines id middle after) :
    Refines id before after where
  parent := second.parent.trans first.parent
  passes name left := second.passes name (first.passes name left)
  retains name meaning := (first.retains name meaning).trans (second.retains name meaning)

/-- A later world, in which the loaders of compilations answer as they did. -/
def Evolves (before after : World) : Prop :=
  ∀ (id : LoaderId) parent pending defined,
    before.loaders[id]? = some (.compiled parent pending defined) →
    ∃ next, after.loaders[id]? = some next ∧ Refines id (.compiled parent pending defined) next

instance : IsPreorder World Evolves where
  refl _ id _ _ _ here := ⟨_, here, .refl id _⟩
  trans _ middle _ first second id parent pending defined here := by
    obtain ⟨next, there, refined⟩ := first id parent pending defined here
    cases next with
    | host units => cases refined.parent
    | compiled parent' pending' defined' =>
        obtain ⟨last, found, further⟩ := second id parent' pending' defined' there
        exact ⟨last, found, refined.trans further⟩

theorem Continues.evolves (continues : before.Continues after) : before.Evolves after := by
  intro id parent pending defined here
  obtain ⟨next, there, step⟩ := continues.loaders id _ here
  exact ⟨next, there, step.toRefines⟩

theorem mem_registered : unit ∈ world.registered ↔
    ∃ (id : LoaderId) (units : List (String × UnitType)),
      world.loaders[id]? = some (.host units) ∧ ∃ entry ∈ units, entry.2 = unit := by
  unfold registered
  rw [List.mem_flatMap]
  constructor
  · rintro ⟨loader, member, inside⟩
    obtain ⟨id, here⟩ := List.mem_iff_getElem?.mp member
    cases loader with
    | host units => exact ⟨id, units, here, List.mem_map.mp inside⟩
    | compiled parent pending defined => cases inside
  · rintro ⟨id, units, here, inside⟩
    exact ⟨_, List.mem_of_getElem? here, List.mem_map.mpr inside⟩

theorem Sound.has_registered (sound : world.Sound held) (member : unit ∈ world.registered) :
    world.Has unit := by
  obtain ⟨id, units, here, entry, inside, rfl⟩ := mem_registered.mp member
  exact ⟨id, _, entry.1, here, (sound.tidy id _ here entry inside).2⟩

theorem mem_registered_of_lookup {id : LoaderId} {units : List (String × UnitType)} {name : String}
    (here : world.loaders[id]? = some (.host units)) (found : units.lookup name = some unit) :
    unit ∈ world.registered :=
  have ⟨_, _, whole, _⟩ := List.lookup_eq_some_iff.mp found
  have member : (name, unit) ∈ units := whole ▸ List.mem_append_right _ List.mem_cons_self
  mem_registered.mpr ⟨id, units, here, (name, unit), member, rfl⟩

/-! ## New loaders -/

def Blank (loader : Loader) : Prop :=
  ∀ id, loader.Tidy id ∧ ∀ name, loader.live? name = none

theorem blank_host : Blank (.host []) :=
  fun _ => ⟨nofun, fun _ => rfl⟩

theorem blank_compiled (parent : LoaderId) (artifacts : ArtifactTable) :
    Blank (.compiled parent artifacts []) :=
  fun _ => ⟨nofun, fun _ => rfl⟩

theorem extend_inside {loader : Loader} {id : LoaderId} {found : Loader}
    (here : world.loaders[id]? = some found) :
    (world.extend loader).loaders[id]? = some found :=
  (extend_old (List.getElem?_eq_some_iff.mp here).1 loader).trans here

theorem of_extend {loader found : Loader} {id : LoaderId}
    (there : (world.extend loader).loaders[id]? = some found) :
    world.loaders[id]? = some found ∨ found = loader := by
  rcases List.mem_append.mp (List.mem_of_getElem? there) with old | new
  · rcases Nat.lt_or_ge id world.loaders.length with inside | beyond
    · rw [extend_old inside] at there
      exact .inl there
    · have bound := (List.getElem?_eq_some_iff.mp there).1
      simp only [extend, List.length_append, List.length_singleton] at bound
      have last : id = world.loaders.length :=
        Nat.le_antisymm (Nat.lt_succ_iff.mp bound) beyond
      subst last
      rw [extend_new] at there
      exact .inr (Option.some.inj there).symm
  · exact .inr (List.mem_singleton.mp new)

theorem evolves_extend (world : World) (loader : Loader) : world.Evolves (world.extend loader) :=
  fun id _ _ _ here => ⟨_, extend_inside here, .refl id _⟩

theorem Sound.extend (sound : world.Sound held) {loader : Loader} (blank : Blank loader) :
    (world.extend loader).Sound held := by
  have known : ∀ unit, (world.extend loader).Knows held unit → world.Knows held unit := by
    rintro unit (holds | ⟨id, found, name, there, live⟩)
    · exact .inl holds
    · rcases of_extend there with here | rfl
      · exact .inr ⟨id, found, name, here, live⟩
      · rw [(blank id).2 name] at live
        cases live
  apply sound.of_fewer known rfl
  case tidy =>
    intro id found there
    rcases of_extend there with here | rfl
    · exact sound.tidy id found here
    · exact (blank id).1
  case keeps =>
    intro unit here
    obtain ⟨found, inside, kept⟩ := sound.keeps unit (known unit here)
    exact ⟨found, extend_inside inside, kept⟩

/-! ## Hosts -/

theorem Sound.newUnit (sound : world.Sound held) (kept : world.Keeps unit)
    (new : unit.id = world.nextUnit) :
    { world with nextUnit := world.nextUnit + 1 }.Sound fun other => held other ∨ other = unit := by
  have known : ∀ other, { world with nextUnit := world.nextUnit + 1 }.Knows
      (fun other => held other ∨ other = unit) other → world.Knows held other ∨ other = unit := by
    rintro other ((holds | same) | has)
    · exact .inl (.inl holds)
    · exact .inr same
    · exact .inl (.inr has)
  constructor
  case tidy => exact sound.tidy
  case keeps =>
    intro other here
    rcases known other here with old | rfl
    · exact sound.keeps other old
    · exact kept
  case numbered =>
    intro other here
    rcases known other here with old | rfl
    · exact Nat.lt_succ_of_lt (sound.numbered other old)
    · rw [new]
      exact Nat.lt_succ_self _
  case distinct =>
    intro other another here there
    rcases known other here, known another there with ⟨old | rfl, old' | rfl⟩
    · exact sound.distinct other another old old'
    · have := sound.numbered other old
      omega
    · have := sound.numbered another old'
      omega
    · exact fun _ => rfl

def hosting (unit : UnitType) : Loader → Loader
  | .host units => .host (assign unit.name unit units)
  | loader => loader

theorem tidy_assign {id : LoaderId} {units : List (String × UnitType)}
    (tidy : (Loader.host units).Tidy id) :
    (Loader.host (assign unit.name unit units)).Tidy id := by
  intro entry member
  rcases List.mem_append.mp member with old | new
  · obtain ⟨inside, other⟩ := List.mem_filter.mp old
    have ne : entry.1 ≠ unit.name := by simpa using other
    rw [lookup_assign_other _ _ ne]
    exact tidy entry inside
  · cases List.mem_singleton.mp new
    exact ⟨rfl, lookup_assign_self _ _ _⟩

section Hosting
variable {host : LoaderId} {units : List (String × UnitType)}
  (here : before.loaders[host]? = some (.host units))
  (loaders : after.loaders = before.loaders.modify host (hosting unit))
include here loaders

theorem evolves_hosting : before.Evolves after := by
  intro id parent pending defined found
  have ne : host ≠ id := by
    rintro rfl
    cases here.symm.trans found
  refine ⟨_, modified_loader loaders found, ?_⟩
  rw [if_neg ne]
  exact .refl id _

theorem Knows.hosting {other : UnitType} (holds : held unit) (known : after.Knows held other) :
    before.Knows held other := by
  rcases known with holds | ⟨id, next, name, there, live⟩
  · exact .inl holds
  · obtain ⟨loader, old, rfl⟩ := of_modified_loader loaders there
    by_cases same : host = id
    · subst same
      cases here.symm.trans old
      rw [if_pos rfl, World.hosting, Loader.live?] at live
      by_cases named : name = unit.name
      · subst named
        rw [lookup_assign_self] at live
        cases live
        exact .inl holds
      · rw [lookup_assign_other _ _ named] at live
        exact .inr ⟨host, _, name, old, live⟩
    · rw [if_neg same] at live
      exact .inr ⟨id, loader, name, old, live⟩

theorem Sound.hosting (sound : before.Sound held) (counter : after.nextUnit = before.nextUnit)
    (holds : held unit) : after.Sound held := by
  have known (other : UnitType) : after.Knows held other → before.Knows held other :=
    Knows.hosting here loaders holds
  apply sound.of_fewer known counter
  case tidy =>
    intro id next there
    obtain ⟨loader, old, rfl⟩ := of_modified_loader loaders there
    by_cases same : host = id
    · subst same
      cases here.symm.trans old
      rw [if_pos rfl]
      exact tidy_assign (sound.tidy host _ old)
    · rw [if_neg same]
      exact sound.tidy id loader old
  case keeps =>
    intro other inside
    obtain ⟨loader, old, kept⟩ := sound.keeps other (known other inside)
    refine ⟨_, modified_loader loaders old, ?_⟩
    by_cases same : host = other.resolver
    · rw [← same] at old
      cases here.symm.trans old
      rw [if_pos same]
      trivial
    · rw [if_neg same]
      exact kept

end Hosting

/-! ## Letting go -/

def letGo (alive : List Nat) : Loader → Loader
  | .host units => .host units
  | .compiled parent pending defined =>
    .compiled parent pending (defined.map fun (name, d) => (name, forget alive d))

theorem lookup_map_snd {α β : Type} (f : α → β) (name : String) (things : List (String × α)) :
    (things.map fun (key, value) => (key, f value)).lookup name = (things.lookup name).map f := by
  induction things with
  | nil => rfl
  | cons first rest ih =>
      obtain ⟨key, value⟩ := first
      rw [List.map_cons, List.lookup_cons, List.lookup_cons]
      cases name == key with
      | true => rfl
      | false => exact ih

theorem live?_letGo {alive : List Nat} {name : String} {parent : LoaderId} {pending : ArtifactTable}
    {defined : List (String × Definition)} :
    (letGo alive (.compiled parent pending defined)).live? name =
      ((Loader.compiled parent pending defined).live? name).filter
        fun unit => alive.contains unit.id := by
  rw [letGo, Loader.live?, lookup_map_snd, Loader.live?]
  cases defined.lookup name with
  | none => rfl
  | some definition => rfl

theorem live?_of_alive {alive : List Nat} {loader : Loader} {name : String}
    (live : loader.live? name = some unit) (lives : unit.id ∈ alive) :
    (letGo alive loader).live? name = some unit := by
  cases loader with
  | host units => exact live
  | compiled parent pending defined =>
      rw [live?_letGo, Option.filter_eq_some_iff]
      exact ⟨live, List.contains_iff_mem.mpr lives⟩

theorem continues_letGo {id : LoaderId} {loader : Loader} (tidy : loader.Tidy id)
    (alive : List Nat) : Loader.Continues id loader (letGo alive loader) := by
  cases loader with
  | host units => exact .refl id _
  | compiled parent pending defined =>
      have same : ∀ name, (letGo alive (.compiled parent pending defined)).answer? id name =
          (Loader.compiled parent pending defined).answer? id name := by
        intro name
        rw [letGo, answer?_compiled, answer?_compiled, lookup_map_snd]
        cases known : defined.lookup name with
        | none => rfl
        | some definition =>
            have order := (tidy name definition known).1
            have means : Meaning.ofDefinition id (forget alive definition) =
                Meaning.ofDefinition id definition := by
              obtain ⟨image, _ | unit⟩ := definition
              · rfl
              · obtain ⟨rfl, rfl⟩ := order.unit unit rfl
                unfold forget
                by_cases kept : unit.id ∈ alive
                · simp [Option.filter_some, kept]
                · simp [Option.filter_some, kept, Meaning.ofDefinition, Meaning.ofUnit]
            exact congrArg (fun meaning => some (some meaning)) means
      refine ⟨⟨rfl, fun name left => (same name).trans left, ?_⟩, nofun⟩
      intro name meaning
      rw [same name]

theorem tidy_letGo {id : LoaderId} {loader : Loader} (tidy : loader.Tidy id) (alive : List Nat) :
    (letGo alive loader).Tidy id := by
  cases loader with
  | host units => exact tidy
  | compiled parent pending defined =>
      intro name definition found
      rw [lookup_map_snd] at found
      obtain ⟨original, known, rfl⟩ := Option.map_eq_some_iff.mp found
      obtain ⟨order, absent⟩ := tidy name original known
      refine ⟨⟨order.named, ?_⟩, absent⟩
      intro unit kept
      exact order.unit unit (Option.filter_eq_some_iff.mp kept).1

theorem release_loader (holders : List UnitType) (world : World) (id : LoaderId) :
    (world.release holders).loaders[id]? = (world.loaders[id]?).map
      (letGo ((world.registered ++ holders).map UnitType.id)) := by
  unfold release
  rw [List.getElem?_map]
  rfl

section Alive
variable (sound : world.Sound held) (holders : List UnitType)
include sound

theorem continues_release : world.Continues (world.release holders) := by
  refine ⟨List.length_map _, ?_⟩
  intro id loader here
  refine ⟨_, (release_loader holders world id).trans (by rw [here]; rfl), ?_⟩
  exact continues_letGo (sound.tidy id loader here) _

/-- Names go on to stand for a unit that is alive. -/
theorem standing?_release (alive : unit ∈ world.registered ++ holders) {loader : LoaderId}
    {name : String} (stands : world.standing? loader name = some unit) :
    (world.release holders).standing? loader name = some unit := by
  refine (continues_release sound holders).standing? ?_ stands
  intro id found name here live
  refine ⟨_, (release_loader holders world id).trans (by rw [here]; rfl), ?_⟩
  exact live?_of_alive live (List.mem_map_of_mem alive)

end Alive

theorem Sound.release (holders : List UnitType) (sound : world.Sound (· ∈ holders)) :
    (world.release holders).Sound (· ∈ holders) := by
  have alive : ∀ unit, (world.release holders).Knows (· ∈ holders) unit →
      world.Knows (· ∈ holders) unit ∧
        unit.id ∈ (world.registered ++ holders).map UnitType.id := by
    rintro unit (holds | ⟨id, next, name, there, live⟩)
    · exact ⟨.inl holds, List.mem_map_of_mem (List.mem_append_right _ holds)⟩
    · rw [release_loader] at there
      obtain ⟨loader, here, rfl⟩ := Option.map_eq_some_iff.mp there
      cases loader with
      | host units =>
          have inside := mem_registered_of_lookup here live
          exact ⟨.inr ⟨id, _, name, here, live⟩,
            List.mem_map_of_mem (List.mem_append_left _ inside)⟩
      | compiled parent pending defined =>
          rw [live?_letGo, Option.filter_eq_some_iff] at live
          exact ⟨.inr ⟨id, _, name, here, live.1⟩, List.contains_iff_mem.mp live.2⟩
  apply sound.of_fewer (fun unit known => (alive unit known).1) rfl
  case tidy =>
    intro id next there
    rw [release_loader] at there
    obtain ⟨loader, here, rfl⟩ := Option.map_eq_some_iff.mp there
    exact tidy_letGo (sound.tidy id loader here) _
  case keeps =>
    intro unit known
    obtain ⟨old, lives⟩ := alive unit known
    obtain ⟨loader, here, kept⟩ := sound.keeps unit old
    refine ⟨_, (release_loader holders world unit.resolver).trans (by rw [here]; rfl), ?_⟩
    cases loader with
    | host units => trivial
    | compiled parent pending defined =>
        have live : (Loader.compiled parent pending defined).live? unit.name = some unit := kept
        exact live?_of_alive live lives

end World

end UnitForge
