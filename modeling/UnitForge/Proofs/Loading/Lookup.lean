import UnitForge.Loading.World
import UnitForge.Proofs.Files.Table
import UnitForge.Proofs.Steps

/-! # Looking units up

What a name leads to at a loader, told without defining anything. Resolving a name may define units
and use up artifacts, but a name that leads to a unit goes on to lead to the same image with the
same resolver. -/
set_option autoImplicit false
namespace UnitForge

open Step

/-! ## Lists of named things -/

section Assign
variable {α : Type}

theorem lookup_filter_ne {name other : String} (things : List (String × α)) (ne : name ≠ other) :
    (things.filter (·.1 ≠ other)).lookup name = things.lookup name := by
  induction things with
  | nil => rfl
  | cons first rest ih =>
      obtain ⟨key, value⟩ := first
      by_cases removed : key = other
      · rw [List.filter_cons_of_neg (by simpa using removed), ih, List.lookup_cons]
        have : (name == key) = false := by simpa [removed] using ne
        rw [this]
      · rw [List.filter_cons_of_pos (by simpa using removed), List.lookup_cons,
          List.lookup_cons, ih]

theorem lookup_filter_self (name : String) (things : List (String × α)) :
    (things.filter (·.1 ≠ name)).lookup name = none := by
  rw [List.lookup_eq_none_iff]
  intro entry member
  have ne : entry.1 ≠ name := by simpa using (List.mem_filter.mp member).2
  exact bne_iff_ne.mpr ne.symm

theorem lookup_assign_self (name : String) (value : α) (things : List (String × α)) :
    (assign name value things).lookup name = some value := by
  rw [assign, List.lookup_append, lookup_filter_self]
  simp

theorem lookup_assign_other {name other : String} (value : α) (things : List (String × α))
    (ne : name ≠ other) : (assign other value things).lookup name = things.lookup name := by
  have none : List.lookup name [(other, value)] = none := by
    rw [List.lookup_cons, beq_eq_false_iff_ne.mpr ne]
    rfl
  rw [assign, List.lookup_append, lookup_filter_ne things ne, none, Option.or_none]

end Assign

/-! ## Answers -/

/-- What a name leads to: an image, and the loader at which the names in it are looked up. -/
structure Meaning where
  image : UnitImage
  resolver : LoaderId

namespace Meaning

def ofUnit (unit : UnitType) : Meaning :=
  { image := unit.image, resolver := unit.resolver }

def ofDefinition (loader : LoaderId) (definition : Definition) : Meaning :=
  match definition.unit with
  | some unit => ofUnit unit
  | none => { image := definition.image, resolver := loader }

/-- What the artifact of a loader means, if it holds an image of the name. -/
def ofArtifact? (loader : LoaderId) (name : String) (output : OutputUnit) : Option Meaning :=
  match output.kind, UnitImage.decode name output.bytes with
  | .unit, .ok image => some { image, resolver := loader }
  | _, _ => none

end Meaning

/-- The answer of a loader to a name: nothing if it leaves the name to its parent. -/
def Loader.answer? (id : LoaderId) (name : String) : Loader → Option (Option Meaning)
  | .host units => some ((units.lookup name).map Meaning.ofUnit)
  | .compiled _ pending defined =>
    match defined.lookup name with
    | some definition => some (some (.ofDefinition id definition))
    | none => (pending.get? name).map (Meaning.ofArtifact? id name)

namespace World

def meaningIn (world : World) (name : String) : List LoaderId → Option Meaning
  | [] => none
  | id :: rest =>
    match world.loaders[id]? with
    | none => none
    | some loader =>
      match loader.answer? id name with
      | some answer => answer
      | none => world.meaningIn name rest

def meaning? (world : World) (loader : LoaderId) (name : String) : Option Meaning :=
  world.meaningIn name (world.chain world.loaders.length loader)

/-- A later world, in which no name means anything else than it did. -/
structure Later (before after : World) : Prop where
  count : after.loaders.length = before.loaders.length
  parents : ∀ id : LoaderId,
    (after.loaders[id]?).map Loader.parent? = (before.loaders[id]?).map Loader.parent?
  retains : ∀ name ids meaning, before.meaningIn name ids = some meaning →
    after.meaningIn name ids = some meaning

instance : IsPreorder World Later where
  refl _ := ⟨rfl, fun _ => rfl, fun _ _ _ found => found⟩
  trans _ _ _ h k := ⟨k.count.trans h.count, fun id => (k.parents id).trans (h.parents id),
    fun name ids meaning found => k.retains name ids meaning (h.retains name ids meaning found)⟩

theorem Later.chain {before after : World} (later : before.Later after) (bound : Nat)
    (id : LoaderId) : after.chain bound id = before.chain bound id := by
  induction bound generalizing id with
  | zero => rfl
  | succ bound ih =>
      have same := later.parents id
      unfold World.chain
      cases here : after.loaders[id]? with
      | none =>
          rw [here, Option.map_none] at same
          rw [Option.map_eq_none_iff.mp same.symm]
      | some loader =>
          rw [here, Option.map_some] at same
          obtain ⟨earlier, found, parent⟩ := Option.map_eq_some_iff.mp same.symm
          simp only [found, parent]
          cases loader.parent? with
          | none => rfl
          | some parent => simp only [ih]

theorem Later.meaning? {before after : World} (later : before.Later after) {loader : LoaderId}
    {name : String} {meaning : Meaning} (found : before.meaning? loader name = some meaning) :
    after.meaning? loader name = some meaning := by
  unfold World.meaning? at found ⊢
  rw [later.count, later.chain]
  exact later.retains _ _ _ found

/-! ## Changes of loaders -/

/-- A loader in the place of another one, which gives the same answers but for those that are
faults. -/
structure Refines (id : LoaderId) (before after : Loader) : Prop where
  parent : after.parent? = before.parent?
  passes : ∀ name, before.answer? id name = none → after.answer? id name = none
  retains : ∀ name meaning, before.answer? id name = some (some meaning) ↔
    after.answer? id name = some (some meaning)

theorem Refines.refl (id : LoaderId) (loader : Loader) : Refines id loader loader :=
  ⟨rfl, fun _ passes => passes, fun _ _ => Iff.rfl⟩

theorem later_of_each {before after : World}
    (count : after.loaders.length = before.loaders.length)
    (each : ∀ (id : LoaderId) loader, before.loaders[id]? = some loader →
      ∃ next, after.loaders[id]? = some next ∧ Refines id loader next) : before.Later after := by
  have absent (id : LoaderId) (gone : before.loaders[id]? = none) : after.loaders[id]? = none := by
    rw [List.getElem?_eq_none_iff] at gone ⊢
    rwa [count]
  refine ⟨count, ?_, ?_⟩
  · intro id
    cases here : before.loaders[id]? with
    | none => rw [absent id here]
    | some loader =>
        obtain ⟨next, there, refined⟩ := each id loader here
        rw [there, Option.map_some, Option.map_some, refined.parent]
  · intro name ids
    induction ids with
    | nil => exact fun _ => nofun
    | cons id rest ih =>
        intro meaning found
        unfold meaningIn at found ⊢
        cases here : before.loaders[id]? with
        | none => simp only [here] at found; cases found
        | some loader =>
            obtain ⟨next, there, refined⟩ := each id loader here
            simp only [here] at found
            simp only [there]
            cases answer : loader.answer? id name with
            | none =>
                simp only [answer] at found
                simp only [refined.passes name answer]
                exact ih meaning found
            | some answer' =>
                simp only [answer] at found
                subst found
                simp only [(refined.retains name meaning).mp answer]

theorem modified_loader {before after : World} {id : LoaderId} {change : Loader → Loader}
    (loaders : after.loaders = before.loaders.modify id change) {other : LoaderId} {loader : Loader}
    (here : before.loaders[other]? = some loader) :
    after.loaders[other]? = some (if id = other then change loader else loader) := by
  rw [loaders, List.getElem?_modify, here]
  by_cases same : id = other
  · simp [same]
  · simp [same]

/-- Whatever happens to the counters and to one loader that is refined, the world is a later one. -/
theorem later_of_refines {before after : World} {id : LoaderId} {change : Loader → Loader}
    (loaders : after.loaders = before.loaders.modify id change)
    (refines : ∀ loader, before.loaders[id]? = some loader → Refines id loader (change loader)) :
    before.Later after := by
  apply later_of_each (by rw [loaders, List.length_modify])
  intro other loader here
  refine ⟨_, modified_loader loaders here, ?_⟩
  by_cases same : id = other
  · subst same
    rw [if_pos rfl]
    exact refines loader here
  · rw [if_neg same]
    exact .refl other loader

theorem later_of_loaders {before after : World} (same : after.loaders = before.loaders) :
    before.Later after := by
  have modified : after.loaders = before.loaders.modify 0 fun loader => loader := by
    rw [same]
    exact (List.modify_id 0 _).symm
  exact later_of_refines modified fun loader _ => .refl 0 loader

end World

/-! ## Resolution -/

namespace Action

def defining (name : String) (definition : Definition) : Loader → Loader
  | .compiled parent pending defined =>
    .compiled parent pending (assign name definition defined)
  | loader => loader

def taking (name : String) : Loader → Loader
  | .compiled parent pending defined => .compiled parent (pending.erase name) defined
  | loader => loader

def nextOf (world : World) (loader : LoaderId) (image : UnitImage) : UnitType :=
  { id := world.nextUnit, image, origin := none, resolver := loader }

theorem define_run (loader : LoaderId) (image : UnitImage) (name : String) (world : World) :
    define loader image name world = (.ok (nextOf world loader image),
      { world with
        loaders := world.loaders.modify loader
          (defining name { image, unit := some (nextOf world loader image) })
        nextUnit := world.nextUnit + 1 }) :=
  rfl

section Compiled
variable {loader parent : LoaderId} {pending : ArtifactTable} {defined : List (String × Definition)}
  {world : World} (here : world.loaders[loader]? = some (.compiled parent pending defined))
include here

theorem takeArtifact_run (name : String) :
    takeArtifact loader name world = (.ok (pending.get? name),
      { world with loaders := world.loaders.modify loader (taking name) }) := by
  rw [takeArtifact, except_get_run, here]
  rfl

theorem hasArtifact_run (name : String) :
    hasArtifact loader name world = (.ok (pending.contains name), world) := by
  rw [hasArtifact, except_get_run, here]
  rfl

theorem findDefined_run (name : String) : findDefined loader name world =
    match defined.lookup name with
    | none => (.ok none, world)
    | some { unit := some unit, .. } => (.ok (some unit), world)
    | some { image, unit := none } => (.ok (some (nextOf world loader image)),
        (define loader image name world).2) := by
  rw [findDefined, except_get_run, here]
  dsimp only
  rcases defined.lookup name with _ | ⟨image, _ | unit⟩
  · rfl
  · rfl
  · rfl

theorem findLocal_run (name : String) (output : OutputUnit)
    (found : pending.get? name = some output) : findLocal loader name world =
    let taken := { world with loaders := world.loaders.modify loader (taking name) }
    if output.kind ≠ .unit then
      (.error (.malformedArtifact name (.notUnitKind output.kind.label)), taken)
    else match UnitImage.decode name output.bytes with
      | .error fault => (.error (.malformedArtifact name fault), taken)
      | .ok image => define loader image name taken := by
  rw [findLocal, except_bind_ok (takeArtifact_run here name), found]
  dsimp only
  split
  · rfl
  · cases UnitImage.decode name output.bytes with
    | error fault => rfl
    | ok image => rfl

end Compiled

/-! ## Later worlds -/

theorem answer?_compiled (id parent : LoaderId) (name : String) (pending : ArtifactTable)
    (defined : List (String × Definition)) :
    (Loader.compiled parent pending defined).answer? id name =
      match defined.lookup name with
      | some definition => some (some (.ofDefinition id definition))
      | none => (pending.get? name).map (Meaning.ofArtifact? id name) :=
  rfl

section Refinement
variable {id parent : LoaderId} {pending left : ArtifactTable}
  {defined : List (String × Definition)} {name : String}
  (others : ∀ other, other ≠ name → left.get? other = pending.get? other)
include others

theorem refines_defining {definition : Definition}
    (own : (Loader.compiled parent pending defined).answer? id name =
      some (some (.ofDefinition id definition))) :
    World.Refines id (.compiled parent pending defined)
      (.compiled parent left (assign name definition defined)) := by
  refine ⟨rfl, ?_, ?_⟩
  · intro other passes
    have ne : other ≠ name := by
      rintro rfl
      rw [own] at passes
      cases passes
    rw [answer?_compiled, lookup_assign_other _ _ ne, others other ne]
    exact passes
  · intro other meaning
    by_cases here : other = name
    · subst here
      rw [own, answer?_compiled _ _ _ left, lookup_assign_self]
    · rw [answer?_compiled _ _ _ left, lookup_assign_other _ _ here, others other here]
      exact Iff.rfl

theorem refines_taking (gone : left.get? name = none)
    (own : (Loader.compiled parent pending defined).answer? id name = some none) :
    World.Refines id (.compiled parent pending defined) (.compiled parent left defined) := by
  refine ⟨rfl, ?_, ?_⟩
  · intro other passes
    have ne : other ≠ name := by
      rintro rfl
      rw [own] at passes
      cases passes
    rw [answer?_compiled, others other ne]
    exact passes
  · intro other meaning
    by_cases here : other = name
    · subst here
      have unknown : defined.lookup other = none := by
        rw [answer?_compiled] at own
        split at own
        · cases own
        · assumption
      rw [own, answer?_compiled, unknown, gone]
      simp
    · rw [answer?_compiled _ _ _ left, others other here]
      exact Iff.rfl

end Refinement

/-! ## Runs -/

section Local
variable {id parent : LoaderId} {pending : ArtifactTable} {defined : List (String × Definition)}
  {before : World} (here : before.loaders[id]? = some (.compiled parent pending defined))
  {name : String} {answer : Except Error UnitType} {after : World}
include here

theorem define_later {image : UnitImage}
    (known : defined.lookup name = some { image, unit := none })
    (run : define id image name before = (answer, after)) :
    before.Later after ∧ answer = .ok (nextOf before id image) := by
  rw [define_run] at run
  obtain ⟨rfl, rfl⟩ := Prod.mk.inj run
  refine ⟨World.later_of_refines rfl ?_, rfl⟩
  intro loader found
  cases here.symm.trans found
  apply refines_defining (fun _ _ => rfl)
  rw [answer?_compiled, known]
  rfl

theorem findLocal_later {output : OutputUnit} (unknown : defined.lookup name = none)
    (given : pending.get? name = some output)
    (run : findLocal id name before = (answer, after)) :
    before.Later after ∧ ∀ meaning, Meaning.ofArtifact? id name output = some meaning ↔
      ∃ unit, answer = .ok unit ∧ Meaning.ofUnit unit = meaning := by
  have own : (Loader.compiled parent pending defined).answer? id name =
      some (Meaning.ofArtifact? id name output) := by
    rw [answer?_compiled, unknown, given]
    rfl
  have others : ∀ other, other ≠ name → (pending.erase name).get? other = pending.get? other :=
    fun other ne => pending.get?_erase_other ne.symm
  have taken (fault : Meaning.ofArtifact? id name output = none) : before.Later
      { before with loaders := before.loaders.modify id (taking name) } := by
    apply World.later_of_refines rfl
    intro loader found
    cases here.symm.trans found
    exact refines_taking others (pending.get?_erase_self name) (own.trans (congrArg some fault))
  rw [findLocal_run here name output given] at run
  dsimp only at run
  split at run
  · rename_i kind
    obtain ⟨rfl, rfl⟩ := Prod.mk.inj run
    have fault : Meaning.ofArtifact? id name output = none := by
      cases given : output.kind <;> simp [Meaning.ofArtifact?, given] at kind ⊢
    exact ⟨taken fault, fun meaning => by simp [fault]⟩
  · rename_i kind
    have kind : output.kind = .unit := Decidable.not_not.mp kind
    cases decoded : UnitImage.decode name output.bytes with
    | error fault =>
        simp only [decoded] at run
        obtain ⟨rfl, rfl⟩ := Prod.mk.inj run
        have fault : Meaning.ofArtifact? id name output = none := by
          simp [Meaning.ofArtifact?, kind, decoded]
        exact ⟨taken fault, fun meaning => by simp [fault]⟩
    | ok image =>
        simp only [decoded, define_run] at run
        obtain ⟨rfl, rfl⟩ := Prod.mk.inj run
        have means : Meaning.ofArtifact? id name output = some { image, resolver := id } := by
          simp [Meaning.ofArtifact?, kind, decoded]
        constructor
        · apply World.later_of_refines (List.modify_modify_eq _ _ _ _)
          intro loader found
          cases here.symm.trans found
          refine refines_defining others (own.trans ?_)
          rw [means]
          rfl
        · intro meaning
          simp only [means, Option.some.injEq, Except.ok.injEq, exists_eq_left']
          rfl

end Local

theorem resolveIn_run {name : String} {ids : List LoaderId} {before after : World}
    {answer : Except Error UnitType} (run : resolveIn name ids before = (answer, after)) :
    before.Later after ∧ ∀ meaning, before.meaningIn name ids = some meaning ↔
      ∃ unit, answer = .ok unit ∧ Meaning.ofUnit unit = meaning := by
  induction ids with
  | nil =>
      cases run
      exact ⟨Std.Refl.refl _, fun _ => ⟨nofun, nofun⟩⟩
  | cons id rest ih =>
      rw [resolveIn, except_get_run] at run
      unfold World.meaningIn
      cases here : before.loaders[id]? with
      | none =>
          rw [here] at run
          cases run
          exact ⟨Std.Refl.refl _, fun _ => ⟨nofun, nofun⟩⟩
      | some loader =>
          rw [here] at run
          cases loader with
          | host units =>
              dsimp only at run
              cases given : units.lookup name with
              | none =>
                  simp only [given] at run
                  cases run
                  refine ⟨Std.Refl.refl _, ?_⟩
                  simp [Loader.answer?, given]
              | some unit =>
                  simp only [given] at run
                  cases run
                  refine ⟨Std.Refl.refl _, ?_⟩
                  simp [Loader.answer?, given]
          | compiled parent pending defined =>
              dsimp only at run ⊢
              rw [answer?_compiled]
              have look := findDefined_run here name
              rcases known : defined.lookup name with _ | ⟨image, _ | unit⟩
              · simp only [known] at look ⊢
                rw [except_bind_ok look] at run
                dsimp only at run
                rw [except_bind_ok (hasArtifact_run here name)] at run
                cases given : pending.get? name with
                | none =>
                    simp only [ArtifactTable.contains, given] at run
                    exact ih run
                | some output =>
                    simp only [ArtifactTable.contains, given] at run
                    exact findLocal_later here known given run
              · simp only [known] at look ⊢
                rw [except_bind_ok look] at run
                cases run
                obtain ⟨later, -⟩ := define_later here known rfl
                refine ⟨later, ?_⟩
                intro meaning
                simp only [Option.some.injEq, Except.ok.injEq, exists_eq_left']
                rfl
              · simp only [known] at look ⊢
                rw [except_bind_ok look] at run
                cases run
                refine ⟨Std.Refl.refl _, ?_⟩
                intro meaning
                simp only [Option.some.injEq, Except.ok.injEq, exists_eq_left']
                rfl

/-- Resolving a name gives a unit that means what the name meant, if it meant anything, and changes
no meaning. -/
theorem resolve_run {loader : LoaderId} {name : String} {before after : World}
    {answer : Except Error UnitType} (run : resolve loader name before = (answer, after)) :
    before.Later after ∧ ∀ meaning, before.meaning? loader name = some meaning ↔
      ∃ unit, answer = .ok unit ∧ Meaning.ofUnit unit = meaning :=
  resolveIn_run run

end Action

end UnitForge
