import UnitForge.Proofs.Loading.Failure
import UnitForge.Proofs.Loading.Standing

/-! # Names that are not lost

A loader gives a name up only when it finds that the artifact of the name is no image of it, which
is an error of whoever asked. As long as nobody is told of such an error, a name that stands for a
unit that is alive did so all along. -/
set_option autoImplicit false
namespace UnitForge

open Step UnitForge.Action

namespace World

/-- A later world, in which no loader leaves a name to its parent that it did not leave before. -/
def Retains (before after : World) : Prop :=
  ∀ (id : LoaderId) loader, before.loaders[id]? = some loader →
    ∃ next, after.loaders[id]? = some next ∧
      ∀ name, loader.leaves name = false → next.leaves name = false

instance : IsPreorder World Retains where
  refl _ _ loader here := ⟨loader, here, fun _ kept => kept⟩
  trans _ _ _ first second := by
    intro id loader here
    obtain ⟨middle, there, kept⟩ := first id loader here
    obtain ⟨last, found, further⟩ := second id middle there
    exact ⟨last, found, fun name own => further name (kept name own)⟩

variable {before after : World} {id : LoaderId} {name : String}

theorem retains_of_modified {loader : Loader} {change : Loader → Loader}
    (here : before.loaders[id]? = some loader)
    (loaders : after.loaders = before.loaders.modify id change)
    (kept : ∀ name, loader.leaves name = false → (change loader).leaves name = false) :
    before.Retains after := by
  intro other found there
  refine ⟨_, modified_loader loaders there, ?_⟩
  intro name own
  by_cases same : id = other
  · subst same
    cases here.symm.trans there
    simpa using kept name own
  · simpa [same] using own

section Compiled
variable {parent : LoaderId} {pending left : ArtifactTable} {defined : List (String × Definition)}

theorem leaves_defining (definition : Definition)
    (others : ∀ other, other ≠ name → left.get? other = pending.get? other) {other : String}
    (own : (Loader.compiled parent pending defined).leaves other = false) :
    (Loader.compiled parent left (assign name definition defined)).leaves other = false := by
  by_cases same : other = name
  · subst same
    simp [Loader.leaves, lookup_assign_self]
  · simp only [Loader.leaves, ArtifactTable.contains] at own ⊢
    rw [lookup_assign_other _ _ same, others other same]
    exact own

theorem define_retains (here : before.loaders[id]? = some (.compiled parent pending defined))
    (image : UnitImage) : before.Retains (define id image name before).2 :=
  retains_of_modified here rfl fun _ own => leaves_defining _ (fun _ _ => rfl) own

theorem define_use_retains (here : before.loaders[id]? = some (.compiled parent pending defined))
    (image : UnitImage) : before.Retains (define id image name (before.use id name)).2 :=
  retains_of_modified here (List.modify_modify_eq _ _ _ _)
    fun _ own => leaves_defining _ (fun _ ne => pending.get?_erase_other ne.symm) own

end Compiled

end World

namespace Action

variable {before after : World} {id : LoaderId} {name : String}

theorem findLocal_retains {parent : LoaderId} {pending : ArtifactTable}
    {defined : List (String × Definition)}
    (here : before.loaders[id]? = some (.compiled parent pending defined)) {unit : UnitType}
    (run : findLocal id name before = (.ok unit, after)) : before.Retains after := by
  rw [findLocal_eq here] at run
  cases given : pending.get? name with
  | none =>
      simp only [given] at run
      cases run
  | some output =>
      simp only [given] at run
      cases found : output.read name with
      | error why =>
          simp only [found] at run
          cases run
      | ok image =>
          simp only [found] at run
          have retains : before.Retains (define id image name (before.use id name)).2 :=
            World.define_use_retains here image
          rw [run] at retains
          exact retains

theorem ask_retains {loader : Loader} (here : before.loaders[id]? = some loader)
    {unit : UnitType} (run : resolveIn name [id] before = (.ok unit, after)) :
    before.Retains after := by
  cases loader with
  | host units =>
      rw [ask_host here] at run
      cases given : units.lookup name with
      | none =>
          simp only [given] at run
          cases run
      | some unit =>
          simp only [given] at run
          cases run
          exact Std.Refl.refl _
  | compiled parent pending defined =>
      rw [ask_compiled here] at run
      rcases known : defined.lookup name with _ | ⟨image, _ | unit⟩
      · simp only [known] at run
        exact findLocal_retains here run
      · simp only [known] at run
        have retains : before.Retains (define id image name before).2 :=
          World.define_retains here image
        rw [run] at retains
        exact retains
      · simp only [known] at run
        cases run
        exact Std.Refl.refl _

/-- No name is lost unless an artifact is found to be no image of its name. -/
theorem resolve_retains {loader : LoaderId} {answer : Except Error UnitType}
    (run : resolve loader name before = (answer, after))
    (sane : ∀ why, answer ≠ .error (.malformedArtifact name why)) : before.Retains after := by
  cases answer with
  | error fault =>
      rcases resolve_error run with ⟨-, rfl⟩ | ⟨why, -, -, -, rfl, -⟩
      · exact Std.Refl.refl _
      · exact absurd rfl (sane why)
  | ok unit =>
      rw [resolve_owner] at run
      cases owned : before.owner? loader name with
      | none =>
          simp only [owned] at run
          cases run
      | some owner =>
          simp only [owned] at run
          obtain ⟨-, -, -, -, found, here, -⟩ := World.ownerIn_split owned
          exact ask_retains here run

end Action

/-! ## Looking back -/

namespace World

variable {before after : World} {held : UnitType → Prop} {unit : UnitType} {loader : LoaderId}
  {name : String}

theorem Sound.name_of_live (sound : before.Sound held) {id : LoaderId} {found : Loader}
    (here : before.loaders[id]? = some found) (live : found.live? name = some unit) :
    unit.name = name := by
  have tidy := sound.tidy id found here
  cases found with
  | host units =>
      obtain ⟨front, rest, whole, -⟩ := List.lookup_eq_some_iff.mp live
      have member : (name, unit) ∈ units := whole ▸ List.mem_append_right _ List.mem_cons_self
      exact (tidy _ member).1
  | compiled parent pending defined =>
      obtain ⟨definition, known, has⟩ := Option.bind_eq_some_iff.mp live
      obtain ⟨order, -⟩ := tidy name definition known
      have image := (order.unit unit has).1
      exact (congrArg UnitImage.name image).trans order.named

theorem Sound.name_of_standing (sound : before.Sound held)
    (stands : before.standing? loader name = some unit) : unit.name = name := by
  obtain ⟨id, found, -, here, live⟩ := standingIn_iff.mp stands
  exact sound.name_of_live here live

theorem Onward.live_before (onward : before.Onward after) (sound : before.Sound held)
    (known : before.Knows held unit) {id : LoaderId} {first next : Loader}
    (here : before.loaders[id]? = some first) (there : after.loaders[id]? = some next)
    (live : next.live? name = some unit) : first.live? name = some unit := by
  have later : after.Sound held := onward.sound held sound
  obtain ⟨again, found, step⟩ := onward.loaders id first here
  cases there.symm.trans found
  cases first with
  | host units =>
      rw [← step.host rfl]
      exact live
  | compiled parent pending defined =>
      have named : unit.name = name := later.name_of_live there live
      cases next with
      | host units => cases step.parent
      | compiled parent' pending' defined' =>
          obtain ⟨definition, entry, has⟩ := Option.bind_eq_some_iff.mp live
          have resolver := ((later.tidy id _ there name definition entry).1.unit unit has).2
          obtain ⟨keeper, at_, kept⟩ := sound.keeps unit known
          rw [resolver] at at_
          cases here.symm.trans at_
          rw [← named]
          exact kept

theorem Onward.standing_before (onward : before.Onward after) (retains : before.Retains after)
    (sound : before.Sound held) (known : before.Knows held unit)
    (stands : after.standing? loader name = some unit) :
    before.standing? loader name = some unit := by
  obtain ⟨owner, next, owned, there, live⟩ := standingIn_iff.mp stands
  have exists_before (id : LoaderId) (found : Loader) (here : after.loaders[id]? = some found) :
      ∃ first, before.loaders[id]? = some first := by
    have inside := (List.getElem?_eq_some_iff.mp here).1
    rw [onward.count] at inside
    exact ⟨_, List.getElem?_eq_getElem inside⟩
  rw [onward.count, onward.continues.later.chain] at owned
  obtain ⟨front, rest, chain, passed, -⟩ := ownerIn_split owned
  obtain ⟨first, here⟩ := exists_before owner next there
  have live : first.live? name = some unit := onward.live_before sound known here there live
  have passes : ∀ id ∈ front, ∃ loader, before.loaders[id]? = some loader ∧
      loader.leaves name = true := by
    intro id member
    obtain ⟨last, found, left⟩ := passed id member
    obtain ⟨earlier, at_⟩ := exists_before id last found
    refine ⟨earlier, at_, ?_⟩
    by_contra own
    obtain ⟨again, found', kept⟩ := retains id earlier at_
    cases found.symm.trans found'
    have still := kept name (Bool.eq_false_iff.mpr own)
    rw [left] at still
    cases still
  refine standingIn_iff.mpr ⟨owner, first, ?_, here, live⟩
  rw [chain, ownerIn_append passes, ownerIn, here]
  exact if_neg (Bool.eq_false_iff.mp (Loader.not_leaves_of_live? live))

end World

namespace Action

variable {before : World} {held : UnitType → Prop} {unit : UnitType} {loader : LoaderId}
  {name : String}

/-- Resolving a name gives a unit that is known just if the name stands for the unit. -/
theorem resolve_known_iff (sound : before.Sound held) (known : before.Knows held unit) :
    (resolve loader name before).1 = .ok unit ↔ before.standing? loader name = some unit := by
  constructor
  · intro gave
    have run : resolve loader name before = (.ok unit, (resolve loader name before).2) :=
      Prod.ext gave rfl
    obtain ⟨onward, stands⟩ := resolve_onward run
    have retains := resolve_retains run nofun
    exact onward.standing_before retains sound known (stands unit rfl)
  · intro stands
    rw [resolve_standing stands]

end Action

end UnitForge
