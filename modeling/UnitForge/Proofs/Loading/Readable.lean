import UnitForge.Proofs.Evaluation.Mixing
import UnitForge.Proofs.Loading.Definitions
import UnitForge.Proofs.Loading.Failure

/-! # Loaders that can be read

Names in the code of a unit are looked up by the loader of the unit, so a search that starts at one
loader comes to others: to its parents, and to those of the units that are found. If all artifacts
of these loaders can be read, it makes no difference to a search which units happen to be defined:
a name leads to the same image and to the same loader, or to the same error. -/
set_option autoImplicit false
namespace UnitForge

open Step UnitForge.Action

def Loader.Readable : Loader → Prop
  | host _ => True
  | compiled _ pending _ => pending.Decodable

instance (loader : Loader) : Decidable loader.Readable :=
  match loader with
  | .host _ => .isTrue trivial
  | .compiled _ pending _ =>
    have every : (∀ output ∈ pending.outputs, (output.read output.name).isOk = true) ↔
        pending.Decodable := by
      apply forall₂_congr
      intro output _
      cases output.read output.name with
      | ok image => exact iff_of_true rfl ⟨image, rfl⟩
      | error fault => exact iff_of_false Bool.false_ne_true nofun
    decidable_of_iff _ every

namespace World

/-- The loaders that looking names up at a loader, and in the units that are found, comes to. -/
inductive Reaches (world : World) (start : LoaderId) : LoaderId → Prop where
  | self : Reaches world start start
  | parent {id parent : LoaderId} {loader : Loader} : Reaches world start id →
      world.loaders[id]? = some loader → loader.parent? = some parent →
      Reaches world start parent
  | unit {id : LoaderId} {loader : Loader} {name : String} {meaning : Meaning} :
      Reaches world start id → world.loaders[id]? = some loader →
      loader.answer? id name = some (some meaning) → Reaches world start meaning.resolver

/-- All loaders that a loader reaches can be read. -/
def Readable (world : World) (start : LoaderId) : Prop :=
  ∀ id loader, world.Reaches start id → world.loaders[id]? = some loader → loader.Readable

theorem readable_of_all {world : World} (all : ∀ loader ∈ world.loaders, loader.Readable)
    (start : LoaderId) : world.Readable start :=
  fun _ loader _ here => all loader (List.mem_of_getElem? here)

end World

/-! ## One loader -/

section Loader
variable {id : LoaderId} {before after : Loader} {name : String}

theorem Loader.Readable.answers {loader : Loader} (readable : loader.Readable) {parent : LoaderId}
    (compiled : loader.parent? = some parent) : loader.answer? id name ≠ some none := by
  cases loader with
  | host units => cases compiled
  | compiled parent pending defined =>
      rw [answer?_compiled]
      cases defined.lookup name with
      | some definition => exact nofun
      | none =>
          cases given : pending.get? name with
          | none => exact nofun
          | some output =>
              obtain ⟨inside, named⟩ := ArtifactTable.mem_of_get? given
              obtain ⟨image, found⟩ := readable output inside
              rw [named] at found
              dsimp only
              rw [Option.map_some, Meaning.ofArtifact?_eq, found]
              exact nofun

theorem Loader.Continues.answer? (continues : Loader.Continues id before after)
    (readable : before.Readable) (name : String) :
    after.answer? id name = before.answer? id name := by
  cases root : before.parent? with
  | none => rw [continues.host root]
  | some parent =>
      rcases answer : before.answer? id name with _ | _ | meaning
      · exact continues.passes name answer
      · exact absurd answer (readable.answers root)
      · exact (continues.retains name meaning).mp answer

end Loader

/-! ## Searches -/

namespace World

variable {first now : World} {start loader : LoaderId} {name : String}

theorem Reaches.of_chain {id : LoaderId} (bound : Nat) (reached : first.Reaches start loader)
    (member : id ∈ first.chain bound loader) : first.Reaches start id := by
  induction bound generalizing loader with
  | zero => cases member
  | succ bound ih =>
      unfold chain at member
      cases here : first.loaders[loader]? with
      | none =>
          simp only [here] at member
          cases member
      | some found =>
          simp only [here] at member
          cases root : found.parent? with
          | none =>
              simp only [root] at member
              exact List.mem_singleton.mp member ▸ reached
          | some parent =>
              simp only [root] at member
              rcases List.mem_cons.mp member with rfl | later
              · exact reached
              · exact ih (reached.parent here root) later

theorem Reaches.of_meaning {meaning : Meaning} (reached : first.Reaches start loader)
    (leads : first.meaning? loader name = some meaning) :
    first.Reaches start meaning.resolver := by
  obtain ⟨owner, found, owned, here, answer⟩ := meaningIn_owner leads
  obtain ⟨front, rest, chain, -⟩ := ownerIn_split owned
  refine .unit (reached.of_chain first.loaders.length ?_) here answer
  rw [chain]
  exact List.mem_append_right _ List.mem_cons_self

section Readable
variable (readable : first.Readable start) (continues : first.Continues now)
  (reached : first.Reaches start loader)
include readable continues reached

theorem Readable.meaning? (name : String) :
    now.meaning? loader name = first.meaning? loader name := by
  have inside (ids : List LoaderId) (each : ∀ id ∈ ids, first.Reaches start id) :
      now.meaningIn name ids = first.meaningIn name ids := by
    induction ids with
    | nil => rfl
    | cons id rest ih =>
        unfold meaningIn
        cases here : first.loaders[id]? with
        | none =>
            have absent : now.loaders[id]? = none := by
              rw [List.getElem?_eq_none_iff] at here ⊢
              rwa [continues.count]
            rw [absent]
        | some found =>
            obtain ⟨next, there, step⟩ := continues.loaders id found here
            have own := each id List.mem_cons_self
            simp only [there, step.answer? (readable id found own here) name,
              ih fun other member => each other (List.mem_cons_of_mem _ member)]
  unfold World.meaning?
  rw [continues.count, continues.later.chain]
  exact inside _ fun id member => reached.of_chain _ member

/-- The only error of a search is that there is nothing of the name. -/
theorem Readable.resolve_error {fault : Error} {after : World}
    (run : resolve loader name now = (.error fault, after)) : fault = .typeNotFound name := by
  have onward := (resolve_onward run).1
  rw [resolve_owner] at run
  cases owned : now.owner? loader name with
  | none =>
      simp only [owned] at run
      cases run
      rfl
  | some owner =>
      simp only [owned] at run
      obtain ⟨front, rest, chain, -, found, there, kept⟩ := ownerIn_split owned
      rcases ask_error there run with ⟨same, -⟩ | ⟨why, -, -, last, beyond, left⟩
      · exact same
      -- An owner that uses an artifact up would leave a name that it has always answered for.
      · have own : first.Reaches start owner := by
          rw [continues.count, continues.later.chain] at chain
          apply reached.of_chain first.loaders.length
          rw [chain]
          exact List.mem_append_right _ List.mem_cons_self
        have inside := (List.getElem?_eq_some_iff.mp there).1
        rw [continues.count] at inside
        have here := List.getElem?_eq_getElem inside
        obtain ⟨next, same, step⟩ := continues.loaders owner _ here
        cases there.symm.trans same
        obtain ⟨again, same, further⟩ := onward.continues.loaders owner found there
        cases beyond.symm.trans same
        have answer := (step.trans further).answer? (readable owner _ own here) name
        rw [(Loader.leaves_iff owner).mp left, ← step.answer? (readable owner _ own here) name]
          at answer
        rw [(Loader.leaves_iff owner).mpr answer.symm] at kept
        cases kept

end Readable

end World

end UnitForge
