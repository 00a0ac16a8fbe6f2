import UnitForge.Proofs.Loading.Owner

/-! # Names that cannot be given

A name that is asked for in vain is either one that nobody has, which changes nothing, or one whose
owner has an artifact that is no image of it. The owner uses that artifact up and has forgotten the
name afterwards: it does not say again what was wrong, and the name is left to the loaders behind
it. -/
set_option autoImplicit false
namespace UnitForge

open Step UnitForge.Action

namespace World

/-- A loader has used up the artifact of a name, which is no image of it, and nothing else has
changed. -/
structure UsedUp (owner : LoaderId) (name : String) (why : Malformation) (before after : World) :
    Prop where
  artifact : ∃ parent pending defined output,
    before.loaders[owner]? = some (.compiled parent pending defined) ∧
      pending.get? name = some output ∧ output.read name = .error why
  result : after = before.use owner name
  had : name ∈ before.pending owner
  pending : after.pending owner = (before.pending owner).filter (· ≠ name)
  others : ∀ id, id ≠ owner → after.loaders[id]? = before.loaders[id]?

variable {world : World} {id : LoaderId} {name : String}

theorem use_self {loader : Loader} (here : world.loaders[id]? = some loader) :
    (world.use id name).loaders[id]? = some (taking name loader) := by
  simp [use, here]

theorem use_other {other : LoaderId} (ne : other ≠ id) :
    (world.use id name).loaders[other]? = world.loaders[other]? := by
  simp [use, ne.symm]

section Compiled
variable {parent : LoaderId} {pending : ArtifactTable} {defined : List (String × Definition)}
  {output : OutputUnit} {why : Malformation}
  (here : world.loaders[id]? = some (.compiled parent pending defined))
  (given : pending.get? name = some output)
include here given

theorem usedUp (faulty : output.read name = .error why) :
    UsedUp id name why world (world.use id name) := by
  have before : world.pending id = pending.names := pending_compiled here
  have after : (world.use id name).pending id = (pending.erase name).names :=
    pending_compiled (use_self here)
  refine ⟨⟨parent, pending, defined, output, here, given, faulty⟩, rfl, ?_, ?_, fun _ => use_other⟩
  · rw [before, ArtifactTable.mem_names_iff, ArtifactTable.contains, given]
    rfl
  · rw [before, after, ArtifactTable.names_erase]

end Compiled

theorem leaves_use {parent : LoaderId} {pending : ArtifactTable}
    {defined : List (String × Definition)}
    (here : world.loaders[id]? = some (.compiled parent pending defined))
    (unknown : defined.lookup name = none) :
    ∃ loader, (world.use id name).loaders[id]? = some loader ∧ loader.leaves name = true :=
  ⟨_, use_self here, Loader.leaves_compiled.mpr ⟨unknown, pending.get?_erase_self name⟩⟩

end World

namespace Action

variable {id : LoaderId} {name : String} {before after : World} {fault : Error}

theorem findLocal_error (run : findLocal id name before = (.error fault, after)) :
    (fault = .typeNotFound name ∧ after = before) ∨
      ∃ why, fault = .malformedArtifact name why ∧ before.UsedUp id name why after := by
  by_cases compiled : ∃ parent pending defined,
      before.loaders[id]? = some (.compiled parent pending defined)
  · obtain ⟨parent, pending, defined, here⟩ := compiled
    rw [findLocal_eq here] at run
    cases given : pending.get? name with
    | none =>
        simp only [given] at run
        cases run
        exact .inl ⟨rfl, rfl⟩
    | some output =>
        simp only [given] at run
        cases found : output.read name with
        | ok image =>
            simp only [found] at run
            cases run
        | error why =>
            simp only [found] at run
            cases run
            exact .inr ⟨why, rfl, World.usedUp here given found⟩
  · have foreign : ∀ parent pending defined,
        before.loaders[id]? ≠ some (.compiled parent pending defined) :=
      fun parent pending defined here => compiled ⟨parent, pending, defined, here⟩
    rw [findLocal_foreign foreign] at run
    cases run
    exact .inl ⟨rfl, rfl⟩

theorem ask_error {loader : Loader} (here : before.loaders[id]? = some loader)
    (run : resolveIn name [id] before = (.error fault, after)) :
    (fault = .typeNotFound name ∧ after = before) ∨
      ∃ why, fault = .malformedArtifact name why ∧ before.UsedUp id name why after ∧
        ∃ left, after.loaders[id]? = some left ∧ left.leaves name = true := by
  cases loader with
  | host units =>
      rw [ask_host here] at run
      cases given : units.lookup name with
      | none =>
          simp only [given] at run
          cases run
          exact .inl ⟨rfl, rfl⟩
      | some unit =>
          simp only [given] at run
          cases run
  | compiled parent pending defined =>
      rw [ask_compiled here] at run
      rcases known : defined.lookup name with _ | ⟨image, _ | unit⟩
      · simp only [known] at run
        rcases findLocal_error run with absent | ⟨why, same, used⟩
        · exact .inl absent
        · refine .inr ⟨why, same, used, ?_⟩
          rw [used.result]
          exact World.leaves_use here known
      · simp only [known] at run
        cases run
      · simp only [known] at run
        cases run

/-- A failure to resolve a name: the artifact of its owner is used up, and what the name leads to
next is what it leads to behind the owner. -/
theorem resolve_error {loader : LoaderId}
    (run : resolve loader name before = (.error fault, after)) :
    (fault = .typeNotFound name ∧ after = before) ∨
      ∃ why owner front rest, fault = .malformedArtifact name why ∧
        before.UsedUp owner name why after ∧
        before.chain before.loaders.length loader = front ++ owner :: rest ∧
        resolve loader name after = resolveIn name rest after := by
  have later := (resolve_run run).1
  rw [resolve_owner] at run
  cases owned : before.owner? loader name with
  | none =>
      simp only [owned] at run
      cases run
      exact .inl ⟨rfl, rfl⟩
  | some owner =>
      simp only [owned] at run
      obtain ⟨front, rest, chain, passed, found, here, kept⟩ := World.ownerIn_split owned
      rcases ask_error here run with absent | ⟨why, same, used, left⟩
      · exact .inl absent
      · refine .inr ⟨why, owner, front, rest, same, used, chain, ?_⟩
        have passes : ∀ id ∈ front ++ [owner],
            ∃ loader, after.loaders[id]? = some loader ∧ loader.leaves name = true := by
          intro id member
          rcases List.mem_append.mp member with earlier | last
          · obtain ⟨other, there, leaves⟩ := passed id earlier
            have ne : id ≠ owner := by
              rintro rfl
              cases here.symm.trans there
              cases kept.symm.trans leaves
            exact ⟨other, (used.others id ne).trans there, leaves⟩
          · cases List.mem_singleton.mp last
            exact left
        have again : after.ownerIn name (after.chain after.loaders.length loader) =
            after.ownerIn name rest := by
          rw [later.count, later.chain, chain, List.append_cons]
          exact World.ownerIn_append passes rest
        rw [resolve_owner, resolveIn_owner after name rest, World.owner?, again]

/-- A name that is asked for in vain, whatever happened before. If nobody has it, nothing changes,
and the same call fails in the same way again. Otherwise the error is about an artifact that is no
image of the name: the loader's own one if a unit was to be defined from it, and that of the owner
of the name if the name was resolved. This artifact, and only this one, is used up. The same call
then finds nothing of the name to define, and resolving the name goes on behind the owner. -/
theorem failure_uses_up (loader : LoaderId) (name : String) (before : World) :
    (∀ fault after, findLocal loader name before = (.error fault, after) →
      (fault = .typeNotFound name ∧ after = before) ∨
        ∃ why, fault = .malformedArtifact name why ∧ before.UsedUp loader name why after ∧
          findLocal loader name after = (.error (.typeNotFound name), after)) ∧
    ∀ fault after, resolve loader name before = (.error fault, after) →
      (fault = .typeNotFound name ∧ after = before) ∨
        ∃ why owner front rest, fault = .malformedArtifact name why ∧
          before.UsedUp owner name why after ∧
          before.chain before.loaders.length loader = front ++ owner :: rest ∧
          resolve loader name after = resolveIn name rest after := by
  refine ⟨?_, fun fault after run => resolve_error run⟩
  intro fault after run
  rcases findLocal_error run with absent | ⟨why, same, used⟩
  · exact .inl absent
  · refine .inr ⟨why, same, used, ?_⟩
    obtain ⟨parent, pending, defined, -, here, -⟩ := used.artifact
    have left : (before.use loader name).loaders[loader]? = _ := World.use_self here
    rw [← used.result, taking] at left
    rw [findLocal_eq left, pending.get?_erase_self]

/-! ## A parent that has the name -/

/-- A unit of a host, and a loader that has an artifact of its name that is no image. -/
def hosted : UnitType where
  id := 0
  image := { name := "demo.A", source := "", fields := [], constructors := [] }
  origin := none
  resolver := World.systemHost

def spoiltWorld : World where
  loaders := [.host [("demo.A", hosted)],
    .compiled World.systemHost ⟨[{ name := "demo.A", kind := .unit, bytes := [] }]⟩ []]
  nextUnit := 1
  nextInstance := 0

theorem failure_uses_up_hosted : ∃ after,
    resolve 1 "demo.A" spoiltWorld = (.error (.malformedArtifact "demo.A" .missingHeader), after) ∧
      spoiltWorld.pending 1 = ["demo.A"] ∧ after.pending 1 = [] ∧
      resolve 1 "demo.A" after = (.ok hosted, after) := by
  have run : resolve 1 "demo.A" spoiltWorld =
      (.error (.malformedArtifact "demo.A" .missingHeader), spoiltWorld.use 1 "demo.A") := rfl
  refine ⟨_, run, rfl, ?_⟩
  rcases (failure_uses_up 1 "demo.A" spoiltWorld).2 _ _ run with
    ⟨absurd, -⟩ | ⟨why, owner, front, rest, -, used, chain, again⟩
  · cases absurd
  · have chain : [1, 0] = front ++ owner :: rest := chain
    rcases front with _ | ⟨first, _ | ⟨second, front⟩⟩
    · cases chain
      exact ⟨used.pending, again⟩
    · cases chain
      cases used.had
    · simp at chain

end Action

end UnitForge
