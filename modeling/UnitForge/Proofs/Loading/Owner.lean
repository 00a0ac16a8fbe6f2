import UnitForge.Proofs.Loading.Lookup

/-! # Who answers for a name

A search through loaders stops at the first one that does not leave the name to its parent, and its
outcome is that of asking this loader alone. A host gives the unit it has. The loader of a
compilation gives the unit it has defined, one defined anew from the image, or one defined from the
artifact; an artifact that is no image of the name is used up all the same. -/
set_option autoImplicit false
namespace UnitForge

open Step

/-! ## Artifacts -/

namespace ArtifactTable

theorem mem_names_iff {table : ArtifactTable} {name : String} :
    name ∈ table.names ↔ table.contains name = true := by
  unfold names contains get?
  rw [List.mem_map, List.find?_isSome]
  simp

theorem names_erase (table : ArtifactTable) (name : String) :
    (table.erase name).names = table.names.filter (· ≠ name) := by
  unfold names erase
  rw [List.filter_map]
  rfl

theorem erase_absent {table : ArtifactTable} {name : String} (absent : table.get? name = none) :
    table.erase name = table := by
  unfold get? at absent
  unfold erase
  congr 1
  rw [List.filter_eq_self]
  intro output member
  have other := List.find?_eq_none.mp absent output member
  simpa using other

end ArtifactTable

def OutputUnit.read (name : String) (output : OutputUnit) : Except Malformation UnitImage :=
  if output.kind ≠ .unit then .error (.notUnitKind output.kind.label)
  else UnitImage.decode name output.bytes

theorem Meaning.ofArtifact?_eq (loader : LoaderId) (name : String) (output : OutputUnit) :
    Meaning.ofArtifact? loader name output =
      match output.read name with
      | .error _ => none
      | .ok image => some { image, resolver := loader } := by
  unfold Meaning.ofArtifact? OutputUnit.read
  cases output.kind with
  | unit =>
      rw [if_neg (not_not_intro rfl)]
      cases UnitImage.decode name output.bytes with
      | error why => rfl
      | ok image => rfl
  | source => rfl
  | other => rfl

/-! ## Owners -/

namespace Loader

/-- Whether a loader leaves a name to its parent. -/
def leaves (name : String) : Loader → Bool
  | host _ => false
  | compiled _ pending defined => (defined.lookup name).isNone && !pending.contains name

def live? (name : String) : Loader → Option UnitType
  | host units => units.lookup name
  | compiled _ _ defined => (defined.lookup name).bind Definition.unit

theorem leaves_compiled {name : String} {parent : LoaderId} {pending : ArtifactTable}
    {defined : List (String × Definition)} :
    (compiled parent pending defined).leaves name = true ↔
      defined.lookup name = none ∧ pending.get? name = none := by
  simp [leaves, ArtifactTable.contains]

end Loader

namespace World

/-- The loader that answers for a name: the first one that does not leave it to its parent. -/
def ownerIn (world : World) (name : String) : List LoaderId → Option LoaderId
  | [] => none
  | id :: rest =>
    match world.loaders[id]? with
    | none => none
    | some loader => if loader.leaves name then world.ownerIn name rest else some id

def owner? (world : World) (loader : LoaderId) (name : String) : Option LoaderId :=
  world.ownerIn name (world.chain world.loaders.length loader)

def use (id : LoaderId) (name : String) (world : World) : World :=
  { world with loaders := world.loaders.modify id (Action.taking name) }

theorem pending_compiled {world : World} {id parent : LoaderId} {pending : ArtifactTable}
    {defined : List (String × Definition)}
    (here : world.loaders[id]? = some (.compiled parent pending defined)) :
    world.pending id = pending.names := by
  rw [World.pending, here]
  rfl

theorem exists_chain {world : World} {loader : LoaderId} {found : Loader}
    (here : world.loaders[loader]? = some found) :
    ∃ rest, world.chain world.loaders.length loader = loader :: rest := by
  have inside := (List.getElem?_eq_some_iff.mp here).1
  obtain ⟨count, length⟩ := Nat.exists_eq_succ_of_ne_zero (Nat.ne_of_gt (Nat.zero_lt_of_lt inside))
  rw [length, World.chain, here]
  dsimp only
  cases found.parent? with
  | none => exact ⟨[], rfl⟩
  | some parent => exact ⟨_, rfl⟩

theorem ownerIn_split {world : World} {name : String} {ids : List LoaderId} {owner : LoaderId}
    (found : world.ownerIn name ids = some owner) :
    ∃ front rest, ids = front ++ owner :: rest ∧
      (∀ id ∈ front, ∃ loader, world.loaders[id]? = some loader ∧ loader.leaves name = true) ∧
      ∃ loader, world.loaders[owner]? = some loader ∧ loader.leaves name = false := by
  induction ids with
  | nil => cases found
  | cons id others ih =>
      unfold ownerIn at found
      cases here : world.loaders[id]? with
      | none => simp only [here] at found; cases found
      | some loader =>
          simp only [here] at found
          by_cases left : loader.leaves name = true
          · rw [if_pos left] at found
            obtain ⟨front, rest, rfl, before, own⟩ := ih found
            refine ⟨id :: front, rest, rfl, ?_, own⟩
            intro other member
            rcases List.mem_cons.mp member with rfl | later
            · exact ⟨loader, here, left⟩
            · exact before other later
          · rw [if_neg left] at found
            cases found
            exact ⟨[], others, rfl, nofun, loader, here, Bool.eq_false_iff.mpr left⟩

/-- A search passes by loaders that leave the name to their parents. -/
theorem ownerIn_append {world : World} {name : String} {front : List LoaderId}
    (before : ∀ id ∈ front, ∃ loader, world.loaders[id]? = some loader ∧ loader.leaves name = true)
    (rest : List LoaderId) : world.ownerIn name (front ++ rest) = world.ownerIn name rest := by
  induction front with
  | nil => rfl
  | cons id front ih =>
      obtain ⟨loader, here, left⟩ := before id List.mem_cons_self
      rw [List.cons_append, ownerIn, here]
      dsimp only
      rw [if_pos left]
      exact ih fun other member => before other (List.mem_cons_of_mem _ member)

end World

/-! ## Asking one loader -/

namespace Action

theorem findLocal_foreign {id : LoaderId} {world : World}
    (foreign : ∀ parent pending defined,
      world.loaders[id]? ≠ some (.compiled parent pending defined)) (name : String) :
    findLocal id name world = (.error (.typeNotFound name), world) := by
  have nothing : takeArtifact id name world = (.ok none, world) := by
    rw [takeArtifact, except_get_run]
    rcases here : world.loaders[id]? with _ | ⟨_ | ⟨parent, pending, defined⟩⟩
    · rfl
    · rfl
    · exact absurd here (foreign parent pending defined)
  rw [findLocal, except_bind_ok nothing]
  rfl

theorem findDefined_foreign {id : LoaderId} {world : World}
    (foreign : ∀ parent pending defined,
      world.loaders[id]? ≠ some (.compiled parent pending defined)) (name : String) :
    findDefined id name world = (.ok none, world) := by
  rw [findDefined, except_get_run]
  rcases here : world.loaders[id]? with _ | ⟨_ | ⟨parent, pending, defined⟩⟩
  · rfl
  · rfl
  · exact absurd here (foreign parent pending defined)

section Compiled
variable {id parent : LoaderId} {pending : ArtifactTable} {defined : List (String × Definition)}
  {world : World} (here : world.loaders[id]? = some (.compiled parent pending defined))
include here

theorem use_absent {name : String} (absent : pending.get? name = none) :
    world.use id name = world := by
  have same : world.loaders.modify id (taking name) = world.loaders := by
    apply List.ext_getElem?
    intro other
    rw [List.getElem?_modify]
    by_cases eq : id = other
    · subst eq
      simp [here, taking, ArtifactTable.erase_absent absent]
    · simp [eq]
  rw [World.use, same]

theorem findLocal_eq (name : String) : findLocal id name world =
    match pending.get? name with
    | none => (.error (.typeNotFound name), world)
    | some output =>
      match output.read name with
      | .error why => (.error (.malformedArtifact name why), world.use id name)
      | .ok image => define id image name (world.use id name) := by
  cases given : pending.get? name with
  | none =>
      have unchanged := use_absent here given
      unfold World.use at unchanged
      rw [findLocal, except_bind_ok (takeArtifact_run here name), given, unchanged]
      rfl
  | some output =>
      rw [findLocal_run here name output given]
      unfold OutputUnit.read
      dsimp only
      by_cases kind : output.kind ≠ .unit
      · rw [if_pos kind, if_pos kind]
        rfl
      · rw [if_neg kind, if_neg kind]
        rfl

theorem resolveIn_compiled (name : String) (rest : List LoaderId) :
    resolveIn name (id :: rest) world =
      match defined.lookup name with
      | some { unit := some unit, .. } => (.ok unit, world)
      | some { image, unit := none } => define id image name world
      | none =>
        if pending.contains name then findLocal id name world
        else resolveIn name rest world := by
  rw [resolveIn, except_get_run, here]
  dsimp only
  have look := findDefined_run here name
  rcases known : defined.lookup name with _ | ⟨image, _ | unit⟩
  · simp only [known] at look ⊢
    rw [except_bind_ok look]
    dsimp only
    rw [except_bind_ok (hasArtifact_run here name)]
    split <;> rfl
  · simp only [known] at look ⊢
    rw [except_bind_ok look]
    rfl
  · simp only [known] at look ⊢
    rw [except_bind_ok look]
    rfl

theorem ask_compiled (name : String) : resolveIn name [id] world =
    match defined.lookup name with
    | some { unit := some unit, .. } => (.ok unit, world)
    | some { image, unit := none } => define id image name world
    | none => findLocal id name world := by
  rw [resolveIn_compiled here, findLocal_eq here]
  rcases defined.lookup name with _ | ⟨image, _ | unit⟩
  · dsimp only
    cases given : pending.get? name with
    | none =>
        rw [ArtifactTable.contains, given]
        rfl
    | some output => simp [ArtifactTable.contains, given]
  · rfl
  · rfl

end Compiled

theorem ask_host {id : LoaderId} {units : List (String × UnitType)} {world : World}
    (here : world.loaders[id]? = some (.host units)) (name : String) :
    resolveIn name [id] world =
      match units.lookup name with
      | some unit => (.ok unit, world)
      | none => (.error (.typeNotFound name), world) := by
  rw [resolveIn, except_get_run, here]
  dsimp only
  cases units.lookup name with
  | none => rfl
  | some unit => rfl

theorem resolveIn_owned {world : World} {id : LoaderId} {name : String} {loader : Loader}
    (here : world.loaders[id]? = some loader) (owned : loader.leaves name = false)
    (rest : List LoaderId) : resolveIn name (id :: rest) world = resolveIn name [id] world := by
  cases loader with
  | host units => rw [resolveIn, resolveIn, except_get_run, except_get_run, here]
  | compiled parent pending defined =>
      rw [resolveIn_compiled here, resolveIn_compiled here]
      rcases known : defined.lookup name with _ | ⟨image, _ | unit⟩
      · have given : pending.contains name = true := by
          simpa [Loader.leaves, known] using owned
        dsimp only
        rw [if_pos given, if_pos given]
      · rfl
      · rfl

theorem resolveIn_left {world : World} {id : LoaderId} {name : String} {loader : Loader}
    (here : world.loaders[id]? = some loader) (left : loader.leaves name = true)
    (rest : List LoaderId) : resolveIn name (id :: rest) world = resolveIn name rest world := by
  cases loader with
  | host units => cases left
  | compiled parent pending defined =>
      obtain ⟨unknown, absent⟩ := Loader.leaves_compiled.mp left
      rw [resolveIn_compiled here, unknown]
      dsimp only
      rw [ArtifactTable.contains, absent]
      rfl

theorem resolveIn_owner (world : World) (name : String) (ids : List LoaderId) :
    resolveIn name ids world =
      match world.ownerIn name ids with
      | none => (.error (.typeNotFound name), world)
      | some owner => resolveIn name [owner] world := by
  induction ids with
  | nil => rfl
  | cons id rest ih =>
      unfold World.ownerIn
      cases here : world.loaders[id]? with
      | none =>
          rw [resolveIn, except_get_run, here]
          rfl
      | some loader =>
          dsimp only
          by_cases left : loader.leaves name = true
          · rw [if_pos left, resolveIn_left here left, ih]
          · rw [if_neg left, resolveIn_owned here (Bool.eq_false_iff.mpr left)]

/-- Resolving a name has the outcome of asking the owner of the name. -/
theorem resolve_owner (world : World) (loader : LoaderId) (name : String) :
    resolve loader name world =
      match world.owner? loader name with
      | none => (.error (.typeNotFound name), world)
      | some owner => resolveIn name [owner] world := by
  rw [resolve, except_get_run]
  exact resolveIn_owner world name _

end Action

end UnitForge
