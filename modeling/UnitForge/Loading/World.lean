import UnitForge.Error
import UnitForge.Files.Tree
import UnitForge.Image.Codec
import UnitForge.Value

/-! # Loaders

Units are found through chains of loaders. A host holds units that it was given; the loader of a
compilation defines units from its artifacts, each at most once as long as the unit is alive, and
leaves every other name to its parent. A loader does not keep its units alive: it forgets a unit
that nothing else holds, and defines it anew from the image when it is asked for again. -/
set_option autoImplicit false
namespace UnitForge

/-- The image of a name that a loader has defined, and the unit as long as it is alive. -/
structure Definition where
  image : UnitImage
  unit : Option UnitType
  deriving Repr

/-- A loader. The units of a host and the definitions of a compilation are known by name. -/
inductive Loader where
  | host (units : List (String × UnitType))
  | compiled (parent : LoaderId) (pending : ArtifactTable) (defined : List (String × Definition))
  deriving Repr

namespace Loader

def parent? : Loader → Option LoaderId
  | host _ => none
  | compiled parent _ _ => some parent

def pendingNames : Loader → List String
  | host _ => []
  | compiled _ pending _ => pending.names

end Loader

/-- All loaders, by number, and the numbers that new units and instances get. -/
structure World where
  loaders : List Loader
  nextUnit : Nat
  nextInstance : Nat
  deriving Repr

/-- A step that may change the world and may fail; what it changed before it failed stays. -/
abbrev Action := ExceptT Error (StateM World)

/-- A list of named things with one of them in the place of an earlier one of its name. -/
def assign {α : Type} (name : String) (value : α) (things : List (String × α)) :
    List (String × α) :=
  things.filter (·.1 ≠ name) ++ [(name, value)]

namespace World

def systemHost : LoaderId := 0

def start : World :=
  { loaders := [.host []], nextUnit := 0, nextInstance := 0 }

def addLoader (loader : Loader) (world : World) : LoaderId × World :=
  (world.loaders.length, { world with loaders := world.loaders ++ [loader] })

def modifyLoader (id : LoaderId) (change : Loader → Loader) (world : World) : World :=
  { world with loaders := world.loaders.modify id change }

def chain (world : World) : Nat → LoaderId → List LoaderId
  | 0, _ => []
  | bound + 1, id =>
    match world.loaders[id]? with
    | none => []
    | some loader =>
      match loader.parent? with
      | none => [id]
      | some parent => id :: world.chain bound parent

def hostUnits (world : World) (id : LoaderId) : List (String × UnitType) :=
  match world.loaders[id]? with
  | some (.host units) => units
  | _ => []

def hostNames (world : World) (id : LoaderId) : List String :=
  ((world.hostUnits id).map (·.1)).mergeSort fun a b => !(b < a)

def pending (world : World) (id : LoaderId) : List String :=
  ((world.loaders[id]?).map Loader.pendingNames).getD []

def inspectLoader (world : World) (id : LoaderId) : String :=
  match world.loaders[id]? with
  | some (.host _) =>
    let names := ", ".intercalate ((world.hostNames id).map Text.quoted)
    s!"HostLoader \x7b units: [{names}], .. \x7d"
  | _ =>
    let names := ", ".intercalate ((world.pending id).map Text.quoted)
    s!"UnitLoader \x7b pending: [{names}], .. \x7d"

end World

namespace Action

def newUnit (image : UnitImage) (origin : Option Path) (resolver : LoaderId) :
    Action UnitType := do
  let id := (← get).nextUnit
  modify fun world => { world with nextUnit := id + 1 }
  return { id, image, origin, resolver }

def newInstance (unit : UnitType) (fields : List Value) : Action Instance := do
  let id := (← get).nextInstance
  modify fun world => { world with nextInstance := id + 1 }
  return { id, unit, fields }

/-! ## Hosts -/

def newHost : Action LoaderId :=
  modifyGet (World.addLoader (.host []))

/-- Gives a unit to a host, which knows it by its name from then on. Gives the unit that had the
name before. -/
def register (host : LoaderId) (unit : UnitType) : Action (Option UnitType) := do
  let earlier := ((← get).hostUnits host).lookup unit.name
  modify (World.modifyLoader host fun
    | .host units => .host (assign unit.name unit units)
    | loader => loader)
  return earlier

def defineImage (host : LoaderId) (image : UnitImage) (origin : Option Path) :
    Action UnitType := do
  let unit ← newUnit image origin host
  let _ ← register host unit
  return unit

def imagePath (origin : Path) (name : String) : Path :=
  origin.join ⟨Name.toPathText name ++ ArtifactKind.unit.extension⟩

/-- Defines a unit from a file below a directory, which becomes its origin, and gives it to a
host. -/
def defineFromOrigin (tree : FileTree) (host : LoaderId) (origin : Path) (name : String) :
    Action UnitType := do
  match tree.read (imagePath origin name) with
  | .error .notFound => throw (.typeNotFound name)
  | .error _ => throw (.file .system)
  | .ok bytes =>
    match UnitImage.decode name bytes with
    | .error fault => throw (.malformedArtifact name fault)
    | .ok image => defineImage host image (some origin)

/-! ## Loaders of compilations -/

def newLoader (parent : LoaderId) (artifacts : ArtifactTable) : Action LoaderId :=
  modifyGet (World.addLoader (.compiled parent artifacts []))

def define (loader : LoaderId) (image : UnitImage) (name : String) : Action UnitType := do
  let unit ← newUnit image none loader
  modify (World.modifyLoader loader fun
    | .compiled parent pending defined =>
      .compiled parent pending (assign name { image, unit := some unit } defined)
    | loader => loader)
  return unit

def takeArtifact (loader : LoaderId) (name : String) : Action (Option OutputUnit) := do
  match (← get).loaders[loader]? with
  | some (.compiled _ pending _) =>
    modify (World.modifyLoader loader fun
      | .compiled parent pending defined => .compiled parent (pending.erase name) defined
      | loader => loader)
    return pending.get? name
  | _ => return none

/-- Defines a unit from an artifact of a loader. The artifact is used up, even if it is no image of
that unit. -/
def findLocal (loader : LoaderId) (name : String) : Action UnitType := do
  match ← takeArtifact loader name with
  | none => throw (.typeNotFound name)
  | some output =>
    if output.kind ≠ .unit then
      throw (.malformedArtifact name (.notUnitKind output.kind.label))
    match UnitImage.decode name output.bytes with
    | .error fault => throw (.malformedArtifact name fault)
    | .ok image => define loader image name

/-- The unit that a loader has defined under a name; one that is no longer alive is defined
anew. -/
def findDefined (loader : LoaderId) (name : String) : Action (Option UnitType) := do
  match (← get).loaders[loader]? with
  | some (.compiled _ _ defined) =>
    match defined.lookup name with
    | none => return none
    | some { unit := some unit, .. } => return some unit
    | some { image, unit := none } => some <$> define loader image name
  | _ => return none

def hasArtifact (loader : LoaderId) (name : String) : Action Bool := do
  match (← get).loaders[loader]? with
  | some (.compiled _ pending _) => return pending.contains name
  | _ => return false

/-! ## Resolution -/

def resolveIn (name : String) : List LoaderId → Action UnitType
  | [] => throw (.typeNotFound name)
  | id :: rest => do
    match (← get).loaders[id]? with
    | some (.host units) =>
      match units.lookup name with
      | some unit => return unit
      | none => throw (.typeNotFound name)
    | some (.compiled ..) =>
      match ← findDefined id name with
      | some unit => return unit
      | none => if ← hasArtifact id name then findLocal id name else resolveIn name rest
    | none => throw (.typeNotFound name)

def resolve (loader : LoaderId) (name : String) : Action UnitType := do
  let world ← get
  resolveIn name (world.chain world.loaders.length loader)

end Action

namespace World

def registered (world : World) : List UnitType :=
  world.loaders.flatMap fun
    | .host units => units.map (·.2)
    | .compiled .. => []

/-- The definition without its unit, unless that is one of those alive. -/
def forget (alive : List Nat) (definition : Definition) : Definition :=
  { definition with unit := definition.unit.filter fun unit => alive.contains unit.id }

/-- Lets go of every unit that neither a host nor one of the given holders keeps alive. -/
def release (held : List UnitType) (world : World) : World :=
  let alive := (world.registered ++ held).map UnitType.id
  { world with loaders := world.loaders.map fun
      | .host units => .host units
      | .compiled parent pending defined =>
        .compiled parent pending (defined.map fun (name, d) => (name, forget alive d)) }

end World

end UnitForge
