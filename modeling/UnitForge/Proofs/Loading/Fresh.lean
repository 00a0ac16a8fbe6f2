import UnitForge.Proofs.Loading.Lookup

/-! # Fresh loaders

A loader that has just been made is none that others leave names to. It first looks at its own
artifacts; what it leaves to its parent has the outcome that it has at the parent without the new
loader. -/
set_option autoImplicit false
namespace UnitForge

open Step

namespace World

/-- Every loader leaves unknown names to one that exists. -/
def Closed (world : World) : Prop :=
  ∀ loader ∈ world.loaders, ∀ parent, loader.parent? = some parent → parent < world.loaders.length

def extend (world : World) (loader : Loader) : World :=
  { world with loaders := world.loaders ++ [loader] }

theorem extend_old {world : World} {id : LoaderId} (bound : id < world.loaders.length)
    (loader : Loader) : (world.extend loader).loaders[id]? = world.loaders[id]? :=
  List.getElem?_append_left bound

theorem extend_new (world : World) (loader : Loader) :
    (world.extend loader).loaders[world.loaders.length]? = some loader := by
  simp [extend]

end World

namespace Action

/-- A run with a loader more that it does not look at. -/
def beside {α : Type} (loader : Loader) (out : Except Error α × World) : Except Error α × World :=
  (out.1, out.2.extend loader)

section Beside
variable {world : World} {id : LoaderId} (bound : id < world.loaders.length) (loader : Loader)
include bound

end Beside

variable {world : World} {parent : LoaderId} {artifacts : ArtifactTable} {name : String}

end Action

end UnitForge
