import UnitForge.Proofs.Files.Memory
import UnitForge.Proofs.Image.RoundTrip

/-! # The artifacts of a task

Within one source unit no two structs have the same name, but two units of one task can declare
structs of the same full name. Then the image of the later one takes the place of the other, and the
task succeeds nevertheless. -/
set_option autoImplicit false
namespace UnitForge.MemoryStore

variable {σ : Type} {manager : FileManager σ}

end UnitForge.MemoryStore
