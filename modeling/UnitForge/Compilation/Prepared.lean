import UnitForge.Compilation.Toolchain
import UnitForge.Files.Recorded

/-! # Prepared toolchains

A toolchain whose answer is settled beforehand: it writes given outputs and gives a given verdict,
whatever the source. Its standard file manager is a recorded one. -/
set_option autoImplicit false
namespace UnitForge

structure PreparedAnswer where
  outputs : List OutputUnit
  verdict : Verdict
  files : FileScript
  deriving Repr

namespace PreparedAnswer

/-- Writes one of the outputs; one that cannot be written is left out. -/
def write {τ : Type} (manager : FileManager τ) (output : OutputUnit) : StateM τ Unit := do
  let write : FileOp τ Unit := do
    let sink ← manager.output .classOutput output.name output.kind none
    sink.writeAll output.bytes
  let _ ← write.run

def toolchain (answer : PreparedAnswer) : Toolchain RecordedFiles where
  name := "prepared"
  version := "0"
  arity? _ := none
  files := RecordedFiles.manager answer.files
  openFiles := .ofTree
  tree recorded := recorded.files.tree
  compile manager _ := do
    answer.outputs.forM (write manager)
    return answer.verdict

end PreparedAnswer

end UnitForge
