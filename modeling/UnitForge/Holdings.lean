import UnitForge.Workspace

/-! # Holdings

Named handles to what a process has made. A unit is alive as long as a handle, an instance in a
handle, or a host holds it. -/
set_option autoImplicit false
namespace UnitForge

inductive Held where
  | loader (id : LoaderId)
  | unit (unit : UnitType)
  | object (object : Instance)
  | compiled (compiled : CompiledUnit)
  | compiler (compiler : RuntimeCompiler)
  deriving Repr

namespace Held

def units : Held → List UnitType
  | unit u => [u]
  | object o => o.toValue.units
  | _ => []

/-- Whether two handles hold the same thing. Only what has an identity can be the same. -/
def same : Held → Held → Bool
  | loader a, loader b => a = b
  | unit a, unit b => a.id = b.id
  | object a, object b => a.id = b.id
  | _, _ => false

def loader? : Held → Option LoaderId
  | loader id => some id
  | unit u => some u.resolver
  | _ => none

def inspect (world : World) : Held → String
  | loader id => world.inspectLoader id
  | unit u => u.inspect
  | object o => o.inspect
  | compiled c => c.name
  | compiler c => c.inspect

end Held

structure Holdings where
  workspace : Workspace
  handles : List (String × Held)
  deriving Repr

namespace Holdings

def start (tree : FileTree) : Holdings :=
  { workspace := .start tree, handles := [] }

def get? (holdings : Holdings) (handle : String) : Option Held :=
  holdings.handles.lookup handle

/-- Lets go of every unit that nothing holds any more. -/
def settle (holdings : Holdings) : Holdings :=
  let held := holdings.handles.flatMap fun (_, thing) => thing.units
  { holdings with workspace :=
      { holdings.workspace with world := holdings.workspace.world.release held } }

def hold (handle : String) (thing : Held) (holdings : Holdings) : Holdings :=
  settle { holdings with handles := assign handle thing holdings.handles }

def drop (handle : String) (holdings : Holdings) : Holdings :=
  settle { holdings with handles := holdings.handles.filter (·.1 ≠ handle) }

end Holdings

end UnitForge
