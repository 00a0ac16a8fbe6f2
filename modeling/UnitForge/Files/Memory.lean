import UnitForge.Files.Manager

/-! # Outputs in memory

A file manager that keeps every output in memory and leaves all else to another manager, which it
closes once at most. -/
set_option autoImplicit false
namespace UnitForge

structure MemoryStore (σ : Type) where
  inner : σ
  artifacts : ArtifactTable
  closed : Bool

namespace MemoryStore

variable {σ : Type}

def ofInner (inner : σ) : MemoryStore σ :=
  { inner, artifacts := .empty, closed := false }

def forward {α : Type} (op : FileOp σ α) : FileOp (MemoryStore σ) α :=
  op.within inner fun inner store => { store with inner }

def ask {α : Type} (query : FileQuery σ α) : FileQuery (MemoryStore σ) α :=
  query.within inner fun inner store => { store with inner }

def output (name : String) (kind : ArtifactKind) :
    FileOp (MemoryStore σ) (Sink (MemoryStore σ)) := do
  modify fun store => { store with artifacts := store.artifacts.insert (.empty name kind) }
  return {
    write := fun chunk =>
      modify fun store => { store with artifacts := store.artifacts.append name chunk }
    flush := pure () }

def close (manager : FileManager σ) : FileOp (MemoryStore σ) Unit := do
  if !(← get).closed then
    modify fun store => { store with closed := true }
    forward manager.close

def manager (inner : FileManager σ) : FileManager (MemoryStore σ) where
  arityOf option := ask (inner.arityOf option)
  handleOption option values := forward (inner.handleOption option values)
  offers location := if location = .classOutput then return true else ask (inner.offers location)
  list location package kinds recurse := forward (inner.list location package kinds recurse)
  nameOf location file := ask (inner.nameOf location file)
  isSame a b := ask (inner.isSame a b)
  input location name kind := forward (inner.input location name kind)
  read file := forward (inner.read file)
  output _ name kind _ := output name kind
  flush := forward inner.flush
  close := close inner

def releaseWarning (error : FileError) : String :=
  s!"Failed to release file manager resources: {error.message}"

/-- Ends the use of a store: its manager is closed if it is not yet. Gives the warning of a
failure. -/
def drop (inner : FileManager σ) (store : MemoryStore σ) : List String × MemoryStore σ :=
  match close inner store with
  | (.error error, store) => ([releaseWarning error], store)
  | (.ok _, store) => ([], store)

end MemoryStore

end UnitForge
