import UnitForge.Proofs.Dialect.Lockstep

/-! # Answers of a file manager

A file manager can be overheard: it does what it did before, and what it answered to each look at
the files is put on record. Nobody who uses the manager can tell the difference. -/
set_option autoImplicit false
namespace UnitForge

open Step

/-- What a file manager with states `σ` answered to a look at its files. A listing is put on record
with the state that it led to, since names of units are inferred from both. -/
inductive FileAnswer (σ : Type) where
  | list (location : Location) (package : String) (found : Except FileError (List FileObject))
      (files : σ)
  | input (location : Location) (name : String) (found : Except FileError (Option FileObject))
  | read (file : FileObject) (content : Except FileError Bytes)

namespace FileAnswer

variable {σ : Type}

def isOfUnit (name : String) : FileAnswer σ → Bool
  | input .classPath asked _ => asked = name
  | _ => false

def isOfPackage (package : String) : FileAnswer σ → Bool
  | list .classPath asked _ _ => asked = package
  | _ => false

end FileAnswer

namespace FileManager

variable {σ α β : Type}

def unheardQuery (query : FileQuery σ α) : FileQuery (σ × List (FileAnswer σ)) α :=
  query.within Prod.fst fun files whole => (files, whole.2)

def unheard (op : FileOp σ α) : FileOp (σ × List (FileAnswer σ)) α :=
  unheardQuery op

def heard (answer : Except FileError α → σ → FileAnswer σ) (op : FileOp σ α) :
    FileOp (σ × List (FileAnswer σ)) α := fun (files, record) =>
  let (found, files) := op files
  (found, (files, record ++ [answer found files]))

def overheard (manager : FileManager σ) : FileManager (σ × List (FileAnswer σ)) where
  arityOf option := unheardQuery (manager.arityOf option)
  handleOption option values := unheard (manager.handleOption option values)
  offers location := unheardQuery (manager.offers location)
  list location package kinds recurse :=
    heard (.list location package) (manager.list location package kinds recurse)
  nameOf location file := unheardQuery (manager.nameOf location file)
  isSame a b := unheardQuery (manager.isSame a b)
  input location name kind :=
    heard (fun found _ => .input location name found) (manager.input location name kind)
  read file := heard (fun content _ => .read file content) (manager.read file)
  output location name kind source :=
    (fun sink => { write := fun chunk => unheard (sink.write chunk), flush := unheard sink.flush })
      <$> unheard (manager.output location name kind source)
  flush := unheard manager.flush
  close := unheard manager.close

section
variable (manager : FileManager σ)

theorem overheard_list (location : Location) (package : String) (kinds : List ArtifactKind)
    (recurse : Bool) : manager.overheard.list location package kinds recurse =
      heard (.list location package) (manager.list location package kinds recurse) :=
  rfl

theorem overheard_input (location : Location) (name : String) (kind : ArtifactKind) :
    manager.overheard.input location name kind =
      heard (fun found _ => .input location name found) (manager.input location name kind) :=
  rfl

theorem overheard_read (file : FileObject) : manager.overheard.read file =
    heard (fun content _ => .read file content) (manager.read file) :=
  rfl

end

theorem unheard_run {op : FileOp σ α} {files : σ} {out : Except FileError α × σ}
    (run : op files = out) (record : List (FileAnswer σ)) :
    unheard op (files, record) = (out.1, (out.2, record)) := by
  rw [← run]
  rfl

theorem unheard_bind (op : FileOp σ α) (next : α → FileOp σ β) :
    unheard (op >>= next) = unheard op >>= fun value => unheard (next value) := by
  funext ⟨files, record⟩
  rcases first : op files with ⟨fault | value, after⟩
  · rw [except_bind_error (unheard_run first record)]
    exact unheard_run (except_bind_error first) record
  · rw [except_bind_ok (unheard_run first record)]
    exact unheard_run (except_bind_ok first) record

theorem overheard_write (manager : FileManager σ) (name : String) (source : SourceUnit)
    (bytes : Bytes) :
    (do
        let sink ← manager.overheard.output .classOutput name .unit (some source)
        sink.writeAll bytes
        sink.flush) =
      unheard (do
        let sink ← manager.output .classOutput name .unit (some source)
        sink.writeAll bytes
        sink.flush) := by
  have chunk (sink : Sink σ) :
      Sink.writeAll ⟨fun chunk => unheard (sink.write chunk), unheard sink.flush⟩ bytes =
        unheard (sink.writeAll bytes) := by
    unfold Sink.writeAll
    split <;> rfl
  rw [unheard_bind]
  simp only [unheard_bind, ← chunk]
  simp only [overheard, bind_map_left]

theorem overheard_beneath (manager : FileManager σ) :
    manager.Beneath Prod.fst manager.overheard where
  arityOf _ _ := rfl
  option _ _ _ := rfl
  list _ _ _ _ _ := rfl
  input _ _ _ _ := rfl
  read _ _ := rfl
  nameOf _ _ _ := rfl

end FileManager

end UnitForge
