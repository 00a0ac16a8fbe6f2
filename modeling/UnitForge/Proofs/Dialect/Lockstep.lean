import UnitForge.Proofs.Dialect.Agreement

/-! # Sessions in lockstep

A session asks its file manager for the files of a package, for the file of a unit and for the bytes
of a file, and it keeps the answers. Two sessions that stay related around each of these questions
and around reports agree on the class path. So do a session over some files and one over more, whose
manager does to the files that both have what the manager of the first one does. -/
set_option autoImplicit false
namespace UnitForge

open Step

variable {σ τ : Type}

namespace Session

/-- Related sessions get the same answers from their managers, know the same units and packages, and
stay related after every question, after reports that differ in their places, and when they learn an
answer. -/
structure Lockstep (move : Position → Position) (R : Session σ → Session τ → Prop)
    (manager : FileManager σ) (other : FileManager τ) : Prop where
  nowhere : move ⟨1, 1⟩ = ⟨1, 1⟩
  report : ∀ diagnostic, Alike R (report diagnostic) (report (diagnostic.relocate move))
  list : ∀ location package kinds recurse,
    Alike R (onFiles (manager.list location package kinds recurse))
      (onFiles (other.list location package kinds recurse))
  input : ∀ location name kind, Alike R (onFiles (manager.input location name kind))
    (onFiles (other.input location name kind))
  read : ∀ file, Alike R (onFiles (manager.read file)) (onFiles (other.read file))
  nameOf : ∀ location file,
    Alike R (ask (manager.nameOf location file)) (ask (other.nameOf location file))
  units : ∀ {s t}, R s t → s.units = t.units
  packages : ∀ {s t}, R s t → s.packages = t.packages
  learnUnit : ∀ entry, Alike R
    (modify fun session => { session with units := session.units ++ [entry] })
    (modify fun session => { session with units := session.units ++ [entry] })
  learnPackage : ∀ entry, Alike R
    (modify fun session => { session with packages := session.packages ++ [entry] })
    (modify fun session => { session with packages := session.packages ++ [entry] })

namespace Lockstep

variable {move : Position → Position} {R : Session σ → Session τ → Prop}
  {manager : FileManager σ} {other : FileManager τ} (lockstep : Lockstep move R manager other)
include lockstep

theorem readUnit (name : String) : Alike R (readUnit manager name) (readUnit other name) := by
  have unreadable (file : FileObject) (error : Error) : Alike R
      (readUnit.unreadable (σ := σ) name file error)
      (readUnit.unreadable (σ := τ) name file error) :=
    .bind (lockstep.report _) fun _ => .pure rfl
  apply (lockstep.input _ _ _).bind
  intro found
  rcases found with fault | _ | file
  · exact .pure rfl
  · exact .pure rfl
  · apply (lockstep.read _).bind
    intro read
    cases read with
    | error fault => exact unreadable _ _
    | ok bytes =>
        dsimp only
        cases UnitImage.decode name bytes with
        | error fault => exact unreadable _ _
        | ok image => exact .pure rfl

theorem classPathUnit (name : String) :
    Alike R (classPathUnit manager name) (classPathUnit other name) := by
  refine .get_bind ?_
  intro s t related
  rw [lockstep.units related]
  cases t.units.lookup name with
  | some answer => exact .pure rfl
  | none =>
      apply (lockstep.readUnit name).bind
      intro found
      exact .bind (lockstep.learnUnit _) fun _ => .pure rfl

theorem listPackage (package : String) :
    Alike R (listPackage manager package) (listPackage other package) := by
  apply (lockstep.list _ _ _ _).bind
  intro found
  cases found with
  | error fault => exact .pure rfl
  | ok found => exact Alike.filterMapM (fun file => lockstep.nameOf .classPath file) found

theorem packageContains (package simple : String) :
    Alike R (packageContains manager package simple) (packageContains other package simple) := by
  refine .get_bind ?_
  intro s t related
  rw [lockstep.packages related]
  cases t.packages.lookup package with
  | some names => exact .pure rfl
  | none =>
      apply (lockstep.listPackage package).bind
      intro found
      exact .bind (lockstep.learnPackage _) fun _ => .pure rfl

theorem agreement : Agreement move R manager other where
  nowhere := lockstep.nowhere
  report := lockstep.report
  classPathUnit := lockstep.classPathUnit
  packageContains := lockstep.packageContains

end Lockstep

end Session

/-! ## A part of the files -/

section Beneath
variable {α β : Type} {view : τ → σ}

/-- A question asked of the files in view gets the answer of another one that is asked of the whole,
and does to the files in view what the other one does. -/
def FileQuery.Beneath (view : τ → σ) (query : FileQuery σ α) (whole : FileQuery τ α) : Prop :=
  ∀ files, query (view files) = ((whole files).1, view (whole files).2)

def FileOp.Beneath (view : τ → σ) (op : FileOp σ α) (whole : FileOp τ α) : Prop :=
  FileQuery.Beneath view op whole

theorem FileOp.Beneath.bind {op : FileOp σ α} {whole : FileOp τ α} {next : α → FileOp σ β}
    {next' : α → FileOp τ β} (first : FileOp.Beneath view op whole)
    (rest : ∀ value, FileOp.Beneath view (next value) (next' value)) :
    FileOp.Beneath view (op >>= next) (whole >>= next') := by
  intro files
  have same := first files
  rcases ran : whole files with ⟨fault | value, after⟩
  · rw [ran] at same
    rw [except_bind_error same, except_bind_error ran]
  · rw [ran] at same
    rw [except_bind_ok same, except_bind_ok ran]
    exact rest value after

/-- A manager takes options and looks at the files in view as another one does with the whole. -/
structure FileManager.Beneath (view : τ → σ) (manager : FileManager σ) (other : FileManager τ) :
    Prop where
  arityOf : ∀ option, FileQuery.Beneath view (manager.arityOf option) (other.arityOf option)
  option : ∀ option values, FileOp.Beneath view (manager.handleOption option values)
    (other.handleOption option values)
  list : ∀ location package kinds recurse, FileOp.Beneath view
    (manager.list location package kinds recurse) (other.list location package kinds recurse)
  input : ∀ location name kind, FileOp.Beneath view (manager.input location name kind)
    (other.input location name kind)
  read : ∀ file, FileOp.Beneath view (manager.read file) (other.read file)
  nameOf : ∀ location file,
    FileQuery.Beneath view (manager.nameOf location file) (other.nameOf location file)

namespace Session

def Beneath (view : τ → σ) (session : Session σ) (other : Session τ) : Prop :=
  session = { other with files := view other.files }

theorem Beneath.errors {session : Session σ} {other : Session τ}
    (beneath : Beneath view session other) : session.errors = other.errors := by
  rw [beneath]
  rfl

theorem report_beneath (diagnostic : Diagnostic) :
    Alike (Beneath view) (report diagnostic) (report diagnostic) := by
  rintro _ t rfl
  exact ⟨rfl, rfl⟩

theorem ask_beneath {query : FileQuery σ α} {whole : FileQuery τ α}
    (beneath : FileQuery.Beneath view query whole) :
    Alike (Beneath view) (ask query) (ask whole) := by
  rintro _ t rfl
  have same := beneath t.files
  simp only [ask, same]
  exact ⟨rfl, rfl⟩

theorem onFiles_beneath {op : FileOp σ α} {whole : FileOp τ α}
    (beneath : FileOp.Beneath view op whole) :
    Alike (Beneath view) (onFiles op) (onFiles whole) := by
  exact ask_beneath beneath

theorem lockstep_beneath {manager : FileManager σ} {other : FileManager τ}
    (beneath : manager.Beneath view other) : Lockstep id (Beneath view) manager other where
  nowhere := rfl
  report diagnostic := by
    rw [Diagnostic.relocate_id]
    exact report_beneath diagnostic
  list _ _ _ _ := onFiles_beneath (beneath.list _ _ _ _)
  input _ _ _ := onFiles_beneath (beneath.input _ _ _)
  read _ := onFiles_beneath (beneath.read _)
  nameOf _ _ := ask_beneath (beneath.nameOf _ _)
  units same := by rw [same]
  packages same := by rw [same]
  learnUnit _ _ _ same := by rw [same]; exact ⟨rfl, rfl⟩
  learnPackage _ _ _ same := by rw [same]; exact ⟨rfl, rfl⟩

end Session

end Beneath

end UnitForge
