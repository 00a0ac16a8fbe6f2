import UnitForge.Proofs.Dialect.Growth
import UnitForge.Proofs.Dialect.Lockstep

/-! # Calls of a file manager

A file manager can be put under watch: it does what it did before, and keeps a list of what it was
asked to do. Looking at files and writing to them are told apart by the calls. -/
set_option autoImplicit false
namespace UnitForge

/-- What a file manager, or a sink of one, is asked to do. -/
inductive FileRequest where
  | arity (option : String)
  | option (option : String) (values : List String)
  | hasLocation (location : Location)
  | list (location : Location) (package : String) (kinds : List ArtifactKind) (recurse : Bool)
  | inferName (location : Location) (file : FileObject)
  | isSameFile (a b : FileObject)
  | input (location : Location) (name : String) (kind : ArtifactKind)
  | read (file : FileObject)
  | output (location : Location) (name : String) (kind : ArtifactKind) (source : Option SourceUnit)
  | write (chunk : Bytes)
  | flushSink
  | flush
  | close
  deriving DecidableEq, Repr

/-- Whether a request leaves the outputs as they are. -/
def FileRequest.isLook : FileRequest → Bool
  | arity .. | option .. | hasLocation .. | list .. | inferName .. | isSameFile .. | input ..
  | read .. => true
  | output .. | write .. | flushSink | flush | close => false

namespace FileManager

variable {σ : Type}

def noteQuery {α : Type} (request : FileRequest) (query : FileQuery σ α) :
    FileQuery (σ × List FileRequest) α := fun (files, requests) =>
  let (result, files) := query files
  (result, (files, requests ++ [request]))

def note {α : Type} (request : FileRequest) (op : FileOp σ α) : FileOp (σ × List FileRequest) α :=
  noteQuery request op

def watchSink (sink : Sink σ) : Sink (σ × List FileRequest) where
  write chunk := note (.write chunk) (sink.write chunk)
  flush := note .flushSink sink.flush

def watched (manager : FileManager σ) : FileManager (σ × List FileRequest) where
  arityOf option := noteQuery (.arity option) (manager.arityOf option)
  handleOption option values := note (.option option values) (manager.handleOption option values)
  offers location := noteQuery (.hasLocation location) (manager.offers location)
  list location package kinds recurse :=
    note (.list location package kinds recurse) (manager.list location package kinds recurse)
  nameOf location file := noteQuery (.inferName location file) (manager.nameOf location file)
  isSame a b := noteQuery (.isSameFile a b) (manager.isSame a b)
  input location name kind := note (.input location name kind) (manager.input location name kind)
  read file := note (.read file) (manager.read file)
  output location name kind source :=
    watchSink <$> note (.output location name kind source)
      (manager.output location name kind source)
  flush := note .flush manager.flush
  close := note .close manager.close

theorem watched_beneath (manager : FileManager σ) : manager.Beneath Prod.fst manager.watched where
  arityOf _ _ := rfl
  option _ _ _ := rfl
  list _ _ _ _ _ := rfl
  input _ _ _ _ := rfl
  read _ _ := rfl
  nameOf _ _ _ := rfl

theorem note_run {α : Type} {request : FileRequest} {op : FileOp σ α}
    {before after : σ × List FileRequest} {answer : Except FileError α}
    (run : note request op before = (answer, after)) : after.2 = before.2 ++ [request] :=
  (congrArg (fun out => out.2.2) run).symm

theorem watched_output_run {manager : FileManager σ} {location : Location} {name : String}
    {kind : ArtifactKind} {source : Option SourceUnit} {before after : σ × List FileRequest}
    {answer : Except FileError (Sink (σ × List FileRequest))}
    (run : manager.watched.output location name kind source before = (answer, after)) :
    after.2 = before.2 ++ [.output location name kind source] ∧
      ∀ sink, answer = .ok sink → ∃ inner, sink = watchSink inner := by
  rcases Step.except_map_run run with ⟨fault, stop, opened, same⟩ | ⟨inner, stop, opened, same⟩
  · cases same
    exact ⟨note_run opened, nofun⟩
  · cases same
    exact ⟨note_run opened, fun sink same => ⟨inner, (Except.ok.inj same).symm⟩⟩

/-- A later state of a watched manager that was asked for nothing but looks. -/
def OnlyLooks (before after : σ × List FileRequest) : Prop :=
  ∃ requests, after.2 = before.2 ++ requests ∧ ∀ request ∈ requests, request.isLook = true

theorem OnlyLooks.refl (state : σ × List FileRequest) : OnlyLooks state state :=
  ⟨[], (List.append_nil _).symm, nofun⟩

theorem OnlyLooks.trans {first second third : σ × List FileRequest}
    (h : OnlyLooks first second) (k : OnlyLooks second third) : OnlyLooks first third := by
  obtain ⟨earlier, same, looks⟩ := h
  obtain ⟨later, same', looks'⟩ := k
  refine ⟨earlier ++ later, by rw [same', same, List.append_assoc], ?_⟩
  intro request member
  rcases List.mem_append.mp member with old | new
  · exact looks request old
  · exact looks' request new

instance : IsPreorder (σ × List FileRequest) OnlyLooks where
  refl := OnlyLooks.refl
  trans _ _ _ := OnlyLooks.trans

theorem OnlyLooks.note {α : Type} {request : FileRequest} (look : request.isLook = true)
    (query : FileQuery σ α) (state : σ × List FileRequest) :
    OnlyLooks state (noteQuery request query state).2 :=
  ⟨[request], rfl, fun _ member => List.mem_singleton.mp member ▸ look⟩

variable {manager : FileManager σ}

theorem Looks.onlyLooks {before after : σ × List FileRequest}
    (looks : manager.watched.Looks before after) : OnlyLooks before after := by
  cases looks with
  | list location package kinds recurse files => exact .note rfl _ _
  | input location name kind files => exact .note rfl _ _
  | read file files => exact .note rfl _ _
  | arity option files => exact .note rfl _ _
  | name location file files => exact .note rfl _ _

theorem onlyLooks_of_reflTransGen {before after : σ × List FileRequest}
    (looks : Relation.ReflTransGen manager.watched.Looks before after) :
    OnlyLooks before after := by
  induction looks with
  | refl => exact .refl _
  | tail _ last ih => exact ih.trans last.onlyLooks

end FileManager

end UnitForge
