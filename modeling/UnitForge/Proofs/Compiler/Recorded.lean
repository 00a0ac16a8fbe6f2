import UnitForge.Compilation.Prepared
import UnitForge.Proofs.Compiler.Mirror
import UnitForge.Proofs.Files.Forwarding

/-! # Recorded managers and prepared toolchains

A recorded manager puts every call on record, whatever it is told to answer. If it is told nothing,
it does what the standard manager does, in a compilation as well, and its record is a part of what a
watched manager has on record. A prepared toolchain leaves its outputs in any manager, one call after
the other. -/
set_option autoImplicit false
namespace UnitForge

open Step

def FileRequest.recorded? : FileRequest → Option FileCall
  | option word values => some (.handleOption word values)
  | list location package _ _ => some (.list location package)
  | input location name _ => some (.input location name)
  | output location name _ source => some (.output location name (source.map SourceUnit.uri))
  | flush => some .flush
  | close => some .close
  | arity .. | hasLocation .. | inferName .. | isSameFile .. | read .. | write .. | flushSink => none

namespace RecordedFiles

open FileManager

variable {α β : Type}

/-! ## What is put on record -/

def Silent (op : FileOp RecordedFiles α) : Prop :=
  ∀ recorded, (op recorded).2.calls = recorded.calls

theorem Silent.bind {op : FileOp RecordedFiles α} {next : α → FileOp RecordedFiles β}
    (first : Silent op) (rest : ∀ value, Silent (next value)) : Silent (op >>= next) := by
  intro recorded
  have same := first recorded
  rcases ran : op recorded with ⟨fault | value, middle⟩
  · rw [ran] at same
    rw [except_bind_error ran]
    exact same
  · rw [ran] at same
    rw [except_bind_ok ran, rest value middle]
    exact same

theorem silent_failIf (message : Option String) : Silent (failIf message) := by
  intro recorded
  cases message with
  | none => rfl
  | some message => rfl

theorem silent_standard (op : FileOp StandardFiles α) : Silent (standard op) :=
  fun _ => rfl

theorem silent_uses {target : Sink RecordedFiles} (write : ∀ chunk, Silent (target.write chunk))
    (flush : Silent target.flush) (uses : List SinkCall) :
    Silent (uses.forM (SinkCall.run target)) := by
  induction uses with
  | nil => exact fun _ => rfl
  | cons use rest ih =>
      refine .bind ?_ fun _ => ih
      cases use with
      | write chunk => exact write chunk
      | flush => exact flush

theorem calls_of_record (call : FileCall) {rest : FileOp RecordedFiles α} (silent : Silent rest)
    (recorded : RecordedFiles) :
    ((do record call; rest) recorded).2.calls = recorded.calls ++ [call] :=
  silent { recorded with calls := recorded.calls ++ [call] }

/-- What a manager does about an output once the call is on record. -/
def opening (script : FileScript) (location : Location) (name : String) (kind : ArtifactKind)
    (source : Option SourceUnit) : FileOp RecordedFiles (Sink RecordedFiles) := do
  failIf script.outputError
  match script.writeError with
  | some message => return { write := fun _ => throw (.explained message), flush := pure () }
  | none => sink <$> standard (StandardFiles.manager.output location name kind source)

theorem silent_opening (script : FileScript) (location : Location) (name : String)
    (kind : ArtifactKind) (source : Option SourceUnit) (uses : List SinkCall) : Silent (do
      let target ← opening script location name kind source
      uses.forM (SinkCall.run target)) := by
  unfold opening
  rw [bind_assoc]
  apply (silent_failIf _).bind
  intro _
  cases script.writeError with
  | some message =>
      let failing : Sink RecordedFiles :=
        { write := fun _ => throw (.explained message), flush := pure () }
      have silent : Silent (uses.forM (SinkCall.run failing)) :=
        silent_uses (fun _ _ => rfl) (fun _ => rfl) uses
      exact silent
  | none =>
      dsimp only
      rw [bind_map_left]
      apply (silent_standard _).bind
      intro inner
      exact silent_uses (fun chunk => silent_standard (inner.write chunk))
        (silent_standard inner.flush) uses

/-- A recorded manager puts each call on record, whatever it is told to answer. -/
theorem perform_calls (script : FileScript) (call : ManagerCall) (recorded : RecordedFiles) :
    ((manager script).perform call recorded).2.calls =
      recorded.calls ++ call.request.recorded?.toList := by
  cases call with
  | option word values =>
      refine calls_of_record _ ?_ recorded
      cases script.options.lookup word with
      | none => exact silent_standard _
      | some answer => cases answer <;> exact fun _ => rfl
  | list location package kinds recurse =>
      exact calls_of_record _ (.bind (silent_failIf _) fun _ => silent_standard _) recorded
  | input location name kind =>
      exact calls_of_record _ (.bind (silent_failIf _) fun _ => silent_standard _) recorded
  | output location name kind source uses =>
      exact calls_of_record _ (silent_opening script location name kind source uses) recorded
  | flush => exact calls_of_record _ (silent_failIf _) recorded
  | close => exact calls_of_record _ (silent_failIf _) recorded
  | arity word =>
      have same : ((manager script).arityOf word recorded).2.calls = recorded.calls := by
        unfold manager
        dsimp only
        cases script.arities.lookup word <;> rfl
      exact same.trans (List.append_nil _).symm
  | hasLocation | inferName | isSameFile | read => exact (List.append_nil _).symm

theorem performAll_calls (script : FileScript) (calls : List ManagerCall)
    (recorded : RecordedFiles) : ((manager script).performAll calls recorded).2.calls =
      recorded.calls ++ calls.filterMap fun call => call.request.recorded? := by
  induction calls generalizing recorded with
  | nil => exact (List.append_nil _).symm
  | cons call rest ih =>
      rw [FileManager.performAll_cons, ih, perform_calls, List.append_assoc, List.filterMap_cons]
      cases call.request.recorded? <;> rfl

/-! ## A manager that is told nothing -/

theorem uses_beneath (inner : Sink StandardFiles) (uses : List SinkCall) :
    FileOp.Beneath files (uses.forM (SinkCall.run inner))
      (uses.forM (SinkCall.run (sink inner))) := by
  induction uses with
  | nil => exact fun _ => rfl
  | cons use rest ih =>
      refine .bind ?_ fun _ => ih
      cases use with
      | write chunk => exact fun _ => rfl
      | flush => exact fun _ => rfl

theorem perform_beneath (call : ManagerCall) : FileQuery.Beneath files
    (StandardFiles.manager.perform call) ((manager .none).perform call) := by
  cases call with
  | output location name kind source uses =>
      intro recorded
      let opened : FileOp RecordedFiles (Sink StandardFiles) := do
        record (.output location name (source.map SourceUnit.uri))
        standard (StandardFiles.manager.output location name kind source)
      have whole : (do
          let target ← (manager .none).output location name kind source
          uses.forM (SinkCall.run target)) = opened >>= fun inner =>
            uses.forM (SinkCall.run (sink inner)) := by
        change ((record _ >>= fun _ => pure () >>= fun _ => sink <$> standard _) >>= _) = _
        simp only [opened, bind_assoc, pure_bind, bind_map_left]
      have same : FileOp.Beneath files (StandardFiles.manager.output location name kind source)
        opened := fun _ => rfl
      have used := same.bind (fun inner => uses_beneath inner uses) recorded
      rw [← whole] at used
      exact congrArg (fun out => (ManagerAnswer.done out.1, out.2)) used
  | _ => exact fun _ => rfl

/-- A recorded manager that is told nothing answers as the standard one does, and leaves the files as
that one leaves them. -/
theorem performAll_beneath (calls : List ManagerCall) : FileQuery.Beneath files
    (StandardFiles.manager.performAll calls) ((manager .none).performAll calls) := by
  induction calls with
  | nil => exact fun _ => rfl
  | cons call rest ih =>
      intro recorded
      have first := perform_beneath call recorded
      have later := ih ((manager .none).perform call recorded).2
      rw [performAll_cons, performAll_cons, first, later]

/-! ## Compilations -/

/-- What a recorded manager has come to when a watched one has come to a state, after calls that were
on record before. -/
def ofWatched (earlier : List FileCall) (watched : StandardFiles × List FileRequest) :
    RecordedFiles where
  files := watched.1
  calls := earlier ++ watched.2.filterMap FileRequest.recorded?

section Watched
variable {earlier : List FileCall} {request : FileRequest}

theorem ofWatched_note (state : StandardFiles × List FileRequest) (files : StandardFiles) :
    ofWatched earlier (files, state.2 ++ [request]) =
      { files, calls := (ofWatched earlier state).calls ++ request.recorded?.toList } := by
  unfold ofWatched
  rw [List.filterMap_append, List.append_assoc]
  cases known : request.recorded? <;> simp [known]

theorem ask_beneath (silent : request.recorded? = none) (query : FileQuery StandardFiles α) :
    FileQuery.Beneath (ofWatched earlier) (ask query) (noteQuery request query) := by
  intro state
  change _ = ((query state.1).1, ofWatched earlier ((query state.1).2, state.2 ++ [request]))
  rw [ofWatched_note, silent, Option.toList_none, List.append_nil]
  rfl

theorem standard_beneath {call : FileCall} (noted : request.recorded? = some call)
    (op : FileOp StandardFiles α) : FileOp.Beneath (ofWatched earlier)
      (do record call; standard op) (note request op) := by
  intro state
  change _ = ((op state.1).1, ofWatched earlier ((op state.1).2, state.2 ++ [request]))
  rw [ofWatched_note, noted, Option.toList_some]
  rfl

theorem manager_beneath (earlier : List FileCall) :
    (manager .none).Beneath (ofWatched earlier) StandardFiles.manager.watched where
  arityOf _ := ask_beneath rfl _
  option _ _ := standard_beneath rfl _
  list _ _ _ _ := standard_beneath rfl _
  input _ _ _ := standard_beneath rfl _
  read _ := ask_beneath rfl _
  nameOf _ _ := ask_beneath rfl _

theorem written_beneath (unit : SourceUnit) (image : UnitImage) :
    FileOp.Beneath (ofWatched earlier) (UnitCompiler.written (manager .none) unit image)
      (UnitCompiler.written StandardFiles.manager.watched unit image) := by
  let request : FileRequest := .output .classOutput image.name .unit (some unit)
  let inner := StandardFiles.manager.output .classOutput image.name .unit (some unit)
  let used {σ : Type} (target : Sink σ) : FileOp σ Unit := do
    target.writeAll image.encode
    target.flush
  have whole : UnitCompiler.written (manager .none) unit image = (do
      let target ← (do record (.output .classOutput image.name (some unit.uri)); standard inner)
      used (sink target)) := by
    change ((record _ >>= fun _ => pure () >>= fun _ => sink <$> standard _) >>= _) = _
    simp only [bind_assoc, pure_bind, bind_map_left]
    rfl
  have watched : UnitCompiler.written StandardFiles.manager.watched unit image = (do
      let target ← note request inner
      used (watchSink target)) :=
    bind_map_left _ _ _
  rw [whole, watched]
  apply (standard_beneath rfl inner).bind
  intro target
  refine .bind ?_ fun _ => ask_beneath rfl _
  unfold Sink.writeAll
  split
  · exact fun _ => rfl
  · exact ask_beneath rfl _

end Watched

/-- A compilation over a recorded manager that is told nothing is one over the standard manager. The
calls on record are those that a watched manager has on record, apart from questions, from what is
read, and from what goes on in sinks. -/
theorem compile_standard (task : CompilationTask) (recorded : RecordedFiles) :
    let (verdict, files) := UnitCompiler.compile StandardFiles.manager task recorded.files
    let requests := (UnitCompiler.compile StandardFiles.manager.watched task
      (recorded.files, [])).2.2
    UnitCompiler.compile (manager .none) task recorded =
      (verdict,
        { files, calls := recorded.calls ++ requests.filterMap FileRequest.recorded? }) := by
  have start : ofWatched recorded.calls (recorded.files, []) = recorded := by
    simp [ofWatched]
  have noted : FileRequest.flush.recorded? = some .flush := rfl
  have same := UnitCompiler.compile_beneath (manager_beneath recorded.calls) written_beneath
    (standard_beneath noted (pure ())) task (recorded.files, [])
  rw [start] at same
  rw [UnitCompiler.compile_watched StandardFiles.manager task recorded.files [], same]
  rfl

end RecordedFiles

/-! ## Prepared toolchains -/

theorem callsOf_call (calls : List ManagerCall) : callsOf (calls.map .call) = calls := by
  induction calls with
  | nil => rfl
  | cons call rest ih => exact congrArg (call :: ·) ih

theorem MemoryStore.replies_call {σ : Type} (manager : FileManager σ) (calls : List ManagerCall)
    (store : MemoryStore σ) : (replies manager (calls.map .call) store).2 =
      ((MemoryStore.manager manager).performAll calls store).2 := by
  induction calls generalizing store with
  | nil => rfl
  | cons call rest ih =>
      rw [FileManager.performAll_cons, ← ih, List.map_cons, replies, List.mapM_cons]
      rfl

namespace PreparedAnswer

variable {σ : Type}

def callOf (output : OutputUnit) : ManagerCall :=
  .output .classOutput output.name output.kind none
    (if output.bytes.isEmpty then [] else [.write output.bytes])

theorem write_run (manager : FileManager σ) (output : OutputUnit) (files : σ) :
    write manager output files = ((), (manager.perform (callOf output) files).2) := by
  unfold write callOf FileManager.perform Sink.writeAll
  cases output.bytes.isEmpty with
  | true => rfl
  | false =>
      dsimp only
      rw [if_neg Bool.false_ne_true]
      have alone (target : Sink σ) : [SinkCall.write output.bytes].forM (SinkCall.run target) =
          target.write output.bytes :=
        bind_pure _
      simp only [if_neg Bool.false_ne_true, alone]
      rfl

/-- A prepared toolchain writes its outputs, one call after the other, and gives its verdict. -/
theorem compile_run (answer : PreparedAnswer) (manager : FileManager σ) (task : CompilationTask)
    (files : σ) : answer.toolchain.compile manager task files =
      (answer.verdict, (manager.performAll (answer.outputs.map callOf) files).2) := by
  have writes (outputs : List OutputUnit) (files : σ) : outputs.forM (write manager) files =
      ((), (manager.performAll (outputs.map callOf) files).2) := by
    induction outputs generalizing files with
    | nil => rfl
    | cons output rest ih =>
        rw [List.map_cons, FileManager.performAll_cons]
        exact (bind_of_run (write_run manager output files)).trans (ih _)
  exact congrArg (fun out => (answer.verdict, out.2)) (writes answer.outputs files)

theorem lastOutput_callOf (name : String) (outputs : List OutputUnit) :
    lastOutput name (outputs.map callOf) = (outputs.filter (·.name = name)).getLast? := by
  unfold lastOutput
  congr 1
  induction outputs with
  | nil => rfl
  | cons output rest ih =>
      rw [List.map_cons, List.filterMap_cons, List.filter_cons, ih]
      by_cases same : output.name = name
      · have made : (callOf output).output? name = some output := by
          obtain ⟨_, kind, bytes⟩ := output
          cases bytes <;> simp_all [callOf, ManagerCall.output?, SinkCall.bytes]
        rw [made, if_pos (decide_eq_true same)]
      · have none : (callOf output).output? name = none := if_neg same
        rw [none, if_neg (by simpa using same)]

theorem passedOn_callOf (outputs : List OutputUnit) : passedOn (outputs.map callOf) = [] := by
  have captured : (outputs.map callOf).filter (fun call => !call.isCaptured) = [] := by
    rw [List.filter_eq_nil_iff]
    intro call member
    obtain ⟨output, -, rfl⟩ := List.mem_map.mp member
    exact Bool.false_ne_true
  rw [passedOn, captured]
  rfl

/-- A memory store keeps what a prepared toolchain writes: of each name the last output. Its manager
is not asked for anything. -/
theorem compile_captured (answer : PreparedAnswer) (manager : FileManager σ)
    (task : CompilationTask) (inner : σ) :
    let (verdict, store) :=
      answer.toolchain.compile (MemoryStore.manager manager) task (.ofInner inner)
    verdict = answer.verdict ∧ store.inner = inner ∧
      ∀ name, store.artifacts.get? name = (answer.outputs.filter (·.name = name)).getLast? := by
  have forwarded := MemoryStore.forwarded manager inner ((answer.outputs.map callOf).map .call)
  rw [MemoryStore.replies_call] at forwarded
  rw [compile_run]
  refine ⟨rfl, ?_, ?_⟩
  · rw [forwarded.inner_eq, callsOf_call, passedOn_callOf]
    rfl
  · intro name
    rw [forwarded.artifact, callsOf_call, lastOutput_callOf]

end PreparedAnswer

end UnitForge
