import UnitForge.Files.Memory
import UnitForge.Proofs.Files.Calls
import UnitForge.Proofs.Files.Table

/-! # What a memory store passes on

A memory store is used by calls, one after the other, between which its artifacts may be looked at.
Its manager is asked for everything but outputs and the place of outputs, in the same order and with
the same arguments, and for being closed once, at the end of the store's use if not before. -/
set_option autoImplicit false
namespace UnitForge

variable {σ : Type}

/-! ## Calls -/

inductive SinkCall where
  | write (chunk : Bytes)
  | flush
  deriving DecidableEq, Repr

/-- A call of a file manager. The sink of an output is used before anything else is asked for. -/
inductive ManagerCall where
  | arity (option : String)
  | option (flag : String) (values : List String)
  | hasLocation (location : Location)
  | list (location : Location) (package : String) (kinds : List ArtifactKind) (recurse : Bool)
  | inferName (location : Location) (file : FileObject)
  | isSameFile (a b : FileObject)
  | input (location : Location) (name : String) (kind : ArtifactKind)
  | read (file : FileObject)
  | output (location : Location) (name : String) (kind : ArtifactKind) (source : Option SourceUnit)
      (uses : List SinkCall)
  | flush
  | close
  deriving DecidableEq, Repr

inductive ManagerAnswer where
  | arity (count : Option Nat)
  | truth (holds : Bool)
  | accepted (result : Except FileError Bool)
  | files (result : Except FileError (List FileObject))
  | name (found : Option String)
  | file (result : Except FileError (Option FileObject))
  | bytes (result : Except FileError Bytes)
  | done (result : Except FileError Unit)

namespace SinkCall

def run (sink : Sink σ) : SinkCall → FileOp σ Unit
  | write chunk => sink.write chunk
  | flush => sink.flush

def bytes : SinkCall → Bytes
  | write chunk => chunk
  | flush => []

end SinkCall

namespace FileManager

variable (manager : FileManager σ)

def perform : ManagerCall → StateM σ ManagerAnswer
  | .arity option => .arity <$> manager.arityOf option
  | .option option values => .accepted <$> (manager.handleOption option values).run
  | .hasLocation location => .truth <$> manager.offers location
  | .list location package kinds recurse =>
    .files <$> (manager.list location package kinds recurse).run
  | .inferName location file => .name <$> manager.nameOf location file
  | .isSameFile a b => .truth <$> manager.isSame a b
  | .input location name kind => .file <$> (manager.input location name kind).run
  | .read file => .bytes <$> (manager.read file).run
  | .output location name kind source uses => .done <$> ExceptT.run do
      let sink ← manager.output location name kind source
      uses.forM (SinkCall.run sink)
  | .flush => .done <$> manager.flush.run
  | .close => .done <$> manager.close.run

def performAll (calls : List ManagerCall) : StateM σ (List ManagerAnswer) :=
  calls.mapM manager.perform

end FileManager

/-! ## Stores -/

inductive StoreEvent where
  | call (asked : ManagerCall)
  | snapshot
  deriving DecidableEq, Repr

inductive StoreReply where
  | answer (answer : ManagerAnswer)
  | artifacts (table : ArtifactTable)

def StoreEvent.call? : StoreEvent → Option ManagerCall
  | call asked => some asked
  | snapshot => none

def callsOf (events : List StoreEvent) : List ManagerCall :=
  events.filterMap StoreEvent.call?

namespace ManagerCall

/-- Whether a store answers a call by itself. -/
def isCaptured : ManagerCall → Bool
  | output .. => true
  | hasLocation .classOutput => true
  | _ => false

def output? (name : String) : ManagerCall → Option OutputUnit
  | output _ other kind _ uses =>
    if other = name then some { name, kind, bytes := uses.flatMap SinkCall.bytes } else none
  | _ => none

/-- What a manager that is watched puts on record first about a call. -/
def request : ManagerCall → FileRequest
  | .arity word => .arity word
  | .option flag values => .option flag values
  | .hasLocation location => .hasLocation location
  | .list location package kinds recurse => .list location package kinds recurse
  | .inferName location file => .inferName location file
  | .isSameFile a b => .isSameFile a b
  | .input location name kind => .input location name kind
  | .read file => .read file
  | .output location name kind source _ => .output location name kind source
  | .flush => .flush
  | .close => .close

end ManagerCall

/-- Calls without any close but the first one. -/
def closingOnce : List ManagerCall → List ManagerCall
  | [] => []
  | call :: rest =>
    if call = .close then call :: rest.filter (· ≠ .close) else call :: closingOnce rest

def passedOn (calls : List ManagerCall) : List ManagerCall :=
  closingOnce (calls.filter fun call => !call.isCaptured)

/-- The close at the end of a store's use, unless it was closed before. -/
def closingCall (calls : List ManagerCall) : List ManagerCall :=
  if .close ∈ calls then [] else [.close]

def lastOutput (name : String) (calls : List ManagerCall) : Option OutputUnit :=
  (calls.filterMap (ManagerCall.output? name)).getLast?

namespace MemoryStore

variable (manager : FileManager σ)

def reply : StoreEvent → StateM (MemoryStore σ) StoreReply
  | .call call => .answer <$> (MemoryStore.manager manager).perform call
  | .snapshot => fun store => (.artifacts store.artifacts, store)

def replies (events : List StoreEvent) : StateM (MemoryStore σ) (List StoreReply) :=
  events.mapM (reply manager)

/-- The answer to a call after others: that of the manager, which has been asked for nothing but what
was passed on, unless the store answers by itself or has been closed before. -/
def answerAfter (inner : σ) (calls : List ManagerCall) (call : ManagerCall) : ManagerAnswer :=
  match call with
  | .output .. => .done (.ok ())
  | .hasLocation .classOutput => .truth true
  | call =>
    if call = .close ∧ .close ∈ calls then .done (.ok ())
    else (manager.perform call (manager.performAll (passedOn calls) inner).2).1

/-- The reply to an event after others. A copy of the artifacts tells what the outputs so far left,
whatever happens to the store later. -/
def Fits (inner : σ) (earlier : List StoreEvent) : StoreEvent → StoreReply → Prop
  | .call call, .answer answer => answer = answerAfter manager inner (callsOf earlier) call
  | .snapshot, .artifacts table =>
    ∀ name, table.get? name = lastOutput name (callsOf earlier)
  | _, _ => False

end MemoryStore

/-! ## What is passed on -/

section PassedOn
variable (calls : List ManagerCall) (call : ManagerCall)

theorem closingOnce_append : closingOnce (calls ++ [call]) =
    closingOnce calls ++ if call = .close ∧ .close ∈ calls then [] else [call] := by
  induction calls with
  | nil => by_cases closes : call = .close <;> simp [closingOnce, closes]
  | cons first rest ih =>
      rw [List.cons_append, closingOnce, closingOnce]
      by_cases closed : first = .close
      · subst closed
        by_cases closes : call = .close <;> simp [closes]
      · rw [if_neg closed, if_neg closed, ih, List.cons_append]
        simp [Ne.symm closed]

theorem closingOnce_sublist : (closingOnce calls).Sublist calls := by
  induction calls with
  | nil => exact .slnil
  | cons first rest ih =>
      rw [closingOnce]
      split
      · exact List.filter_sublist.cons_cons first
      · exact ih.cons_cons first

theorem free_of_reaches {calls : List ManagerCall} {call : ManagerCall}
    (reaches : call ∈ passedOn calls ++ closingCall calls) : call.isCaptured = false := by
  rcases List.mem_append.mp reaches with passed | closing
  · simpa using (List.mem_filter.mp ((closingOnce_sublist _).subset passed)).2
  · unfold closingCall at closing
    split at closing
    · cases closing
    · rw [List.mem_singleton.mp closing]
      rfl

theorem passedOn_append : passedOn (calls ++ [call]) = passedOn calls ++
    if call.isCaptured ∨ (call = .close ∧ .close ∈ calls) then [] else [call] := by
  have closes : .close ∈ calls.filter (fun call => !call.isCaptured) ↔ .close ∈ calls := by
    simp [ManagerCall.isCaptured]
  unfold passedOn
  rw [List.filter_append]
  cases captured : call.isCaptured with
  | true => simp [captured]
  | false =>
      have kept : [call].filter (fun call => !call.isCaptured) = [call] := by simp [captured]
      rw [kept, closingOnce_append]
      simp [closes]

end PassedOn

theorem callsOf_append (events : List StoreEvent) (event : StoreEvent) :
    callsOf (events ++ [event]) = callsOf events ++ event.call?.toList := by
  rw [callsOf, List.filterMap_append]
  cases event <;> rfl

theorem lastOutput_append (name : String) (calls : List ManagerCall) (call : ManagerCall) :
    lastOutput name (calls ++ [call]) = (call.output? name).or (lastOutput name calls) := by
  rw [lastOutput, List.filterMap_append, List.getLast?_append]
  cases made : call.output? name <;> simp [made, lastOutput]

theorem FileManager.performAll_cons (manager : FileManager σ) (call : ManagerCall)
    (rest : List ManagerCall) (files : σ) : manager.performAll (call :: rest) files =
      ((manager.perform call files).1 ::
        (manager.performAll rest (manager.perform call files).2).1,
      (manager.performAll rest (manager.perform call files).2).2) := by
  unfold performAll
  rw [List.mapM_cons]
  rfl

theorem FileManager.performAll_append (manager : FileManager σ) (calls : List ManagerCall)
    (call : ManagerCall) (files : σ) : (manager.performAll (calls ++ [call]) files).2 =
      (manager.perform call (manager.performAll calls files).2).2 := by
  unfold performAll
  rw [List.mapM_append]
  rfl

namespace MemoryStore

variable (manager : FileManager σ)

/-! ## Single calls -/

theorem perform_passedOn {call : ManagerCall} (free : call.isCaptured = false)
    (open_ : call ≠ .close) (store : MemoryStore σ) :
    (MemoryStore.manager manager).perform call store =
      ((manager.perform call store.inner).1,
        { store with inner := (manager.perform call store.inner).2 }) := by
  cases call with
  | hasLocation location =>
      cases location with
      | classOutput => cases free
      | _ => rfl
  | output => cases free
  | close => exact absurd rfl open_
  | _ => rfl

theorem answerAfter_passed (inner : σ) {calls : List ManagerCall} {call : ManagerCall}
    (free : call.isCaptured = false) (reaches : ¬(call = .close ∧ .close ∈ calls)) :
    answerAfter manager inner calls call =
      (manager.perform call (manager.performAll (passedOn calls) inner).2).1 := by
  cases call with
  | output => cases free
  | hasLocation location =>
      cases location with
      | classOutput => cases free
      | _ => rfl
  | close => exact if_neg reaches
  | _ => rfl

theorem perform_close (store : MemoryStore σ) :
    (MemoryStore.manager manager).perform .close store =
      if store.closed then (.done (.ok ()), store)
      else ((manager.perform .close store.inner).1,
        { store with inner := (manager.perform .close store.inner).2, closed := true }) := by
  obtain ⟨inner, artifacts, closed⟩ := store
  cases closed <;> rfl

theorem uses_run (name : String) (kind : ArtifactKind) (uses : List SinkCall)
    (sink : Sink (MemoryStore σ)) (opened : ∃ before : MemoryStore σ,
      (output name kind before).1 = .ok sink) {bytes : Bytes} (store : MemoryStore σ)
    (begun : store.artifacts.get? name = some { name, kind, bytes }) :
    ∃ artifacts, (uses.forM (SinkCall.run sink) : FileOp (MemoryStore σ) Unit) store =
        (.ok (), { store with artifacts }) ∧
      artifacts.get? name = some { name, kind, bytes := bytes ++ uses.flatMap SinkCall.bytes } ∧
      ∀ other, other ≠ name → artifacts.get? other = store.artifacts.get? other := by
  obtain ⟨_, same⟩ := opened
  cases same
  induction uses generalizing bytes store with
  | nil => exact ⟨store.artifacts, rfl, by simpa using begun, fun _ _ => rfl⟩
  | cons use rest ih =>
      cases use with
      | flush => exact ih store begun
      | write chunk =>
          let written : MemoryStore σ :=
            { store with artifacts := store.artifacts.append name chunk }
          have here : written.artifacts.get? name =
              some { name, kind, bytes := bytes ++ chunk } := by
            rw [ArtifactTable.get?_append, begun]
            simp [OutputUnit.append]
          obtain ⟨artifacts, run, own, others⟩ := ih written here
          refine ⟨artifacts, run, ?_, ?_⟩
          · rw [own]
            simp [SinkCall.bytes]
          · intro other ne
            rw [others other ne, ArtifactTable.get?_append]
            simp [ne]

theorem perform_output (location : Location) (name : String) (kind : ArtifactKind)
    (source : Option SourceUnit) (uses : List SinkCall) (store : MemoryStore σ) :
    ∃ artifacts, (MemoryStore.manager manager).perform (.output location name kind source uses)
        store = (.done (.ok ()), { store with artifacts }) ∧
      artifacts.get? name = some { name, kind, bytes := uses.flatMap SinkCall.bytes } ∧
      ∀ other, other ≠ name → artifacts.get? other = store.artifacts.get? other := by
  let opened : MemoryStore σ :=
    { store with artifacts := store.artifacts.insert (.empty name kind) }
  have begun : opened.artifacts.get? name = some { name, kind, bytes := [] } :=
    store.artifacts.get?_insert_self (.empty name kind)
  obtain ⟨artifacts, run, own, others⟩ :=
    uses_run name kind uses _ ⟨store, rfl⟩ opened begun
  refine ⟨artifacts, ?_, own, ?_⟩
  · have performed : (MemoryStore.manager manager).perform
        (.output location name kind source uses) store =
          (.done ((uses.forM (SinkCall.run _) : FileOp (MemoryStore σ) Unit) opened).1,
            ((uses.forM (SinkCall.run _) : FileOp (MemoryStore σ) Unit) opened).2) := rfl
    rw [performed, run]
  · intro other ne
    rw [others other ne]
    exact store.artifacts.get?_insert_other (.empty name kind) (Ne.symm ne)

/-! ## Sequences of calls -/

/-- What a store has come to, and has replied, after events. -/
structure Forwarded (inner : σ) (events : List StoreEvent) (answered : List StoreReply)
    (store : MemoryStore σ) : Prop where
  length_eq : answered.length = events.length
  fits : ∀ (index : Nat) (event : StoreEvent), events[index]? = some event →
    ∃ reply, answered[index]? = some reply ∧ Fits manager inner (events.take index) event reply
  inner_eq : store.inner = (manager.performAll (passedOn (callsOf events)) inner).2
  closed_iff : store.closed = true ↔ .close ∈ callsOf events
  artifact : ∀ name, store.artifacts.get? name = lastOutput name (callsOf events)

namespace Forwarded

variable {manager} {inner : σ} {events : List StoreEvent} {answered : List StoreReply}
  {store : MemoryStore σ}

theorem start : Forwarded manager inner [] [] (ofInner inner) where
  length_eq := rfl
  fits := nofun
  inner_eq := rfl
  closed_iff := by simp [ofInner, callsOf]
  artifact _ := rfl

theorem fits_snoc (before : Forwarded manager inner events answered store) {event : StoreEvent}
    {reply : StoreReply} (fit : Fits manager inner events event reply) (index : Nat)
    (known : StoreEvent) (place : (events ++ [event])[index]? = some known) :
    ∃ given, (answered ++ [reply])[index]? = some given ∧
      Fits manager inner ((events ++ [event]).take index) known given := by
  rcases Nat.lt_trichotomy index events.length with earlier | here | later
  · rw [List.getElem?_append_left earlier] at place
    obtain ⟨given, found, fits⟩ := before.fits index known place
    refine ⟨given, ?_, ?_⟩
    · rwa [List.getElem?_append_left (before.length_eq ▸ earlier)]
    · rwa [List.take_append_of_le_length (Nat.le_of_lt earlier)]
  · subst here
    rw [List.getElem?_concat_length] at place
    cases place
    refine ⟨reply, ?_, ?_⟩
    · rw [← before.length_eq, List.getElem?_concat_length]
    · rwa [List.take_left]
  · have none : (events ++ [event])[index]? = Option.none :=
      List.getElem?_eq_none (by rw [List.length_append]; exact later)
    rw [none] at place
    cases place

theorem snapshot (before : Forwarded manager inner events answered store) :
    Forwarded manager inner (events ++ [.snapshot])
      (answered ++ [.artifacts store.artifacts]) store := by
  have same : callsOf (events ++ [.snapshot]) = callsOf events := by
    rw [callsOf_append]
    exact List.append_nil _
  refine ⟨by simp [before.length_eq], before.fits_snoc before.artifact, ?_, ?_, ?_⟩
  all_goals rw [same]
  · exact before.inner_eq
  · exact before.closed_iff
  · exact before.artifact

section Call
variable (before : Forwarded manager inner events answered store)
include before

theorem output {location : Location} {name : String} {kind : ArtifactKind}
    {source : Option SourceUnit} {uses : List SinkCall} {call : ManagerCall}
    (asked : call = .output location name kind source uses) {artifacts : ArtifactTable}
    (own : artifacts.get? name = some { name, kind, bytes := uses.flatMap SinkCall.bytes })
    (others : ∀ other, other ≠ name → artifacts.get? other = store.artifacts.get? other) :
    Forwarded manager inner (events ++ [.call call])
      (answered ++ [.answer (.done (.ok ()))]) { store with artifacts } := by
  have calls : callsOf (events ++ [.call call]) = callsOf events ++ [call] := callsOf_append _ _
  have captured : call.isCaptured = true := by rw [asked]; rfl
  have open_ : call ≠ .close := by rw [asked]; exact nofun
  refine ⟨by simp [before.length_eq], before.fits_snoc (by subst asked; rfl), ?_, ?_, ?_⟩
  all_goals rw [calls]
  · rw [passedOn_append, if_pos (.inl captured), List.append_nil]
    exact before.inner_eq
  · simpa [Ne.symm open_] using before.closed_iff
  · intro wanted
    rw [lastOutput_append, asked]
    by_cases same : name = wanted
    · subst same
      simp [ManagerCall.output?, own]
    · simp only [ManagerCall.output?, if_neg same, Option.none_or]
      rw [others wanted (Ne.symm same), before.artifact]

theorem kept {call : ManagerCall} {answer : ManagerAnswer}
    (fit : answer = answerAfter manager inner (callsOf events) call)
    (absorbed : call.isCaptured = true ∨ call = .close ∧ .close ∈ callsOf events)
    (silent : ∀ name, call.output? name = none) :
    Forwarded manager inner (events ++ [.call call]) (answered ++ [.answer answer]) store := by
  have calls : callsOf (events ++ [.call call]) = callsOf events ++ [call] := callsOf_append _ _
  refine ⟨by simp [before.length_eq], before.fits_snoc fit, ?_, ?_, fun name => ?_⟩
  all_goals rw [calls]
  · rw [passedOn_append, if_pos absorbed, List.append_nil]
    exact before.inner_eq
  · rw [before.closed_iff, List.mem_append]
    refine ⟨.inl, Or.rec id ?_⟩
    intro last
    have closes : call = .close := (List.mem_singleton.mp last).symm
    rcases absorbed with captured | ⟨_, closed⟩
    · rw [closes] at captured
      cases captured
    · exact closed
  · rw [lastOutput_append, silent, Option.none_or]
    exact before.artifact name

theorem passed {call : ManagerCall} (free : call.isCaptured = false)
    (reaches : ¬(call = .close ∧ .close ∈ callsOf events)) :
    Forwarded manager inner (events ++ [.call call])
      (answered ++ [.answer (manager.perform call store.inner).1])
      { store with
        inner := (manager.perform call store.inner).2
        closed := store.closed || decide (call = .close) } := by
  have calls : callsOf (events ++ [.call call]) = callsOf events ++ [call] := callsOf_append _ _
  have silent : ∀ name, call.output? name = none := by
    cases call with
    | output => cases free
    | _ => exact fun _ => rfl
  refine ⟨by simp [before.length_eq], before.fits_snoc ?_, ?_, ?_, fun name => ?_⟩
  · rw [Fits, answerAfter_passed manager inner free reaches, before.inner_eq]
  all_goals rw [calls]
  · rw [passedOn_append, if_neg (by simpa [free] using reaches), manager.performAll_append,
      before.inner_eq]
  · rw [Bool.or_eq_true, before.closed_iff, decide_eq_true_iff, List.mem_append,
      List.mem_singleton, eq_comm (a := call)]
  · rw [lastOutput_append, silent, Option.none_or]
    exact before.artifact name

theorem call (call : ManagerCall) : Forwarded manager inner (events ++ [.call call])
    (answered ++ [.answer ((MemoryStore.manager manager).perform call store).1])
    ((MemoryStore.manager manager).perform call store).2 := by
  by_cases closes : call = .close
  · subst closes
    rw [perform_close]
    by_cases closed : store.closed = true
    · have again : .close ∈ callsOf events := before.closed_iff.mp closed
      rw [if_pos closed]
      refine before.kept ?_ (.inr ⟨rfl, again⟩) fun _ => rfl
      rw [answerAfter, if_pos ⟨rfl, again⟩]
      all_goals exact nofun
    · have first : .close ∉ callsOf events := fun again => closed (before.closed_iff.mpr again)
      rw [if_neg closed]
      have free : ManagerCall.close.isCaptured = false := rfl
      simpa using before.passed free fun again => first again.2
  · cases captured : call.isCaptured with
    | false =>
        rw [perform_passedOn manager captured closes]
        simpa [closes] using before.passed captured fun again => closes again.1
    | true =>
        cases call with
        | output location name kind source uses =>
            obtain ⟨artifacts, run, own, others⟩ :=
              perform_output manager location name kind source uses store
            rw [run]
            exact before.output rfl own others
        | hasLocation location =>
            cases location with
            | classOutput => exact before.kept rfl (.inl rfl) fun _ => rfl
            | _ => cases captured
        | _ => cases captured

end Call

theorem event (before : Forwarded manager inner events answered store) (event : StoreEvent) :
    Forwarded manager inner (events ++ [event]) (answered ++ [(reply manager event store).1])
      (reply manager event store).2 := by
  cases event with
  | call asked => exact before.call asked
  | snapshot => exact before.snapshot

/-- The end of a store's use: the manager is closed now if it was not before. -/
theorem drop_inner (before : Forwarded manager inner events answered store) :
    (drop manager store).2.inner =
      (manager.performAll (passedOn (callsOf events) ++ closingCall (callsOf events)) inner).2 := by
  have dropped : (drop manager store).2 =
      ((MemoryStore.manager manager).perform .close store).2 := by
    change (drop manager store).2 = (close manager store).2
    unfold drop
    rcases close manager store with ⟨fault | done, after⟩ <;> rfl
  rw [dropped, perform_close, closingCall]
  by_cases closed : store.closed = true
  · rw [if_pos closed, if_pos (before.closed_iff.mp closed), List.append_nil]
    exact before.inner_eq
  · rw [if_neg closed, if_neg fun again => closed (before.closed_iff.mpr again),
      manager.performAll_append, ← before.inner_eq]

end Forwarded

theorem forwarded (inner : σ) (events : List StoreEvent) :
    Forwarded manager inner events (replies manager events (ofInner inner)).1
      (replies manager events (ofInner inner)).2 :=
  Step.mapM_induct (P := fun done answered store => Forwarded manager inner done answered store)
    (fun _ _ event _ before => before.event event) events .start

end MemoryStore

namespace FileManager

/-- A call that opens no output is on the record of a watched manager once. -/
theorem watched_perform (manager : FileManager σ) {call : ManagerCall}
    (free : call.isCaptured = false) (state : σ × List FileRequest) :
    (manager.watched.perform call state).2.2 = state.2 ++ [call.request] := by
  cases call with
  | output => cases free
  | _ => rfl

theorem watched_performAll (manager : FileManager σ) {calls : List ManagerCall}
    (free : ∀ call ∈ calls, call.isCaptured = false) (state : σ × List FileRequest) :
    (manager.watched.performAll calls state).2.2 =
      state.2 ++ calls.map ManagerCall.request := by
  induction calls generalizing state with
  | nil => exact (List.append_nil _).symm
  | cons call rest ih =>
      rw [performAll_cons, ih fun call member => free call (List.mem_cons_of_mem _ member),
        manager.watched_perform (free call List.mem_cons_self), List.append_assoc]
      rfl

end FileManager

namespace MemoryStore

/-- A store stands in for its manager. The manager comes to the state in which the calls that are
passed on leave it, and then one close if there was none; every reply is the one that fits the
events before it, and the artifacts are what the last output of each name left. What a manager that
is watched has on record tells which calls have reached it. -/
theorem forwards_calls (manager : FileManager σ) (inner : σ) (events : List StoreEvent) :
    let calls := callsOf events
    let (answered, store) := replies manager events (ofInner inner)
    (answered.length = events.length ∧
      ∀ (index : Nat) (event : StoreEvent), events[index]? = some event →
        ∃ reply, answered[index]? = some reply ∧
          Fits manager inner (events.take index) event reply) ∧
    store.inner = (manager.performAll (passedOn calls) inner).2 ∧
    (∀ name, store.artifacts.get? name = lastOutput name calls) ∧
    (drop manager store).2.inner =
      (manager.performAll (passedOn calls ++ closingCall calls) inner).2 ∧
    ∀ requests : List FileRequest,
      (drop manager.watched
          (replies manager.watched events (ofInner (inner, requests))).2).2.inner.2 =
        requests ++ (passedOn calls ++ closingCall calls).map ManagerCall.request := by
  intro calls
  have all := forwarded manager inner events
  refine ⟨⟨all.length_eq, all.fits⟩, all.inner_eq, all.artifact, all.drop_inner, ?_⟩
  intro requests
  rw [(forwarded manager.watched (inner, requests) events).drop_inner,
    manager.watched_performAll fun call => free_of_reaches]

end MemoryStore

end UnitForge
