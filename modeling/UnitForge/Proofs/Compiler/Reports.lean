import UnitForge.Proofs.Compiler.Analysis
import UnitForge.Proofs.Files.Calls

/-! # Reports and outputs

A compilation fails just where an error is delivered, and nothing is written before all sources are
known to be free of errors. Then every struct has its image written, once and in order, and the
outputs are completed once. -/
set_option autoImplicit false
namespace UnitForge

open Step

variable {σ : Type}

structure Session.Moves (Q : σ → σ → Prop) (before after : Session σ) : Prop where
  delivered : before.delivered <+: after.delivered
  files : Q before.files after.files

namespace Session

variable {Q : σ → σ → Prop} [IsPreorder σ Q]

instance : IsPreorder (Session σ) (Moves Q) where
  refl _ := ⟨List.prefix_rfl, Std.Refl.refl _⟩
  trans _ _ _ h k := ⟨h.delivered.trans k.delivered, IsTrans.trans _ _ _ h.files k.files⟩

omit [IsPreorder σ Q] in
theorem Moves.clean {before after : Session σ} (moves : before.Moves Q after)
    (clean : after.Clean) : before.Clean :=
  Nat.eq_zero_of_le_zero (clean ▸ moves.delivered.sublist.countP_le)

theorem report_moves (diagnostic : Diagnostic) :
    Within (Moves Q) (report (σ := σ) diagnostic) :=
  fun _ => ⟨List.prefix_append .., Std.Refl.refl _⟩

omit [IsPreorder σ Q] in
theorem ask_moves {α : Type} {query : FileQuery σ α} (moves : ∀ files, Q files (query files).2) :
    Within (Moves Q) (ask query) :=
  fun before => ⟨List.prefix_rfl, moves before.files⟩

omit [IsPreorder σ Q] in
theorem onFiles_moves {α : Type} {op : FileOp σ α} (moves : ∀ files, Q files (op files).2) :
    Within (Moves Q) (onFiles op) :=
  fun before => ⟨List.prefix_rfl, moves before.files⟩

end Session

namespace UnitCompiler

open Session FileManager

variable {manager : FileManager σ} {Q : σ → σ → Prop}

/-! ## Options -/

section Options
variable {R : Session σ → Session σ → Prop} [IsPreorder (Session σ) R]
  (policy : ∀ change : WarningPolicy → WarningPolicy, Within R (modify fun session =>
    { session with policy := change session.policy }))
  (reports : ∀ diagnostic, Within R (report diagnostic))
  (asks : ∀ option, Within R (ask (manager.arityOf option)))
  (handles : ∀ option values, Within R (onFiles (manager.handleOption option values)))
include policy reports asks handles

theorem applyOptions_within (options : List String) : Within R (applyOptions manager options) := by
  match options with
  | [] =>
      rw [applyOptions]
      exact .pure _
  | option :: rest =>
      have ih := applyOptions_within rest
      have hands (values : List String) : Within R (handOver manager option values) := by
        apply (handles option values).bind
        intro answer
        split
        · exact .pure _
        · exact .bind (reports _) fun _ => .pure _
        · exact .bind (reports _) fun _ => .pure _
      have suppress := (policy fun policy => { policy with suppress := true }).bind fun _ => ih
      have deny := (policy fun policy => { policy with deny := true }).bind fun _ => ih
      rw [applyOptions]
      refine .ite suppress (.ite deny ?_)
      apply (asks option).bind
      intro arity
      cases arity with
      | none =>
          apply (reports _).bind
          intro _
          exact .bind ih fun _ => .pure _
      | some count =>
          have others := applyOptions_within (rest.drop count)
          refine .ite (.bind (reports _) fun _ => .pure _) ?_
          apply (hands _).bind
          intro _
          exact .bind others fun _ => .pure _
  termination_by options.length
  decreasing_by all_goals simp; try omega

end Options

theorem applyOptions_moves [IsPreorder σ Q]
    (asks : ∀ option files, Q files (manager.arityOf option files).2)
    (handles : ∀ option values files, Q files (manager.handleOption option values files).2)
    (options : List String) : Within (Moves Q) (applyOptions manager options) := by
  apply applyOptions_within
  case policy =>
    intro change before
    exact ⟨List.prefix_rfl, Std.Refl.refl _⟩
  case reports => exact report_moves
  case asks =>
    intro option
    exact ask_moves (asks option)
  case handles =>
    intro option values
    exact onFiles_moves (handles option values)

theorem applyOptions_units (options : List String) (before : Session σ) :
    (applyOptions manager options before).2.units = before.units := by
  let R (before after : Session σ) : Prop := after.units = before.units
  have : IsPreorder (Session σ) R :=
    { refl := fun _ => rfl, trans := fun _ _ _ h k => k.trans h }
  have within : Within R (applyOptions manager options) := by
    apply applyOptions_within
    case policy => exact fun _ _ => rfl
    case reports => exact fun _ _ => rfl
    case asks => exact fun _ _ => rfl
    case handles => exact fun _ _ _ => rfl
  exact within before

theorem reported_run {α : Type} {answer found : α} {problem : Problem}
    {before after : Session σ} (grave : problem.severity = .error)
    (run : (do complain problem; return answer) before = (found, after)) : ¬after.Clean := by
  obtain ⟨_, middle, complained, run⟩ := bind_run run
  cases run
  have reported : ¬(complain problem before).2.Clean := not_clean_report grave before
  rwa [complained] at reported

theorem handOver_reported {option : String} {values : List String} {before after : Session σ}
    (run : handOver manager option values before = (false, after)) : ¬after.Clean := by
  obtain ⟨answer, reached, handed, run⟩ := bind_run run
  rcases answer with fault | _ | _
  · exact reported_run rfl run
  · exact reported_run rfl run
  · cases run

instance isPreorder_anything : IsPreorder σ fun _ _ => True where
  refl _ := trivial
  trans _ _ _ _ _ := trivial

theorem applyOptions_clean {options : List String} {before after : Session σ} {accepted : Bool}
    (run : applyOptions manager options before = (accepted, after)) (clean : after.Clean) :
    before.Clean :=
  ((applyOptions_moves (fun _ _ => trivial) (fun _ _ _ => trivial) options).of_run run :
    before.Moves (fun _ _ => True) after).clean clean

theorem applyOptions_reported {options : List String} {before after : Session σ}
    (run : applyOptions manager options before = (false, after)) : ¬after.Clean := by
  match options with
  | [] =>
      rw [applyOptions] at run
      cases run
  | option :: rest =>
      have ih {before : Session σ} (run : applyOptions manager rest before = (false, after)) :
          ¬after.Clean :=
        applyOptions_reported run
      rw [applyOptions] at run
      split at run
      · obtain ⟨_, middle, _, run⟩ := bind_run run
        exact ih run
      · split at run
        · obtain ⟨_, middle, _, run⟩ := bind_run run
          exact ih run
        · obtain ⟨arity, asked, _, run⟩ := bind_run run
          cases arity with
          | none =>
              obtain ⟨_, middle, complained, run⟩ := bind_run run
              obtain ⟨others, reached, applied, run⟩ := bind_run run
              cases run
              intro clean
              have reported : ¬(complain (.unknownOption option) asked).2.Clean :=
                not_clean_report rfl asked
              rw [complained] at reported
              exact reported (applyOptions_clean applied clean)
          | some count =>
              dsimp only at run
              split at run
              · exact reported_run rfl run
              · obtain ⟨accepted, middle, handed, run⟩ := bind_run run
                obtain ⟨others, reached, applied, run⟩ := bind_run run
                obtain ⟨refused, rfl⟩ := Prod.mk.inj run
                cases accepted with
                | false =>
                    intro clean
                    exact handOver_reported handed (applyOptions_clean applied clean)
                | true =>
                    rw [Bool.true_and] at refused
                    subst refused
                    exact applyOptions_reported applied
  termination_by options.length
  decreasing_by all_goals simp; try omega

/-! ## Outputs -/

/-- What is asked for an image: an output, that the bytes are written to it, and that it is
completed. -/
def emission (unit : SourceUnit) (image : UnitImage) : List FileRequest :=
  [.output .classOutput image.name .unit (some unit), .write image.encode, .flushSink]

/-- The beginning of what is asked for an image, as far as nothing fails. -/
def Emits (unit : SourceUnit) (image : UnitImage) (requests : List FileRequest) : Prop :=
  requests ≠ [] ∧ requests <+: emission unit image

theorem encode_ne_nil (image : UnitImage) : image.encode ≠ [] := by
  simp [UnitImage.encode, Codec.header, Codec.magic]

def written (manager : FileManager σ) (unit : SourceUnit) (image : UnitImage) : FileOp σ Unit := do
  let sink ← manager.output .classOutput image.name .unit (some unit)
  sink.writeAll image.encode
  sink.flush

theorem written_run {unit : SourceUnit} {image : UnitImage} {before after : σ × List FileRequest}
    {answer : Except FileError Unit}
    (run : written manager.watched unit image before = (answer, after)) :
    ∃ requests, after.2 = before.2 ++ requests ∧ Emits unit image requests ∧
      (answer = .ok () → requests = emission unit image) := by
  rcases except_bind_run run with ⟨fault, stop, opened, same⟩ | ⟨sink, middle, opened, run⟩
  · cases same
    obtain ⟨asked, -⟩ := watched_output_run opened
    exact ⟨_, asked, ⟨nofun, ⟨[.write image.encode, .flushSink], rfl⟩⟩, nofun⟩
  · obtain ⟨asked, watches⟩ := watched_output_run opened
    obtain ⟨inner, rfl⟩ := watches sink rfl
    have nonempty : image.encode.isEmpty = false := by
      simp [encode_ne_nil]
    have writes : (watchSink inner).writeAll image.encode =
        note (.write image.encode) (inner.write image.encode) := by
      simp only [Sink.writeAll, nonempty]
      rfl
    rw [writes] at run
    rcases except_bind_run run with ⟨fault, stop, chunk, same⟩ | ⟨_, reached, chunk, run⟩
    · cases same
      refine ⟨[.output .classOutput image.name .unit (some unit), .write image.encode], ?_,
        ⟨nofun, ⟨[.flushSink], rfl⟩⟩, nofun⟩
      rw [note_run chunk, asked, List.append_assoc]
      rfl
    · refine ⟨emission unit image, ?_, ⟨nofun, List.prefix_rfl⟩, fun _ => rfl⟩
      rw [note_run run, note_run chunk, asked, List.append_assoc, List.append_assoc]
      rfl

theorem settled_run {answer : Except FileError Unit} {diagnostic : FileError → Diagnostic}
    (grave : ∀ fault, (diagnostic fault).severity = .error)
    {before after : Session σ} {value : Unit}
    (run : (match answer with
      | .ok () => pure ()
      | .error fault => report (diagnostic fault) : Check σ Unit) before = (value, after)) :
    before.delivered <+: after.delivered ∧ after.files = before.files ∧
      (after.Clean → answer = .ok ()) := by
  rcases answer with fault | _
  · cases run
    exact ⟨List.prefix_append .., rfl, fun clean => absurd clean (not_clean_report (grave fault) _)⟩
  · cases run
    exact ⟨List.prefix_rfl, rfl, fun _ => rfl⟩

theorem emit_run {unit : SourceUnit} {image : UnitImage}
    {before after : Session (σ × List FileRequest)}
    (run : emit manager.watched unit image before = ((), after)) :
    before.delivered <+: after.delivered ∧ ∃ requests,
      after.files.2 = before.files.2 ++ requests ∧ Emits unit image requests ∧
        (after.Clean → requests = emission unit image) := by
  obtain ⟨answer, middle, wrote, run⟩ := bind_run run
  obtain ⟨performed, same⟩ := onFiles_run wrote
  obtain ⟨requests, asked, emits, whole⟩ := written_run performed
  obtain ⟨delivered, files, settled⟩ := settled_run (fun _ => rfl) run
  rw [same] at delivered
  exact ⟨delivered, requests, files ▸ asked, emits, fun clean => whole (settled clean)⟩

def placed (analysed : List (SourceUnit × List UnitImage)) : List (SourceUnit × UnitImage) :=
  analysed.flatMap fun (unit, images) => images.map (unit, ·)

inductive EmitsAll : List (SourceUnit × UnitImage) → List FileRequest → Prop
  | nil : EmitsAll [] []
  | cons {unit : SourceUnit} {image : UnitImage} {rest : List (SourceUnit × UnitImage)}
      {first others : List FileRequest} (emits : Emits unit image first)
      (all : EmitsAll rest others) : EmitsAll ((unit, image) :: rest) (first ++ others)

/-- Images have been written in order, as far as nothing failed. -/
def Wrote (images : List (SourceUnit × UnitImage))
    (before after : Session (σ × List FileRequest)) : Prop :=
  before.delivered <+: after.delivered ∧ ∃ requests,
    after.files.2 = before.files.2 ++ requests ∧ EmitsAll images requests ∧
      (after.Clean → requests = images.flatMap fun (unit, image) => emission unit image)

theorem EmitsAll.append {first second : List (SourceUnit × UnitImage)}
    {earlier later : List FileRequest} (h : EmitsAll first earlier) (k : EmitsAll second later) :
    EmitsAll (first ++ second) (earlier ++ later) := by
  induction h with
  | nil => exact k
  | cons emits _ ih =>
      rw [List.cons_append, List.append_assoc]
      exact .cons emits ih

theorem Wrote.nil (session : Session (σ × List FileRequest)) : Wrote [] session session :=
  ⟨List.prefix_rfl, [], (List.append_nil _).symm, .nil, fun _ => rfl⟩

theorem Wrote.append {images others : List (SourceUnit × UnitImage)}
    {first second third : Session (σ × List FileRequest)} (h : Wrote images first second)
    (k : Wrote others second third) : Wrote (images ++ others) first third := by
  obtain ⟨delivered, earlier, asked, emits, whole⟩ := h
  obtain ⟨delivered', later, asked', emits', whole'⟩ := k
  refine ⟨delivered.trans delivered', earlier ++ later, ?_, emits.append emits', ?_⟩
  · rw [asked', asked, List.append_assoc]
  · intro clean
    have middle : second.Clean :=
      Nat.eq_zero_of_le_zero (clean ▸ delivered'.sublist.countP_le)
    rw [whole middle, whole' clean, List.flatMap_append]

theorem emit_wrote (unit : SourceUnit) (image : UnitImage)
    (before : Session (σ × List FileRequest)) :
    Wrote [(unit, image)] before (emit manager.watched unit image before).2 := by
  obtain ⟨delivered, requests, asked, emits, whole⟩ :=
    emit_run (run_eta (emit manager.watched unit image) before)
  refine ⟨delivered, requests, asked, ?_, ?_⟩
  · have all := EmitsAll.cons emits .nil
    rwa [List.append_nil] at all
  · intro clean
    rw [whole clean, List.flatMap_singleton]

theorem emitImages_wrote (manager : FileManager σ) (unit : SourceUnit)
    (images : List UnitImage) (before : Session (σ × List FileRequest)) :
    Wrote (images.map (unit, ·)) before (images.forM (emit manager.watched unit) before).2 := by
  refine forM_induct (P := fun done session => Wrote (done.map (unit, ·)) before session)
    ?_ images (.nil before)
  intro done image session wrote
  rw [List.map_append]
  exact wrote.append (emit_wrote unit image session)

theorem emitUnits_wrote (manager : FileManager σ)
    (analysed : List (SourceUnit × List UnitImage)) (before : Session (σ × List FileRequest)) :
    Wrote (placed analysed) before
      ((analysed.forM fun (unit, images) => images.forM (emit manager.watched unit)) before).2 := by
  refine forM_induct (P := fun done session => Wrote (placed done) before session)
    ?_ analysed (.nil before)
  intro done answer session wrote
  obtain ⟨unit, images⟩ := answer
  have more := wrote.append (emitImages_wrote manager unit images session)
  unfold placed
  rw [List.flatMap_append, List.flatMap_singleton]
  exact more

/-- After the outputs, the manager is told once that they are complete. -/
theorem emitAll_run {analysed : List (SourceUnit × List UnitImage)}
    {before after : Session (σ × List FileRequest)} {value : Unit}
    (run : emitAll manager.watched analysed before = (value, after)) :
    ∃ requests, EmitsAll (placed analysed) requests ∧
      after.files.2 = before.files.2 ++ requests ++ [.flush] ∧
      (after.Clean → requests = (placed analysed).flatMap fun (unit, image) =>
        emission unit image) := by
  obtain ⟨_, emitted, wrote, run⟩ := bind_run run
  have all := emitUnits_wrote manager analysed before
  rw [wrote] at all
  obtain ⟨-, requests, asked, emits, whole⟩ := all
  obtain ⟨answer, flushed, completed, run⟩ := bind_run run
  obtain ⟨performed, same⟩ := onFiles_run completed
  obtain ⟨delivered, files, -⟩ := settled_run (fun _ => rfl) run
  rw [same] at delivered
  refine ⟨requests, emits, ?_, fun clean => whole ?_⟩
  · rw [← asked, files]
    exact note_run performed
  · exact Nat.eq_zero_of_le_zero (clean ▸ delivered.sublist.countP_le)

theorem emitAll_within {R : Session σ → Session σ → Prop} [IsPreorder (Session σ) R]
    (emits : ∀ unit image, Within R (emit manager unit image))
    (flushes : Within R (onFiles manager.flush))
    (reports : ∀ diagnostic, Within R (report diagnostic))
    (answers : List (SourceUnit × List UnitImage)) : Within R (emitAll manager answers) := by
  have each (answer : SourceUnit × List UnitImage) :
      Within R (answer.2.forM (emit manager answer.1)) :=
    .forM (emits answer.1) answer.2
  refine .bind (.forM each answers) ?_
  intro _
  apply flushes.bind
  intro completed
  split
  · exact .pure _
  · exact reports _

theorem emit_moves (unit : SourceUnit) (image : UnitImage) :
    Within (Moves fun _ _ => True) (emit manager unit image) := by
  apply (onFiles_moves fun _ => trivial).bind
  intro wrote
  split
  · exact .pure _
  · exact report_moves _

/-- Everything that is done before the first output: the options are applied and all sources are
analysed, unless an option was refused. -/
def prepare (manager : FileManager σ) (task : CompilationTask) :
    Check σ (Option (List (SourceUnit × List UnitImage))) := do
  if !(← applyOptions manager task.options) then return none
  else return some (← analyseAll manager task.units)

/-- What follows: the outputs, unless there was an error. -/
def deliver (manager : FileManager σ) (analysed : List (SourceUnit × List UnitImage)) :
    Check σ Bool := do
  if (← get).errors > 0 then return false
  else
    emitAll manager analysed
    return (← get).errors = 0

section Prepared
variable {task : CompilationTask} {before prepared : Session σ}

theorem carryOut_eq (manager : FileManager σ) (task : CompilationTask) :
    carryOut manager task = (do
      match ← prepare manager task with
      | none => return false
      | some analysed => deliver manager analysed) := by
  unfold carryOut prepare deliver
  rw [bind_assoc]
  refine congrArg _ (funext ?_)
  intro accepted
  cases accepted with
  | false => rfl
  | true => rfl

theorem carryOut_refused (preparing : prepare manager task before = (none, prepared)) :
    carryOut manager task before = (false, prepared) := by
  rw [carryOut_eq, bind_of_run preparing]
  rfl

theorem carryOut_prepared {analysed : List (SourceUnit × List UnitImage)}
    (preparing : prepare manager task before = (some analysed, prepared)) :
    carryOut manager task before = deliver manager analysed prepared := by
  rw [carryOut_eq, bind_of_run preparing]

end Prepared

theorem deliver_grave (analysed : List (SourceUnit × List UnitImage)) {session : Session σ}
    (grave : ¬session.Clean) : deliver manager analysed session = (false, session) := by
  change (if session.errors > 0 then pure false else _ : Check σ Bool) session = _
  rw [if_pos (Nat.pos_of_ne_zero grave)]
  rfl

theorem deliver_clean (analysed : List (SourceUnit × List UnitImage)) {session : Session σ}
    (clean : session.Clean) : deliver manager analysed session =
      let after := (emitAll manager analysed session).2
      (decide (after.errors = 0), after) := by
  change (if session.errors > 0 then pure false else _ : Check σ Bool) session = _
  rw [if_neg (Nat.not_lt_of_le (Nat.le_of_eq clean))]
  rfl

theorem prepare_run {task : CompilationTask} {before after : Session σ}
    {found : Option (List (SourceUnit × List UnitImage))}
    (run : prepare manager task before = (found, after)) (clean : after.Clean) :
    ∃ analysed, found = some analysed ∧ List.Forall₂ (fun unit answer =>
      answer.1 = unit ∧ Nonempty (Analysed manager unit answer.2 after)) task.units analysed := by
  obtain ⟨accepted, middle, applied, run⟩ := bind_run run
  cases accepted with
  | false =>
      cases run
      exact absurd clean (applyOptions_reported applied)
  | true =>
      obtain ⟨analysed, reached, all, run⟩ := bind_run run
      cases run
      exact ⟨analysed, rfl, (analyseAll_run all).2 clean⟩

theorem prepare_looks {task : CompilationTask} {before after : Session (σ × List FileRequest)}
    {found : Option (List (SourceUnit × List UnitImage))}
    (run : prepare manager.watched task before = (found, after)) :
    OnlyLooks before.files after.files := by
  obtain ⟨accepted, middle, applied, run⟩ := bind_run run
  have options : before.Moves OnlyLooks middle :=
    (applyOptions_moves (fun option files => .note rfl _ files)
      (fun option values files => .note rfl _ files) _).of_run applied
  cases accepted with
  | false =>
      cases run
      exact options.files
  | true =>
      obtain ⟨analysed, reached, all, run⟩ := bind_run run
      cases run
      exact options.files.trans (onlyLooks_of_reflTransGen (analyseAll_run all).1.files)

theorem carryOut_run {task : CompilationTask} {before after : Session σ} {succeeded : Bool}
    (run : carryOut manager task before = (succeeded, after)) :
    succeeded = true ↔ after.Clean := by
  rcases preparing : prepare manager task before with ⟨_ | analysed, prepared⟩
  · rw [carryOut_refused preparing] at run
    cases run
    constructor
    · nofun
    · intro clean
      obtain ⟨analysed, absurd, -⟩ := prepare_run preparing clean
      cases absurd
  · rw [carryOut_prepared preparing] at run
    by_cases clean : prepared.Clean
    · rw [deliver_clean analysed clean] at run
      cases run
      exact decide_eq_true_iff
    · rw [deliver_grave analysed clean] at run
      cases run
      constructor
      · nofun
      · intro absurd
        exact (clean absurd).elim

theorem carryOut_succeeded {task : CompilationTask} {before after : Session σ}
    (run : carryOut manager task before = (true, after)) :
    ∃ analysed prepared, prepare manager task before = (some analysed, prepared) ∧
      prepared.Clean ∧ (emitAll manager analysed prepared).2 = after := by
  rcases preparing : prepare manager task before with ⟨_ | analysed, prepared⟩
  · rw [carryOut_refused preparing] at run
    cases run
  · rw [carryOut_prepared preparing] at run
    by_cases clean : prepared.Clean
    · rw [deliver_clean analysed clean] at run
      exact ⟨analysed, prepared, rfl, clean, (Prod.mk.inj run).2⟩
    · rw [deliver_grave analysed clean] at run
      cases run

theorem clean_iff (session : Session σ) :
    session.Clean ↔ ∀ diagnostic ∈ session.delivered, diagnostic.severity ≠ .error := by
  simp [Clean, errors, Diagnostic.count, List.countP_eq_zero]

theorem compile_succeeded_iff (manager : FileManager σ) (task : CompilationTask) (files : σ) :
    (compile manager task files).1.succeeded = true ↔
      ∀ diagnostic ∈ (compile manager task files).1.diagnostics, diagnostic.severity ≠ .error := by
  have verdict := carryOut_run (run_eta (carryOut manager task) (.start files))
  exact verdict.trans (clean_iff _)

/-- What a watched task asks for after it is prepared: nothing if there was an error, and else that
every image is written. -/
theorem carryOut_outputs {task : CompilationTask}
    {before prepared : Session (σ × List FileRequest)}
    {found : Option (List (SourceUnit × List UnitImage))}
    (preparing : prepare manager.watched task before = (found, prepared)) :
    (¬prepared.Clean →
      (carryOut manager.watched task before).2.files.2 = prepared.files.2) ∧
    (prepared.Clean → ∃ analysed, found = some analysed ∧
      List.Forall₂ (fun unit answer =>
        answer.1 = unit ∧ Nonempty (Analysed manager.watched unit answer.2 prepared))
        task.units analysed ∧
      ∃ requests, EmitsAll (placed analysed) requests ∧
        (carryOut manager.watched task before).2.files.2 =
          prepared.files.2 ++ requests ++ [.flush] ∧
        ((carryOut manager.watched task before).1 = true →
          requests = (placed analysed).flatMap fun (unit, image) => emission unit image)) := by
  have run := run_eta (carryOut manager.watched task) before
  have verdict := carryOut_run run
  generalize (carryOut manager.watched task before).1 = succeeded at run verdict ⊢
  generalize (carryOut manager.watched task before).2 = after at run verdict ⊢
  constructor
  · intro reported
    cases found with
    | none =>
        rw [carryOut_refused preparing] at run
        cases run
        rfl
    | some analysed =>
        rw [carryOut_prepared preparing, deliver_grave analysed reported] at run
        cases run
        rfl
  · intro clean
    obtain ⟨analysed, rfl, all⟩ := prepare_run preparing clean
    refine ⟨analysed, rfl, all, ?_⟩
    rw [carryOut_prepared preparing, deliver_clean analysed clean] at run
    cases run
    obtain ⟨requests, emits, asked, whole⟩ :=
      emitAll_run (run_eta (emitAll manager.watched analysed) prepared)
    exact ⟨requests, emits, asked, fun succeeded => whole (verdict.mp succeeded)⟩

/-- A compilation fails just where an error is delivered, whatever the file manager does. Whoever
watches the manager sees nothing but looks until all options are accepted and all units analysed. If
an error was delivered until then, there is nothing more to be seen. Otherwise every unit has an
image for each of its structs; an output is asked for once for each image, in the order of the units
and of the structs in them, and is given the bytes of the image; then the manager is told once that
the outputs are complete. A compilation that succeeds has written all of them. -/
theorem compile_reports (manager : FileManager σ) (task : CompilationTask) (files : σ) :
    ((compile manager task files).1.succeeded = false ↔
      ∃ diagnostic ∈ (compile manager task files).1.diagnostics, diagnostic.severity = .error) ∧
    ∃ found prepared, prepare manager.watched task (.start (files, [])) = (found, prepared) ∧
      (∀ request ∈ prepared.files.2, request.isLook = true) ∧
      ((∃ diagnostic ∈ prepared.delivered, diagnostic.severity = .error) →
        (compile manager.watched task (files, [])).2.2 = prepared.files.2) ∧
      ((∀ diagnostic ∈ prepared.delivered, diagnostic.severity ≠ .error) →
        ∃ analysed, found = some analysed ∧
          List.Forall₂ (fun unit (answer : SourceUnit × List UnitImage) => answer.1 = unit ∧
            answer.2.map UnitImage.name = structNames unit ∧
            Nonempty (Analysed manager.watched unit answer.2 prepared)) task.units analysed ∧
          ∃ requests, EmitsAll (placed analysed) requests ∧
            (compile manager.watched task (files, [])).2.2 =
              prepared.files.2 ++ requests ++ [.flush] ∧
            ((compile manager.watched task (files, [])).1.succeeded = true →
              requests = (placed analysed).flatMap fun (unit, image) => emission unit image)) := by
  constructor
  · have verdict := carryOut_run (run_eta (carryOut manager task) (.start files))
    change (carryOut manager task (.start files)).1 = false ↔
      ∃ diagnostic ∈ (carryOut manager task (.start files)).2.delivered, _
    rw [← Bool.not_eq_true, verdict, clean_iff]
    push Not
    rfl
  · rcases preparing : prepare manager.watched task (.start (files, [])) with ⟨found, prepared⟩
    obtain ⟨fails, writes⟩ := carryOut_outputs preparing
    obtain ⟨requests, same, looks⟩ := prepare_looks preparing
    refine ⟨found, prepared, rfl, ?_, ?_, ?_⟩
    · rw [same]
      exact looks
    · intro ⟨diagnostic, member, grave⟩
      exact fails fun clean => (clean_iff prepared).mp clean diagnostic member grave
    · intro none
      obtain ⟨analysed, rfl, all, outputs⟩ := writes ((clean_iff prepared).mpr none)
      refine ⟨analysed, rfl, all.imp ?_, outputs⟩
      intro unit answer ⟨same, ⟨analysed⟩⟩
      exact ⟨same, analysed.structNames_eq, ⟨analysed⟩⟩

end UnitCompiler

end UnitForge
