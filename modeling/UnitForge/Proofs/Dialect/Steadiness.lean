import UnitForge.Proofs.Dialect.Agreement
import Mathlib

/-! # Sessions over files that stay as they are

As long as no look changes the files, the class path gives the same answer whenever it is asked,
and a session that remembers its answers differs from one that does not only in what was reported
when a unit was first asked for. What a step gives, what it reports apart from that and which units
it asks for therefore do not depend on what came before. Steps may then be taken in any order: they
give the same answers, and the sessions at the end have delivered the same diagnostics. -/
set_option autoImplicit false
namespace UnitForge

open Source Step

variable {σ : Type}

def FileManager.Still (manager : FileManager σ) (files : σ) : Prop :=
  ∀ after, manager.Looks files after → after = files

/-- What the class path answers, and what is delivered when the file of a unit is read. -/
structure ClassPathAnswers (manager : FileManager σ) (files : σ) (policy : WarningPolicy) where
  unit : String → Option UnitImage
  told : String → List Diagnostic
  names : String → List String
  readUnit : ∀ name (session : Session σ), session.files = files → session.policy = policy →
    Session.readUnit manager name session =
      (unit name, { session with delivered := session.delivered ++ told name })
  listPackage : ∀ package (session : Session σ), session.files = files →
    Session.listPackage manager package session = (names package, session)

namespace Session

variable {manager : FileManager σ} {files : σ} {policy : WarningPolicy}

theorem ask_still {α : Type} {query : FileQuery σ α} (still : manager.Still files)
    (looks : manager.Looks files (query files).2) {session : Session σ}
    (same : session.files = files) : ask query session = ((query files).1, session) := by
  subst same
  have unchanged := still _ looks
  change ((query session.files).1, { session with files := (query session.files).2 }) = _
  rw [unchanged]

theorem onFiles_still {α : Type} {op : FileOp σ α} (still : manager.Still files)
    (looks : manager.Looks files (op files).2) {session : Session σ}
    (same : session.files = files) : onFiles op session = ((op files).1, session) :=
  ask_still still looks same

theorem readUnit_still (still : manager.Still files) (policy : WarningPolicy) (name : String) :
    ∃ image told, ∀ session : Session σ, session.files = files → session.policy = policy →
      readUnit manager name session =
        (image, { session with delivered := session.delivered ++ told }) := by
  have quiet (session : Session σ) :
      session = { session with delivered := session.delivered ++ [] } := by
    rw [List.append_nil]
  have opens {session : Session σ} (same : session.files = files) :
      onFiles (manager.input .classPath name .unit) session =
        ((manager.input .classPath name .unit files).1, session) :=
    onFiles_still still (.input ..) same
  have unreadable (file : FileObject) (error : Error) : ∃ image told, ∀ session : Session σ,
      session.files = files → session.policy = policy →
        readUnit.unreadable name file error session =
          (image, { session with delivered := session.delivered ++ told }) :=
    ⟨none, (policy.apply ((Problem.invalidUnitFile name error.message).diagnostic
      (some file.uri) none)).toList, fun session _ same => by rw [← same]; rfl⟩
  rcases found : (manager.input .classPath name .unit files).1 with fault | _ | file
  · refine ⟨none, [], ?_⟩
    intro session same _
    rw [readUnit, bind_of_run (opens same), found, ← quiet]
    rfl
  · refine ⟨none, [], ?_⟩
    intro session same _
    rw [readUnit, bind_of_run (opens same), found, ← quiet]
    rfl
  · have reads {session : Session σ} (same : session.files = files) :
        onFiles (manager.read file) session = ((manager.read file files).1, session) :=
      onFiles_still still (.read ..) same
    rcases content : (manager.read file files).1 with fault | bytes
    · obtain ⟨image, told, run⟩ := unreadable file (.file fault)
      refine ⟨image, told, ?_⟩
      intro session same under
      rw [readUnit, bind_of_run (opens same), found, ← run session same under]
      simp only [bind_of_run (reads same), content]
    · rcases decoded : UnitImage.decode name bytes with fault | image
      · obtain ⟨image, told, run⟩ := unreadable file (.malformedArtifact name fault)
        refine ⟨image, told, ?_⟩
        intro session same under
        rw [readUnit, bind_of_run (opens same), found, ← run session same under]
        simp only [bind_of_run (reads same), content, decoded]
      · refine ⟨some image, [], ?_⟩
        intro session same _
        rw [readUnit, bind_of_run (opens same), found, ← quiet]
        simp only [bind_of_run (reads same), content, decoded]
        rfl

theorem filterMapM_still (still : manager.Still files) {session : Session σ}
    (same : session.files = files) (entries : List FileObject) :
    entries.filterMapM (fun file => ask (manager.nameOf .classPath file)) session =
      (entries.filterMap (manager.inferName? files .classPath), session) := by
  induction entries with
  | nil => rfl
  | cons file rest ih =>
      have named : ask (manager.nameOf .classPath file) session =
          (manager.inferName? files .classPath file, session) :=
        ask_still still (.name ..) same
      rw [filterMapM_cons_run, named, ih, List.filterMap_cons]
      cases manager.inferName? files .classPath file with
      | none => rfl
      | some name => rfl

theorem listPackage_still (still : manager.Still files) (package : String) :
    ∃ names, ∀ session : Session σ, session.files = files →
      listPackage manager package session = (names, session) := by
  have lists {session : Session σ} (same : session.files = files) :
      onFiles (manager.list .classPath package [.unit] false) session =
        ((manager.list .classPath package [.unit] false files).1, session) :=
    onFiles_still still (.list ..) same
  rcases found : (manager.list .classPath package [.unit] false files).1 with fault | entries
  · refine ⟨[], ?_⟩
    intro session same
    rw [listPackage, bind_of_run (lists same), found]
    rfl
  · refine ⟨entries.filterMap (manager.inferName? files .classPath), ?_⟩
    intro session same
    rw [listPackage, bind_of_run (lists same), found]
    exact filterMapM_still still same entries

end Session

theorem ClassPathAnswers.exist {manager : FileManager σ} {files : σ}
    (still : manager.Still files) (policy : WarningPolicy) :
    Nonempty (ClassPathAnswers manager files policy) := by
  choose unit told reads using Session.readUnit_still still policy
  choose names lists using Session.listPackage_still still
  exact ⟨{ unit, told, names, readUnit := reads, listPackage := lists }⟩

/-! ## What a step adds -/

namespace Session

variable {manager : FileManager σ}

theorem mem_keys_iff {α : Type} {known : List (String × α)} {name : String} :
    name ∈ known.map Prod.fst ↔ (known.lookup name).isSome = true := by
  induction known with
  | nil => simp
  | cons entry rest ih =>
      obtain ⟨key, value⟩ := entry
      rw [List.map_cons, List.mem_cons, List.lookup_cons, ih]
      by_cases same : name = key
      · simp [same]
      · simp [same, beq_false_of_ne same]

theorem lookup_append_one {α : Type} {known : List (String × α)} {name key : String}
    {value found : α} (looked : (known ++ [(name, value)]).lookup key = some found) :
    known.lookup key = some found ∨ (key = name ∧ found = value) := by
  rw [List.lookup_append] at looked
  cases old : known.lookup key with
  | some earlier =>
      rw [old, Option.some_or] at looked
      exact .inl looked
  | none =>
      rw [old, Option.none_or, List.lookup_cons] at looked
      by_cases same : key = name
      · simp only [same, beq_self_eq_true, Option.some.injEq] at looked
        exact .inr ⟨same, looked.symm⟩
      · simp [beq_false_of_ne same] at looked

theorem classPathUnit_known {name : String} {found : Option UnitImage} {session : Session σ}
    (known : session.units.lookup name = some found) :
    classPathUnit manager name session = (found, session) := by
  unfold classPathUnit
  rw [bind_of_run (rfl : (get : Check σ (Session σ)) session = (session, session)), known]
  rfl

theorem classPathUnit_fresh {name : String} {found : Option UnitImage} {session after : Session σ}
    (fresh : session.units.lookup name = none)
    (read : readUnit manager name session = (found, after)) :
    classPathUnit manager name session =
      (found, { after with units := after.units ++ [(name, found)] }) := by
  unfold classPathUnit
  rw [bind_of_run (rfl : (get : Check σ (Session σ)) session = (session, session)), fresh]
  exact bind_of_run read

theorem packageContains_known {package simple : String} {names : List String} {session : Session σ}
    (known : session.packages.lookup package = some names) :
    packageContains manager package simple session =
      (names.contains (Name.qualify package simple), session) := by
  unfold packageContains
  rw [bind_of_run (rfl : (get : Check σ (Session σ)) session = (session, session)), known]
  rfl

theorem packageContains_fresh {package simple : String} {names : List String}
    {session after : Session σ} (fresh : session.packages.lookup package = none)
    (listed : listPackage manager package session = (names, after)) :
    packageContains manager package simple session =
      (names.contains (Name.qualify package simple),
        { after with packages := after.packages ++ [(package, names)] }) := by
  unfold packageContains
  rw [bind_of_run (rfl : (get : Check σ (Session σ)) session = (session, session)), fresh]
  exact bind_of_run listed

end Session

/-- What a step adds to a session: how often it delivers each diagnostic, otherwise than on reading
the file of a unit, and the units that it asks for. -/
@[ext]
structure Session.Effect where
  told : Diagnostic → ℤ
  asks : Set String

namespace Session.Effect

instance : Add Effect := ⟨fun a b => ⟨a.told + b.told, a.asks ∪ b.asks⟩⟩

instance : Zero Effect := ⟨⟨0, ∅⟩⟩

@[simp] theorem told_add (a b : Effect) : (a + b).told = a.told + b.told := rfl

@[simp] theorem asks_add (a b : Effect) : (a + b).asks = a.asks ∪ b.asks := rfl

@[simp] theorem told_zero : (0 : Effect).told = 0 := rfl

@[simp] theorem asks_zero : (0 : Effect).asks = ∅ := rfl

instance : AddCommMonoid Effect where
  add_assoc _ _ _ := Effect.ext (add_assoc _ _ _) (Set.union_assoc _ _ _)
  zero_add _ := Effect.ext (zero_add _) (Set.empty_union _)
  add_zero _ := Effect.ext (add_zero _) (Set.union_empty _)
  add_comm _ _ := Effect.ext (add_comm _ _) (Set.union_comm _ _)
  nsmul := nsmulRec

end Session.Effect

section Steady
variable {manager : FileManager σ} {files : σ} {policy : WarningPolicy}
  (answers : ClassPathAnswers manager files policy)

namespace Session

/-- A session that remembers nothing but answers of the class path, each once. -/
structure Ready (session : Session σ) : Prop where
  files : session.files = files
  policy : session.policy = policy
  units : ∀ name found, session.units.lookup name = some found → found = answers.unit name
  packages : ∀ package names, session.packages.lookup package = some names →
    names = answers.names package
  distinct : (session.units.map Prod.fst).Nodup

def track (session : Session σ) : Effect where
  told diagnostic := session.delivered.count diagnostic -
    ((session.units.map Prod.fst).flatMap answers.told).count diagnostic
  asks := { name | name ∈ session.units.map Prod.fst }

def origin (_ : ClassPathAnswers manager files policy) : Session σ :=
  { files, policy, delivered := [], units := [], packages := [] }

theorem origin_ready : (origin answers).Ready answers :=
  ⟨rfl, rfl, nofun, nofun, List.nodup_nil⟩

theorem origin_track : (origin answers).track answers = 0 := by
  ext <;> simp [track, origin]

theorem Ready.perm_of_track {session other : Session σ} (ready : session.Ready answers)
    (there : other.Ready answers) (same : session.track answers = other.track answers) :
    session.delivered.Perm other.delivered := by
  have asked : (session.units.map Prod.fst).Perm (other.units.map Prod.fst) := by
    apply (List.perm_ext_iff_of_nodup ready.distinct there.distinct).mpr
    intro name
    exact Set.ext_iff.mp (congrArg Effect.asks same) name
  apply List.perm_iff_count.mpr
  intro diagnostic
  have told := congrFun (congrArg Effect.told same) diagnostic
  have read := (asked.flatMap_right answers.told).count_eq diagnostic
  simp only [track] at told
  omega

end Session

open Session

/-- Whatever came before, the step gives the same value and adds the same. -/
def Steady {α : Type} (step : Check σ α) (value : α) (effect : Effect) : Prop :=
  ∀ session : Session σ, session.Ready answers → (step session).1 = value ∧
    (step session).2.Ready answers ∧
    (step session).2.track answers = session.track answers + effect

namespace Steady

variable {answers} {α β : Type}

theorem pure (value : α) : Steady answers (Pure.pure value) value 0 :=
  fun _ ready => ⟨rfl, ready, (add_zero _).symm⟩

theorem bind {step : Check σ α} {next : α → Check σ β} {value : α} {result : β}
    {effect more : Effect} (first : Steady answers step value effect)
    (rest : Steady answers (next value) result more) :
    Steady answers (step >>= next) result (effect + more) := by
  intro session ready
  obtain ⟨same, middle, tracked⟩ := first session ready
  obtain ⟨given, after, added⟩ := rest _ middle
  change (next (step session).1 (step session).2).1 = _ ∧
    (next (step session).1 (step session).2).2.Ready answers ∧
    (next (step session).1 (step session).2).2.track answers = _
  rw [same]
  exact ⟨given, after, by rw [added, tracked, add_assoc]⟩

theorem report (diagnostic : Diagnostic) :
    Steady answers (report diagnostic) ()
      ⟨fun other => (policy.apply diagnostic).toList.count other, ∅⟩ := by
  intro session ready
  have delivered : (Session.report diagnostic session).2.delivered =
      session.delivered ++ (policy.apply diagnostic).toList := by
    rw [← ready.policy]
    rfl
  have units : (Session.report diagnostic session).2.units = session.units := rfl
  refine ⟨rfl, { ready with }, ?_⟩
  ext other
  · simp only [track, Effect.told_add, Pi.add_apply, delivered, units, List.count_append]
    omega
  · simp only [track, Effect.asks_add, units, Set.union_empty]

theorem classPathUnit (name : String) :
    Steady answers (classPathUnit manager name) (answers.unit name) ⟨0, {name}⟩ := by
  intro session ready
  cases known : session.units.lookup name with
  | some found =>
      have member : name ∈ session.units.map Prod.fst := by
        rw [mem_keys_iff, known]
        rfl
      rw [classPathUnit_known known]
      refine ⟨ready.units name found known, ready, ?_⟩
      ext other
      · simp
      · simp only [track, Effect.asks_add, Set.mem_union, Set.mem_singleton_iff, Set.mem_ofPred_eq]
        constructor
        · exact .inl
        · rintro (asked | rfl)
          · exact asked
          · exact member
  | none =>
      have read := answers.readUnit name session ready.files ready.policy
      have fresh : name ∉ session.units.map Prod.fst := by
        rw [mem_keys_iff, known]
        exact Bool.false_ne_true
      rw [classPathUnit_fresh known read]
      refine ⟨rfl, { ready with units := ?_, distinct := ?_ }, ?_⟩
      · intro key found looked
        rcases lookup_append_one looked with old | ⟨rfl, rfl⟩
        · exact ready.units key found old
        · rfl
      · rw [List.map_append, List.nodup_append]
        refine ⟨ready.distinct, List.pairwise_singleton _ _, ?_⟩
        rintro key old _ new rfl
        rw [List.mem_singleton.mp new] at old
        exact fresh old
      ext other
      · simp only [track, List.map_append, List.map_cons, List.map_nil, List.flatMap_append,
          List.flatMap_singleton, List.count_append, Effect.told_add, Pi.add_apply, Pi.zero_apply]
        omega
      · simp [track, or_comm]

theorem packageContains (package simple : String) :
    Steady answers (packageContains manager package simple)
      ((answers.names package).contains (Name.qualify package simple)) 0 := by
  intro session ready
  cases known : session.packages.lookup package with
  | some names =>
      rw [packageContains_known known, ready.packages package names known, add_zero]
      exact ⟨rfl, ready, rfl⟩
  | none =>
      rw [packageContains_fresh known (answers.listPackage package session ready.files), add_zero]
      refine ⟨rfl, { ready with packages := fun key names looked => ?_ }, rfl⟩
      rcases lookup_append_one looked with old | ⟨rfl, rfl⟩
      · exact ready.packages key names old
      · rfl

theorem mapM {f : α → Check σ β} {value : α → β} {effect : α → Effect}
    (each : ∀ item, Steady answers (f item) (value item) (effect item)) (items : List α) :
    Steady answers (items.mapM f) (items.map value) (items.map effect).sum := by
  induction items with
  | nil => exact pure []
  | cons first rest ih =>
      have others : Steady answers (do return value first :: (← rest.mapM f))
          (value first :: rest.map value) ((rest.map effect).sum + 0) :=
        ih.bind (pure _)
      rw [add_zero] at others
      rw [List.mapM_cons, List.map_cons, List.map_cons, List.sum_cons]
      exact (each first).bind others

theorem forM {f : α → Check σ PUnit} {effect : α → Effect}
    (each : ∀ item, Steady answers (f item) ⟨⟩ (effect item)) (items : List α) :
    Steady answers (items.forM f) ⟨⟩ (items.map effect).sum := by
  induction items with
  | nil => exact pure PUnit.unit
  | cons first rest ih =>
      rw [List.map_cons, List.sum_cons]
      exact (each first).bind ih

end Steady

/-! ## Steps that are alike wherever they are taken -/

namespace Session

/-- Two sessions to which different things have been added. -/
structure Apart (here there : Effect) (session other : Session σ) : Prop where
  ready : session.Ready answers
  ready' : other.Ready answers
  track : session.track answers + here = other.track answers + there

theorem apart_of_steady {α : Type} {here there : Effect} {step : Check σ α} {value : α}
    {effect : Effect} (steady : Steady answers step value effect) :
    Alike (Apart answers here there) step step := by
  intro s t apart
  obtain ⟨same, ready, tracked⟩ := steady s apart.ready
  obtain ⟨same', ready', tracked'⟩ := steady t apart.ready'
  refine ⟨same.trans same'.symm, ready, ready', ?_⟩
  rw [tracked, tracked', add_right_comm, apart.track, add_right_comm]

theorem agreement_apart (here there : Effect) :
    Agreement id (Apart answers here there) manager manager where
  nowhere := rfl
  report diagnostic := by
    rw [Diagnostic.relocate_id]
    exact apart_of_steady answers (.report diagnostic)
  classPathUnit name := apart_of_steady answers (.classPathUnit name)
  packageContains package simple := apart_of_steady answers (.packageContains package simple)

theorem steady_of_alike {α : Type} {step other : Check σ α}
    (alike : ∀ here there, Alike (Apart answers here there) step other) :
    ∃ value effect, Steady answers step value effect ∧ Steady answers other value effect := by
  have start := origin_ready answers
  have none := origin_track answers
  have ⟨same, reached⟩ := alike 0 0 (origin answers) (origin answers) ⟨start, start, rfl⟩
  have tracked := reached.track
  rw [add_zero, add_zero] at tracked
  refine ⟨(step (origin answers)).1, (step (origin answers)).2.track answers, ?_, ?_⟩
  · intro session ready
    have apart : Apart answers 0 (session.track answers) session (origin answers) :=
      ⟨ready, start, by rw [none, add_zero, zero_add]⟩
    have ⟨given, after⟩ := alike _ _ _ _ apart
    refine ⟨given.trans same.symm, after.ready, ?_⟩
    rw [tracked, add_comm, ← after.track, add_zero]
  · intro session ready
    have apart : Apart answers (session.track answers) 0 (origin answers) session :=
      ⟨start, ready, by rw [none, add_zero, zero_add]⟩
    have ⟨given, after⟩ := alike _ _ _ _ apart
    refine ⟨given.symm, after.ready', ?_⟩
    rw [add_comm, after.track, add_zero]

end Session

/-- Whatever came before, two steps give values that are related and add the same. -/
def Balanced {α β : Type} (Q : α → β → Prop) (step : Check σ α) (other : Check σ β) : Prop :=
  ∃ value image effect, Q value image ∧ Steady answers step value effect ∧
    Steady answers other image effect

namespace Balanced

variable {answers} {α α' β β' : Type} {Q : α → α' → Prop}

theorem pure {value : α} {image : α'} (holds : Q value image) :
    Balanced answers Q (Pure.pure value) (Pure.pure image) :=
  ⟨value, image, 0, holds, .pure value, .pure image⟩

theorem bind {Q' : β → β' → Prop} {step : Check σ β} {other : Check σ β'} {next : β → Check σ α}
    {next' : β' → Check σ α'} (first : Balanced answers Q' step other)
    (rest : ∀ value image, Q' value image → Balanced answers Q (next value) (next' image)) :
    Balanced answers Q (step >>= next) (other >>= next') := by
  obtain ⟨value, image, effect, holds, here, there⟩ := first
  obtain ⟨result, result', more, related, later, later'⟩ := rest value image holds
  exact ⟨result, result', effect + more, related, here.bind later, there.bind later'⟩

/-- What holds of the value of the first step in every run can be relied upon. -/
theorem and_run {P : α → Prop} {step : Check σ α} {other : Check σ α'}
    (balanced : Balanced answers Q step other) (runs : ∀ session, P (step session).1) :
    Balanced answers (fun value image => P value ∧ Q value image) step other := by
  obtain ⟨value, image, effect, holds, here, there⟩ := balanced
  have given := runs (origin answers)
  rw [(here _ (origin_ready answers)).1] at given
  exact ⟨value, image, effect, ⟨given, holds⟩, here, there⟩

theorem mapM_perm {f f' : β → Check σ α} {items items' : List β} (perm : items.Perm items')
    (alike : ∀ item here there, Alike (Apart answers here there) (f item) (f' item)) :
    Balanced answers List.Perm (items.mapM f) (items'.mapM f') := by
  choose value effect first second using fun item => steady_of_alike answers (alike item)
  refine ⟨_, _, _, perm.map value, .mapM first items, ?_⟩
  rw [(perm.map effect).sum_eq]
  exact .mapM second items'

theorem forM_perm {f f' : β → Check σ PUnit} {items items' : List β} (perm : items.Perm items')
    (alike : ∀ item here there, Alike (Apart answers here there) (f item) (f' item)) :
    Balanced answers Eq (items.forM f) (items'.forM f') := by
  choose _ effect first second using fun item => steady_of_alike answers (alike item)
  refine ⟨_, _, _, rfl, .forM first items, ?_⟩
  rw [(perm.map effect).sum_eq]
  exact .forM second items'

theorem run {step : Check σ α} {other : Check σ α'} (balanced : Balanced answers Q step other)
    {session : Session σ} (ready : session.Ready answers) :
    Q (step session).1 (other session).1 ∧
      (step session).2.delivered.Perm (other session).2.delivered := by
  obtain ⟨value, image, effect, holds, here, there⟩ := balanced
  obtain ⟨same, after, tracked⟩ := here session ready
  obtain ⟨same', after', tracked'⟩ := there session ready
  rw [same, same']
  exact ⟨holds, after.perm_of_track answers after' (tracked.trans tracked'.symm)⟩

end Balanced

end Steady

end UnitForge
