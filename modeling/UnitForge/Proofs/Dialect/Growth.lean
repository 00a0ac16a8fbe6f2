import UnitForge.Dialect.Session
import UnitForge.Proofs.Image.RoundTrip
import UnitForge.Proofs.Steps
import Mathlib.Logic.Relation

/-! # Growing sessions

Whatever an analysis does to its session, it only looks at files, delivers more diagnostics, and
remembers more of the class path: an answer once given is the answer for good. Whether a session is
free of errors is therefore decided at its end, and what was found out on the way can be read off
there. -/
set_option autoImplicit false
namespace UnitForge

variable {σ : Type}

/-- What one question or one look at the files does to the state of a manager. -/
inductive FileManager.Looks (manager : FileManager σ) : σ → σ → Prop
  | arity (option : String) (files : σ) : Looks manager files (manager.arityOf option files).2
  | list (location : Location) (package : String) (kinds : List ArtifactKind) (recurse : Bool)
      (files : σ) : Looks manager files (manager.list location package kinds recurse files).2
  | input (location : Location) (name : String) (kind : ArtifactKind) (files : σ) :
      Looks manager files (manager.input location name kind files).2
  | read (file : FileObject) (files : σ) : Looks manager files (manager.read file files).2
  | name (location : Location) (file : FileObject) (files : σ) :
      Looks manager files (manager.nameOf location file files).2

namespace Session

def Clean (session : Session σ) : Prop := session.errors = 0

def WellNamed (session : Session σ) : Prop :=
  ∀ name image, session.units.lookup name = some (some image) → image.name = name

/-- A later state of a session, with nothing but looks at the files and reports in between. -/
structure Asks (manager : FileManager σ) (before after : Session σ) : Prop where
  files : Relation.ReflTransGen manager.Looks before.files after.files
  policy : after.policy = before.policy
  delivered : before.delivered <+: after.delivered
  units : after.units = before.units
  packages : after.packages = before.packages

/-- A later state of a session, in which more of the class path may be remembered. -/
structure Extends (manager : FileManager σ) (before after : Session σ) : Prop where
  files : Relation.ReflTransGen manager.Looks before.files after.files
  policy : after.policy = before.policy
  delivered : before.delivered <+: after.delivered
  units : ∀ name answer, before.units.lookup name = some answer →
    after.units.lookup name = some answer
  packages : ∀ package names, before.packages.lookup package = some names →
    after.packages.lookup package = some names
  wellNamed : before.WellNamed → after.WellNamed

variable {manager : FileManager σ}

instance : IsPreorder (Session σ) (Asks manager) where
  refl _ := ⟨.refl, rfl, List.prefix_rfl, rfl, rfl⟩
  trans _ _ _ h k := ⟨h.files.trans k.files, k.policy.trans h.policy,
    h.delivered.trans k.delivered, k.units.trans h.units, k.packages.trans h.packages⟩

theorem Asks.extends {before after : Session σ} (asks : before.Asks manager after) :
    before.Extends manager after where
  files := asks.files
  policy := asks.policy
  delivered := asks.delivered
  units _ _ found := by rwa [asks.units]
  packages _ _ found := by rwa [asks.packages]
  wellNamed named := by simpa only [WellNamed, asks.units] using named

theorem Extends.refl (session : Session σ) : session.Extends manager session :=
  Asks.extends (Std.Refl.refl session)

theorem Extends.trans {first second third : Session σ} (h : first.Extends manager second)
    (k : second.Extends manager third) : first.Extends manager third where
  files := h.files.trans k.files
  policy := k.policy.trans h.policy
  delivered := h.delivered.trans k.delivered
  units _ _ found := k.units _ _ (h.units _ _ found)
  packages _ _ found := k.packages _ _ (h.packages _ _ found)
  wellNamed named := k.wellNamed (h.wellNamed named)

instance : IsPreorder (Session σ) (Extends manager) where
  refl := Extends.refl
  trans _ _ _ := Extends.trans

theorem Extends.errors_le {before after : Session σ} (grown : before.Extends manager after) :
    before.errors ≤ after.errors :=
  grown.delivered.sublist.countP_le

theorem Extends.clean {before after : Session σ} (grown : before.Extends manager after)
    (clean : after.Clean) : before.Clean :=
  Nat.eq_zero_of_le_zero (clean ▸ grown.errors_le)

end Session

abbrev Check.Extends (manager : FileManager σ) {α : Type} (step : Check σ α) : Prop :=
  Step.Within (Session.Extends manager) step

namespace Session

variable {manager : FileManager σ}

open Step

/-! ## Reports -/

theorem report_asks (diagnostic : Diagnostic) :
    Within (Asks manager) (report (σ := σ) diagnostic) :=
  fun _ => ⟨.refl, rfl, List.prefix_append .., rfl, rfl⟩

theorem complain_extends (uri : String) (pos : Position) (problem : Problem) :
    Check.Extends manager (complain (σ := σ) uri pos problem) :=
  fun before => (report_asks _ before).extends

theorem errors_report {diagnostic : Diagnostic} (grave : diagnostic.severity = .error)
    (before : Session σ) : (report diagnostic before).2.errors = before.errors + 1 := by
  have passes : before.policy.apply diagnostic = some diagnostic := by
    simp [WarningPolicy.apply, grave]
  change Diagnostic.count .error (before.delivered ++ _) = _
  simp [passes, Diagnostic.count, grave, errors]

theorem not_clean_report {diagnostic : Diagnostic} (grave : diagnostic.severity = .error)
    (before : Session σ) : ¬(report diagnostic before).2.Clean := by
  simp [Clean, errors_report grave]

theorem not_clean_complain {uri : String} {pos : Position} {problem : Problem}
    (grave : problem.severity = .error) (before : Session σ) :
    ¬(complain uri pos problem before).2.Clean :=
  not_clean_report grave before

/-! ## The class path -/

theorem onFiles_run {α : Type} {op : FileOp σ α} {before after : Session σ}
    {answer : Except FileError α} (run : onFiles op before = (answer, after)) :
    op before.files = (answer, after.files) ∧ after = { before with files := after.files } := by
  cases run
  exact ⟨rfl, rfl⟩

theorem onFiles_asks {α : Type} {op : FileOp σ α}
    (looks : ∀ files, manager.Looks files (op files).2) :
    Within (Asks manager) (onFiles op) :=
  fun before => ⟨.single (looks before.files), rfl, List.prefix_rfl, rfl, rfl⟩

theorem ask_asks {α : Type} {query : FileQuery σ α}
    (looks : ∀ files, manager.Looks files (query files).2) :
    Within (Asks manager) (ask query) :=
  fun before => ⟨.single (looks before.files), rfl, List.prefix_rfl, rfl, rfl⟩

theorem readUnit_asks (name : String) : Within (Asks manager) (readUnit manager name) := by
  apply (onFiles_asks fun files => .input ..).bind
  intro found
  have unreadable (file : FileObject) (error : Error) :
      Within (Asks manager) (readUnit.unreadable (σ := σ) name file error) :=
    .bind (report_asks _) fun _ => .pure _
  split
  · apply (onFiles_asks fun files => .read ..).bind
    intro bytes
    split
    · split
      · exact .pure _
      · exact unreadable _ _
    · exact unreadable _ _
  · exact .pure _

theorem readUnit_name {name : String} {image : UnitImage} {before after : Session σ}
    (run : readUnit manager name before = (some image, after)) : image.name = name := by
  obtain ⟨found, opened, -, run⟩ := bind_run run
  rcases found with fault | _ | file
  · cases run
  · cases run
  · obtain ⟨read, closed, -, run⟩ := bind_run run
    rcases read with fault | bytes
    · cases run
    · cases decoded : UnitImage.decode name bytes with
      | error fault => simp only [decoded] at run; cases run
      | ok found =>
          simp only [decoded] at run
          cases run
          exact UnitImage.name_of_decode decoded

theorem lookup_append_single {α : Type} {known : List (String × α)} {name : String}
    (fresh : known.lookup name = none) (value : α) :
    (known ++ [(name, value)]).lookup name = some value := by
  simp [List.lookup_append, fresh]

theorem classPathUnit_run {name : String} {answer : Option UnitImage} {before after : Session σ}
    (run : classPathUnit manager name before = (answer, after)) :
    before.Extends manager after ∧ after.units.lookup name = some answer := by
  obtain ⟨current, same, state, run⟩ := bind_run run
  cases state
  cases found : before.units.lookup name with
  | some known =>
      simp only [found] at run
      cases run
      exact ⟨.refl _, found⟩
  | none =>
      simp only [found] at run
      obtain ⟨image, middle, read, run⟩ := bind_run run
      cases run
      have asks : before.Asks manager middle := (readUnit_asks name).of_run read
      have fresh : middle.units.lookup name = none := by rwa [asks.units]
      refine ⟨asks.extends.trans { (.refl middle : middle.Extends manager middle) with
        units := fun key answer known => ?_
        wellNamed := fun named key image known => ?_ }, lookup_append_single fresh _⟩
      · simp [List.lookup_append, known]
      · rw [List.lookup_append] at known
        cases old : middle.units.lookup key with
        | some answer =>
            apply named key image
            rw [old] at known ⊢
            exact known
        | none =>
            simp only [old, Option.none_or, List.lookup_cons, List.lookup_nil] at known
            split at known
            · rename_i same
              cases known
              rw [beq_iff_eq.mp same]
              exact readUnit_name read
            · cases known

theorem classPathUnit_extends (name : String) :
    Check.Extends manager (classPathUnit manager name) :=
  fun _ => (classPathUnit_run rfl).1

theorem listPackage_asks (package : String) :
    Within (Asks manager) (listPackage manager package) := by
  apply (onFiles_asks fun files => .list ..).bind
  intro found
  split
  · exact .filterMapM (fun file => ask_asks fun files => .name ..) _
  · exact .pure _

theorem packageContains_run {package simple : String} {answer : Bool} {before after : Session σ}
    (run : packageContains manager package simple before = (answer, after)) :
    before.Extends manager after ∧ ∃ names, after.packages.lookup package = some names ∧
      answer = names.contains (Name.qualify package simple) := by
  obtain ⟨current, same, state, run⟩ := bind_run run
  cases state
  cases found : before.packages.lookup package with
  | some names =>
      simp only [found] at run
      cases run
      exact ⟨.refl _, names, found, rfl⟩
  | none =>
      simp only [found] at run
      obtain ⟨names, middle, read, run⟩ := bind_run run
      cases run
      have asks : before.Asks manager middle := (listPackage_asks package).of_run read
      have fresh : middle.packages.lookup package = none := by rwa [asks.packages]
      refine ⟨asks.extends.trans { (.refl middle : middle.Extends manager middle) with
        packages := fun key answer known => ?_ }, names, lookup_append_single fresh _, rfl⟩
      simp [List.lookup_append, known]

theorem packageContains_extends (package simple : String) :
    Check.Extends manager (packageContains manager package simple) :=
  fun _ => (packageContains_run rfl).1

end Session

end UnitForge
