import UnitForge.Proofs.Dialect.Composition
import UnitForge.Proofs.Dialect.Steadiness
import UnitForge.Proofs.Dialect.Telling
import UnitForge.Proofs.Files.Answers

/-! # Consultations of the class path

What is asked about the class path in the course of a step, in order and with the answers that are
given. The file manager is asked for each unit and for each package when it comes up first; whatever
it answered then, a failure or nothing as well as a file, is the answer to all later questions. The
file of a unit is therefore reported once at most. -/
set_option autoImplicit false
namespace UnitForge

open Step

variable {σ : Type}

/-! ## Questions -/

/-- A question about the class path with the answer that is given: the image of a unit, or whether a
package has a unit. -/
inductive Consultation where
  | unit (name : String) (answer : Option UnitImage)
  | member (package simple : String) (answer : Bool)

namespace Consultation

def isOfUnit (name : String) : Consultation → Bool
  | unit asked _ => asked = name
  | member .. => false

def isOfPackage (package : String) : Consultation → Bool
  | unit .. => false
  | member asked _ _ => asked = package

end Consultation

namespace FileAnswer

def unitFileReport (name : String) (file : FileObject) (error : Error) : Diagnostic :=
  (Problem.invalidUnitFile name error.message).diagnostic (some file.uri) none

/-- What the file of a unit is taken for after the answers of the file manager, and what is
reported. A failed search is taken for a missing file. -/
inductive Reads (name : String) : List (FileAnswer σ) → Option UnitImage → List Diagnostic → Prop
  | failed (fault : FileError) : Reads name [.input .classPath name (.error fault)] none []
  | absent : Reads name [.input .classPath name (.ok none)] none []
  | unreadable (file : FileObject) (fault : FileError) :
      Reads name [.input .classPath name (.ok (some file)), .read file (.error fault)] none
        [unitFileReport name file (.file fault)]
  | malformed (file : FileObject) {bytes : Bytes} {fault : Malformation}
      (decoded : UnitImage.decode name bytes = .error fault) :
      Reads name [.input .classPath name (.ok (some file)), .read file (.ok bytes)] none
        [unitFileReport name file (.malformedArtifact name fault)]
  | image (file : FileObject) {bytes : Bytes} {image : UnitImage}
      (decoded : UnitImage.decode name bytes = .ok image) :
      Reads name [.input .classPath name (.ok (some file)), .read file (.ok bytes)] (some image) []

variable {name : String} {looked : List (FileAnswer σ)} {answer : Option UnitImage}
  {told : List Diagnostic}

theorem Reads.countP_isOfUnit (reads : Reads name looked answer told) (key : String) :
    looked.countP (·.isOfUnit key) = if key = name then 1 else 0 := by
  cases reads <;> simp [List.countP_cons, isOfUnit, eq_comm]

theorem Reads.countP_isOfPackage (reads : Reads name looked answer told) (package : String) :
    looked.countP (·.isOfPackage package) = 0 := by
  cases reads <;> simp [isOfPackage]

theorem Reads.told_eq (reads : Reads name looked answer told) :
    told = [] ∨ ∃ file error, told = [unitFileReport name file error] ∧ answer = none := by
  cases reads with
  | failed | absent | image => exact .inl rfl
  | unreadable file fault => exact .inr ⟨file, _, rfl, rfl⟩
  | malformed file decoded => exact .inr ⟨file, _, rfl, rfl⟩

/-- On record are, one after the other, the answers to a look at the file of a unit, after which the
file is taken for something and something is reported. -/
def OnRecord (record : List (FileAnswer σ)) (name : String) (answer : Option UnitImage)
    (told : List Diagnostic) : Prop :=
  ∃ looked, looked <:+: record ∧ Reads name looked answer told

theorem OnRecord.append {record : List (FileAnswer σ)} (known : OnRecord record name answer told)
    (more : List (FileAnswer σ)) : OnRecord (record ++ more) name answer told := by
  obtain ⟨looked, within, reads⟩ := known
  exact ⟨looked, within.trans (List.infix_append' [] _ _), reads⟩

theorem Reads.onRecord (reads : Reads name looked answer told) (record : List (FileAnswer σ)) :
    OnRecord (record ++ looked) name answer told :=
  ⟨looked, (List.suffix_append _ _).isInfix, reads⟩

/-- The names of the units in the files that were found in a package, as they are given from the
state that the listing led to. -/
def namesIn (manager : FileManager σ) (found : Except FileError (List FileObject)) (files : σ) :
    List String :=
  match found with
  | .ok found => (found.filterMapM (manager.nameOf .classPath) files).1
  | .error _ => []

end FileAnswer

theorem WarningPolicy.code_of_mem_apply {policy : WarningPolicy} {diagnostic delivered : Diagnostic}
    (member : delivered ∈ (policy.apply diagnostic).toList) : delivered.code = diagnostic.code := by
  unfold apply at member
  split_ifs at member
  · cases member
  all_goals
    rw [Option.toList_some, List.mem_singleton] at member
    rw [member]

/-! ## Sessions -/

namespace Session

open FileManager

variable {manager : FileManager σ} {α β : Type}

/-- A later state of a session in which nothing was asked about the class path, and in between no
file of a unit was reported. -/
structure Elsewhere (before after : Session (σ × List (FileAnswer σ))) : Prop where
  record : after.files.2 = before.files.2
  units : after.units = before.units
  packages : after.packages = before.packages
  delivered : ∃ told, after.delivered = before.delivered ++ told ∧
    ∀ diagnostic ∈ told, diagnostic.code ≠ "E0786"

/-- The questions that a step asks about the class path when it is taken in a session. Plain steps
do not see what a session remembers, so a question that is answered from memory is a question as
well. -/
inductive Consults (manager : FileManager σ) : {α : Type} →
    Check (σ × List (FileAnswer σ)) α → Session (σ × List (FileAnswer σ)) →
    List Consultation → Prop
  | plain {α : Type} {step : Check (σ × List (FileAnswer σ)) α}
      (plain : Check.Plain manager.overheard step) (before : Session (σ × List (FileAnswer σ))) :
      Consults manager step before []
  | unit (name : String) (before : Session (σ × List (FileAnswer σ))) :
      Consults manager (classPathUnit manager.overheard name) before
        [.unit name (classPathUnit manager.overheard name before).1]
  | member (package simple : String) (before : Session (σ × List (FileAnswer σ))) :
      Consults manager (packageContains manager.overheard package simple) before
        [.member package simple (packageContains manager.overheard package simple before).1]
  | bind {α β : Type} {step : Check (σ × List (FileAnswer σ)) β}
      {next : β → Check (σ × List (FileAnswer σ)) α}
      {before : Session (σ × List (FileAnswer σ))} {earlier later : List Consultation}
      (first : Consults manager step before earlier)
      (rest : Consults manager (next (step before).1) (step before).2 later) :
      Consults manager (step >>= next) before (earlier ++ later)

def Knows (session : Session (σ × List (FileAnswer σ))) : Consultation → Prop
  | .unit name answer => session.units.lookup name = some answer
  | .member package simple answer => ∃ names, session.packages.lookup package = some names ∧
      answer = names.contains (Name.qualify package simple)

/-- What a session remembers, and every unit file that it reported, goes back to what is on record:
the file manager was asked once for all that is remembered, and for nothing else. -/
structure Accounted (manager : FileManager σ) (session : Session (σ × List (FileAnswer σ))) :
    Prop where
  units : ∀ name, session.files.2.countP (·.isOfUnit name) =
    (session.units.lookup name).isSome.toNat
  packages : ∀ package, session.files.2.countP (·.isOfPackage package) =
    (session.packages.lookup package).isSome.toNat
  reads : ∀ name answer, session.units.lookup name = some answer → ∃ told,
    FileAnswer.OnRecord session.files.2 name answer told ∧ told ⊆ session.delivered
  lists : ∀ package names, session.packages.lookup package = some names → ∃ found files,
    .list .classPath package found files ∈ session.files.2 ∧
      names = FileAnswer.namesIn manager found files
  reported : ∃ unreadable : List (String × Diagnostic), (unreadable.map Prod.fst).Nodup ∧
    session.delivered.filter (·.code = "E0786") = unreadable.map Prod.snd ∧
    ∀ entry ∈ unreadable, session.units.lookup entry.1 = some none ∧
      FileAnswer.OnRecord session.files.2 entry.1 none [entry.2]

structure Learns (before after : Session (σ × List (FileAnswer σ)))
    (consultations : List Consultation) : Prop where
  units : ∀ name answer, before.units.lookup name = some answer →
    after.units.lookup name = some answer
  packages : ∀ package names, before.packages.lookup package = some names →
    after.packages.lookup package = some names
  answered : ∀ consultation ∈ consultations, after.Knows consultation
  askedUnit : ∀ name, (after.units.lookup name).isSome = true →
    (before.units.lookup name).isSome = true ∨ consultations.any (·.isOfUnit name) = true
  askedPackage : ∀ package, (after.packages.lookup package).isSome = true →
    (before.packages.lookup package).isSome = true ∨
      consultations.any (·.isOfPackage package) = true

/-! ## Steps elsewhere -/

variable {before middle after : Session (σ × List (FileAnswer σ))}
  {consultations earlier later : List Consultation}

instance : IsPreorder (Session (σ × List (FileAnswer σ))) Elsewhere where
  refl _ := ⟨rfl, rfl, rfl, [], (List.append_nil _).symm, nofun⟩
  trans _ _ _ h k := by
    obtain ⟨earlier, same, others⟩ := h.delivered
    obtain ⟨later, same', others'⟩ := k.delivered
    refine ⟨k.record.trans h.record, k.units.trans h.units, k.packages.trans h.packages,
      earlier ++ later, by rw [same', same, List.append_assoc], ?_⟩
    exact List.forall_mem_append.mpr ⟨others, others'⟩

theorem Elsewhere.learns (elsewhere : before.Elsewhere after) : before.Learns after [] where
  units _ _ known := by rwa [elsewhere.units]
  packages _ _ known := by rwa [elsewhere.packages]
  answered := nofun
  askedUnit _ known := .inl (by rwa [elsewhere.units] at known)
  askedPackage _ known := .inl (by rwa [elsewhere.packages] at known)

theorem Elsewhere.accounted (elsewhere : before.Elsewhere after)
    (accounted : before.Accounted manager) : after.Accounted manager := by
  obtain ⟨told, delivered, others⟩ := elsewhere.delivered
  obtain ⟨unreadable, distinct, reports, read⟩ := accounted.reported
  have none : told.filter (·.code = "E0786") = [] :=
    List.filter_eq_nil_iff.mpr fun diagnostic member => by simpa using others diagnostic member
  constructor
  · rw [elsewhere.record, elsewhere.units]
    exact accounted.units
  · rw [elsewhere.record, elsewhere.packages]
    exact accounted.packages
  · rw [elsewhere.record, elsewhere.units, delivered]
    intro name answer known
    obtain ⟨told', read, reported⟩ := accounted.reads name answer known
    exact ⟨told', read, List.subset_append_of_subset_left _ reported⟩
  · rw [elsewhere.record, elsewhere.packages]
    exact accounted.lists
  · refine ⟨unreadable, distinct, ?_, ?_⟩
    · rw [delivered, List.filter_append, none, List.append_nil]
      exact reports
    · rw [elsewhere.record, elsewhere.units]
      exact read

theorem ask_elsewhere (query : FileQuery σ α) : Within Elsewhere (ask (unheardQuery query)) :=
  fun _ => ⟨rfl, rfl, rfl, [], (List.append_nil _).symm, nofun⟩

theorem onFiles_elsewhere (op : FileOp σ α) : Within Elsewhere (onFiles (unheard op)) :=
  ask_elsewhere op

theorem report_elsewhere {problem : Problem} (other : problem.isOfUnitFile = false)
    (source : Option String) (position : Option Position) : Within Elsewhere
      (report (σ := σ × List (FileAnswer σ)) (problem.diagnostic source position)) := by
  refine fun before => ⟨rfl, rfl, rfl, _, rfl, fun diagnostic member => ?_⟩
  rw [WarningPolicy.code_of_mem_apply member]
  exact problem.code_ne_of_other other

theorem plain_elsewhere {step : Check (σ × List (FileAnswer σ)) α}
    (plain : Check.Plain manager.overheard step) : Within Elsewhere step := by
  cases plain with
  | pure => exact .pure _
  | errors => exact .map _ .get
  | arity => exact ask_elsewhere _
  | policy => exact fun _ => ⟨rfl, rfl, rfl, [], (List.append_nil _).symm, nofun⟩
  | report other => exact report_elsewhere other _ _
  | option => exact onFiles_elsewhere _
  | write =>
      rw [overheard_write]
      exact onFiles_elsewhere _
  | flush => exact onFiles_elsewhere _

/-! ## What is learnt -/

theorem isSome_lookup_learnt {known : List (String × α)} {name : String}
    (fresh : known.lookup name = none) (value : α) (key : String) :
    ((known ++ [(name, value)]).lookup key).isSome.toNat =
      (known.lookup key).isSome.toNat + if key = name then 1 else 0 := by
  rw [List.lookup_append]
  by_cases same : key = name
  · rw [same, fresh]
    simp
  · cases known.lookup key <;> simp [same]

theorem known_or_learnt {known : List (String × α)} {name key : String} {value : α}
    (found : ((known ++ [(name, value)]).lookup key).isSome = true) :
    (known.lookup key).isSome = true ∨ key = name := by
  obtain ⟨_, found⟩ := Option.isSome_iff_exists.mp found
  rcases lookup_append_one found with old | ⟨same, -⟩
  · exact .inl (Option.isSome_iff_exists.mpr ⟨_, old⟩)
  · exact .inr same

theorem unreadable_eq (name : String) (file : FileObject) (error : Error)
    (session : Session (σ × List (FileAnswer σ))) :
    readUnit.unreadable name file error session = (none, { session with
      delivered := session.delivered ++ [FileAnswer.unitFileReport name file error] }) := by
  change (none, { session with delivered := session.delivered ++
    (session.policy.apply (FileAnswer.unitFileReport name file error)).toList }) = _
  rw [WarningPolicy.apply_grave (rfl : (FileAnswer.unitFileReport name file error).severity = _)]
  rfl

theorem onFiles_heard {answer : Except FileError α → σ → FileAnswer σ} {op : FileOp σ α}
    {found : Except FileError α} (run : onFiles (heard answer op) before = (found, after)) :
    ∃ files, after = { before with files := (files, before.files.2 ++ [answer found files]) } := by
  cases run
  exact ⟨_, rfl⟩

theorem readUnit_heard {name : String} {answer : Option UnitImage}
    (run : readUnit manager.overheard name before = (answer, after)) : ∃ looked told files,
      FileAnswer.Reads name looked answer told ∧
        after = { before with
          files := (files, before.files.2 ++ looked)
          delivered := before.delivered ++ told } := by
  obtain ⟨found, opened, asked, run⟩ := bind_run run
  rw [overheard_input] at asked
  obtain ⟨files, rfl⟩ := onFiles_heard asked
  rcases found with fault | _ | file
  · cases run
    exact ⟨_, _, files, .failed fault, by rw [List.append_nil]⟩
  · cases run
    exact ⟨_, _, files, .absent, by rw [List.append_nil]⟩
  · obtain ⟨content, closed, reading, run⟩ := bind_run run
    rw [overheard_read] at reading
    obtain ⟨files, rfl⟩ := onFiles_heard reading
    dsimp only at run
    rw [List.append_assoc, List.cons_append, List.nil_append] at run
    rcases content with fault | bytes
    · dsimp only at run
      rw [unreadable_eq] at run
      cases run
      exact ⟨_, _, files, .unreadable file fault, rfl⟩
    · cases decoded : UnitImage.decode name bytes with
      | error fault =>
          simp only [decoded] at run
          rw [unreadable_eq] at run
          cases run
          exact ⟨_, _, files, .malformed file decoded, rfl⟩
      | ok image =>
          simp only [decoded] at run
          cases run
          exact ⟨_, _, files, .image file decoded, by rw [List.append_nil]⟩

theorem names_heard (found : List FileObject) (before : Session (σ × List (FileAnswer σ))) :
    found.filterMapM (fun file => ask (manager.overheard.nameOf .classPath file)) before =
      let (names, files) := found.filterMapM (manager.nameOf .classPath) before.files.1
      (names, { before with files := (files, before.files.2) }) := by
  induction found generalizing before with
  | nil => rfl
  | cons file rest ih =>
      rw [filterMapM_cons_run, filterMapM_cons_run, ih]
      rfl

theorem listPackage_heard {package : String} {names : List String}
    (run : listPackage manager.overheard package before = (names, after)) :
    ∃ found files named, names = FileAnswer.namesIn manager found files ∧
      after = { before with
        files := (named, before.files.2 ++ [.list .classPath package found files]) } := by
  obtain ⟨found, listed, asked, run⟩ := bind_run run
  rw [overheard_list] at asked
  obtain ⟨files, rfl⟩ := onFiles_heard asked
  cases found with
  | error fault =>
      cases run
      exact ⟨_, files, files, rfl, rfl⟩
  | ok found =>
      dsimp only at run
      rw [names_heard] at run
      cases run
      exact ⟨_, files, _, rfl, rfl⟩

/-! ## Answers -/

/-- A question about a unit is answered from memory, or by reading the file of the unit. -/
theorem classPathUnit_cases {name : String} {answer : Option UnitImage}
    (run : classPathUnit manager.overheard name before = (answer, after)) :
    (before.units.lookup name = some answer ∧ after = before) ∨
      (before.units.lookup name = none ∧ ∃ looked told files,
        FileAnswer.Reads name looked answer told ∧
          after = { before with
            files := (files, before.files.2 ++ looked)
            delivered := before.delivered ++ told
            units := before.units ++ [(name, answer)] }) := by
  cases known : before.units.lookup name with
  | some found =>
      rw [classPathUnit_known known] at run
      cases run
      exact .inl ⟨rfl, rfl⟩
  | none =>
      rcases read : readUnit manager.overheard name before with ⟨found, middle⟩
      rw [classPathUnit_fresh known read] at run
      cases run
      obtain ⟨looked, told, files, reads, rfl⟩ := readUnit_heard read
      exact .inr ⟨rfl, looked, told, files, reads, rfl⟩

/-- A question about a package is answered from memory, or by listing the package. -/
theorem packageContains_cases {package simple : String} {answer : Bool}
    (run : packageContains manager.overheard package simple before = (answer, after)) :
    ∃ names, answer = names.contains (Name.qualify package simple) ∧
      ((before.packages.lookup package = some names ∧ after = before) ∨
        (before.packages.lookup package = none ∧ ∃ found files named,
          names = FileAnswer.namesIn manager found files ∧
            after = { before with
              files := (named, before.files.2 ++ [.list .classPath package found files])
              packages := before.packages ++ [(package, names)] })) := by
  cases known : before.packages.lookup package with
  | some names =>
      rw [packageContains_known known] at run
      cases run
      exact ⟨names, rfl, .inl ⟨rfl, rfl⟩⟩
  | none =>
      rcases read : listPackage manager.overheard package before with ⟨names, middle⟩
      rw [packageContains_fresh known read] at run
      cases run
      obtain ⟨found, files, named, same, rfl⟩ := listPackage_heard read
      exact ⟨names, rfl, .inr ⟨rfl, found, files, named, same, rfl⟩⟩

theorem classPathUnit_learns {name : String} {answer : Option UnitImage}
    (run : classPathUnit manager.overheard name before = (answer, after)) :
    before.Learns after [.unit name answer] := by
  obtain ⟨grown, remembered⟩ := classPathUnit_run run
  refine ⟨grown.units, grown.packages, ?_, ?_, ?_⟩
  · exact List.forall_mem_singleton.mpr remembered
  · intro key found
    rcases classPathUnit_cases run with ⟨-, rfl⟩ | ⟨-, looked, told, files, -, rfl⟩
    · exact .inl found
    · exact (known_or_learnt found).imp_right fun same => by simp [Consultation.isOfUnit, same]
  · intro package found
    rcases classPathUnit_cases run with ⟨-, rfl⟩ | ⟨-, looked, told, files, -, rfl⟩
    · exact .inl found
    · exact .inl found

theorem packageContains_learns {package simple : String} {answer : Bool}
    (run : packageContains manager.overheard package simple before = (answer, after)) :
    before.Learns after [.member package simple answer] := by
  obtain ⟨grown, remembered⟩ := packageContains_run run
  obtain ⟨names, -, run⟩ := packageContains_cases run
  refine ⟨grown.units, grown.packages, ?_, ?_, ?_⟩
  · exact List.forall_mem_singleton.mpr remembered
  · intro name found
    rcases run with ⟨-, rfl⟩ | ⟨-, listed, files, named, -, rfl⟩
    · exact .inl found
    · exact .inl found
  · intro key found
    rcases run with ⟨-, rfl⟩ | ⟨-, listed, files, named, -, rfl⟩
    · exact .inl found
    · exact (known_or_learnt found).imp_right fun same => by
        simp [Consultation.isOfPackage, same]

/-! ## Accounts -/

theorem reported_learnt {name : String} {answer : Option UnitImage}
    {looked : List (FileAnswer σ)} {told : List Diagnostic}
    (accounted : before.Accounted manager) (fresh : before.units.lookup name = none)
    (reads : FileAnswer.Reads name looked answer told) :
    ∃ unreadable : List (String × Diagnostic), (unreadable.map Prod.fst).Nodup ∧
      (before.delivered ++ told).filter (·.code = "E0786") = unreadable.map Prod.snd ∧
      ∀ entry ∈ unreadable, (before.units ++ [(name, answer)]).lookup entry.1 = some none ∧
        FileAnswer.OnRecord (before.files.2 ++ looked) entry.1 none [entry.2] := by
  obtain ⟨unreadable, distinct, reports, read⟩ := accounted.reported
  have kept : ∀ entry ∈ unreadable,
      (before.units ++ [(name, answer)]).lookup entry.1 = some none ∧
        FileAnswer.OnRecord (before.files.2 ++ looked) entry.1 none [entry.2] := by
    intro entry member
    obtain ⟨known, earlier⟩ := read entry member
    refine ⟨?_, earlier.append looked⟩
    rw [List.lookup_append, known, Option.some_or]
  rcases reads.told_eq with rfl | ⟨file, error, rfl, rfl⟩
  · rw [List.append_nil]
    exact ⟨unreadable, distinct, reports, kept⟩
  · refine ⟨unreadable ++ [(name, FileAnswer.unitFileReport name file error)], ?_, ?_, ?_⟩
    · -- Units that were reported are remembered, and this one is not.
      have new : name ∉ unreadable.map Prod.fst := by
        intro member
        obtain ⟨entry, member, same⟩ := List.mem_map.mp member
        have known := (read entry member).1
        rw [same, fresh] at known
        cases known
      rw [List.map_append]
      exact List.nodup_append_comm.mp (distinct.cons new)
    · rw [List.filter_append, reports, List.map_append]
      rfl
    · have known := lookup_append_single fresh (none : Option UnitImage)
      exact List.forall_mem_append.mpr
        ⟨kept, List.forall_mem_singleton.mpr ⟨known, reads.onRecord _⟩⟩

theorem classPathUnit_accounted {name : String} {answer : Option UnitImage}
    (run : classPathUnit manager.overheard name before = (answer, after))
    (accounted : before.Accounted manager) : after.Accounted manager := by
  rcases classPathUnit_cases run with ⟨-, rfl⟩ | ⟨fresh, looked, told, files, reads, rfl⟩
  · exact accounted
  constructor
  · intro key
    rw [List.countP_append, accounted.units, reads.countP_isOfUnit, isSome_lookup_learnt fresh]
  · intro package
    rw [List.countP_append, accounted.packages, reads.countP_isOfPackage, Nat.add_zero]
  · intro key found known
    rcases lookup_append_one known with old | ⟨rfl, rfl⟩
    · obtain ⟨told', earlier, reported⟩ := accounted.reads key found old
      exact ⟨told', earlier.append looked, List.subset_append_of_subset_left _ reported⟩
    · exact ⟨told, reads.onRecord _, List.subset_append_right _ _⟩
  · intro package names known
    obtain ⟨found, listed, member, same⟩ := accounted.lists package names known
    exact ⟨found, listed, List.mem_append_left _ member, same⟩
  · exact reported_learnt accounted fresh reads

theorem packageContains_accounted {package simple : String} {answer : Bool}
    (run : packageContains manager.overheard package simple before = (answer, after))
    (accounted : before.Accounted manager) : after.Accounted manager := by
  obtain ⟨names, -, ⟨-, rfl⟩ | ⟨fresh, found, files, named, same, rfl⟩⟩ :=
    packageContains_cases run
  · exact accounted
  constructor
  · intro name
    rw [List.countP_append, accounted.units]
    rfl
  · intro key
    rw [List.countP_append, accounted.packages, isSome_lookup_learnt fresh]
    simp [List.countP_cons, FileAnswer.isOfPackage, eq_comm]
  · intro name answer known
    obtain ⟨told, earlier, reported⟩ := accounted.reads name answer known
    exact ⟨told, earlier.append _, reported⟩
  · intro key names known
    rcases lookup_append_one known with old | ⟨rfl, rfl⟩
    · obtain ⟨found', listed, member, same'⟩ := accounted.lists key names old
      exact ⟨found', listed, List.mem_append_left _ member, same'⟩
    · exact ⟨found, files, List.mem_append_right _ List.mem_cons_self, same⟩
  · obtain ⟨unreadable, distinct, reports, read⟩ := accounted.reported
    refine ⟨unreadable, distinct, reports, ?_⟩
    intro entry member
    exact (read entry member).imp_right (·.append _)

theorem accounted_start (files : σ) : (Session.start (files, [])).Accounted manager where
  units _ := rfl
  packages _ := rfl
  reads := nofun
  lists := nofun
  reported := ⟨[], .nil, rfl, nofun⟩

/-! ## Runs -/

theorem Learns.knows (learns : before.Learns after consultations) {consultation : Consultation}
    (knows : before.Knows consultation) : after.Knows consultation := by
  cases consultation with
  | unit name answer => exact learns.units _ _ knows
  | member package simple answer =>
      obtain ⟨names, known, same⟩ := knows
      exact ⟨names, learns.packages _ _ known, same⟩

theorem Learns.trans (h : before.Learns middle earlier) (k : middle.Learns after later) :
    before.Learns after (earlier ++ later) where
  units name answer known := k.units name answer (h.units name answer known)
  packages package names known := k.packages package names (h.packages package names known)
  answered := List.forall_mem_append.mpr
    ⟨fun consultation member => k.knows (h.answered consultation member), k.answered⟩
  askedUnit name known := by
    rw [List.any_append, Bool.or_eq_true, ← or_assoc]
    exact (k.askedUnit name known).imp_left (h.askedUnit name)
  askedPackage package known := by
    rw [List.any_append, Bool.or_eq_true, ← or_assoc]
    exact (k.askedPackage package known).imp_left (h.askedPackage package)

variable {step : Check (σ × List (FileAnswer σ)) α}

/-- A run has learnt the answers to all questions that were asked, and nothing else. -/
theorem Consults.learns (consults : Consults manager step before consultations) :
    before.Learns (step before).2 consultations := by
  induction consults with
  | plain plain before => exact (plain_elsewhere plain before).learns
  | unit name before => exact classPathUnit_learns (run_eta _ before)
  | member package simple before => exact packageContains_learns (run_eta _ before)
  | bind first rest ih ih' => exact ih.trans ih'

theorem Consults.accounted (consults : Consults manager step before consultations)
    (accounted : before.Accounted manager) : (step before).2.Accounted manager := by
  induction consults with
  | plain plain before => exact (plain_elsewhere plain before).accounted accounted
  | unit name before => exact classPathUnit_accounted (run_eta _ before) accounted
  | member package simple before => exact packageContains_accounted (run_eta _ before) accounted
  | bind first rest ih ih' => exact ih' (ih accounted)

theorem consults_of_composed (composed : Check.Composed manager.overheard step)
    (before : Session (σ × List (FileAnswer σ))) :
    ∃ consultations, Consults manager step before consultations := by
  induction composed generalizing before with
  | plain plain => exact ⟨_, .plain plain before⟩
  | unit name => exact ⟨_, .unit name before⟩
  | member package simple => exact ⟨_, .member package simple before⟩
  | bind first rest ih ih' =>
      obtain ⟨earlier, asked⟩ := ih before
      obtain ⟨later, asked'⟩ := ih' _ _
      exact ⟨_, .bind asked asked'⟩

end Session

/-! ## One view -/

/-- Questions that are answered from one view of the class path, with all looks that were taken and
all diagnostics that were delivered. -/
structure OneView (manager : FileManager σ) (record : List (FileAnswer σ))
    (diagnostics : List Diagnostic) (consultations : List Consultation) : Prop where
  /-- The file of a unit is asked for once if there is a question about the unit, and never else. -/
  inputs : ∀ name, record.countP (·.isOfUnit name) =
    (consultations.any (·.isOfUnit name)).toNat
  /-- So are the files of a package. -/
  listings : ∀ package, record.countP (·.isOfPackage package) =
    (consultations.any (·.isOfPackage package)).toNat
  /-- Questions about a unit are answered by the one look that was taken at its file. -/
  read : ∀ name answer, .unit name answer ∈ consultations → ∃ told,
    FileAnswer.OnRecord record name answer told ∧ told ⊆ diagnostics
  /-- Questions about a package are answered by its one listing. -/
  listed : ∀ package simple answer, .member package simple answer ∈ consultations →
    ∃ found files, .list .classPath package found files ∈ record ∧
      answer = (FileAnswer.namesIn manager found files).contains (Name.qualify package simple)
  sameUnit : ∀ name first later, .unit name first ∈ consultations →
    .unit name later ∈ consultations → later = first
  sameMember : ∀ package simple first later, .member package simple first ∈ consultations →
    .member package simple later ∈ consultations → later = first
  /-- The units whose files are reported are distinct, and each was looked at in vain. -/
  reported : ∃ unreadable : List (String × Diagnostic), (unreadable.map Prod.fst).Nodup ∧
    diagnostics.filter (·.code = "E0786") = unreadable.map Prod.snd ∧
    ∀ entry ∈ unreadable, FileAnswer.OnRecord record entry.1 none [entry.2]

namespace Session

variable {manager : FileManager σ} {consultations : List Consultation} {α : Type}
  {step : Check (σ × List (FileAnswer σ)) α} {files : σ}
  {after : Session (σ × List (FileAnswer σ))}

theorem Learns.isSome_unit (learns : (Session.start (files, [])).Learns after consultations)
    (name : String) :
    (after.units.lookup name).isSome = consultations.any (·.isOfUnit name) := by
  rw [Bool.eq_iff_iff]
  constructor
  · intro known
    exact (learns.askedUnit name known).resolve_left Bool.false_ne_true
  · intro asked
    obtain ⟨consultation, member, same⟩ := List.any_eq_true.mp asked
    have knows := learns.answered consultation member
    cases consultation with
    | member package simple answer => cases same
    | unit asked answer =>
        rw [← of_decide_eq_true same]
        exact Option.isSome_iff_exists.mpr ⟨answer, knows⟩

theorem Learns.isSome_package (learns : (Session.start (files, [])).Learns after consultations)
    (package : String) :
    (after.packages.lookup package).isSome = consultations.any (·.isOfPackage package) := by
  rw [Bool.eq_iff_iff]
  constructor
  · intro known
    exact (learns.askedPackage package known).resolve_left Bool.false_ne_true
  · intro asked
    obtain ⟨consultation, member, same⟩ := List.any_eq_true.mp asked
    have knows := learns.answered consultation member
    cases consultation with
    | unit name answer => cases same
    | member asked simple answer =>
        obtain ⟨names, known, -⟩ := knows
        rw [← of_decide_eq_true same]
        exact Option.isSome_iff_exists.mpr ⟨names, known⟩

theorem Knows.unit_unique {name : String} {first later : Option UnitImage}
    (h : after.Knows (.unit name first)) (k : after.Knows (.unit name later)) : later = first :=
  Option.some.inj (k.symm.trans h)

theorem Knows.member_unique {package simple : String} {first later : Bool}
    (h : after.Knows (.member package simple first))
    (k : after.Knows (.member package simple later)) : later = first := by
  obtain ⟨names, known, rfl⟩ := h
  obtain ⟨names', known', rfl⟩ := k
  rw [Option.some.inj (known'.symm.trans known)]

/-- Whatever is put together from plain steps and questions has one view of the class path. -/
theorem Consults.oneView
    (consults : Consults manager step (.start (files, [])) consultations) :
    OneView manager (step (.start (files, []))).2.files.2 (step (.start (files, []))).2.delivered
      consultations := by
  have learns := consults.learns
  have accounted := consults.accounted (accounted_start files)
  constructor
  case inputs =>
    intro name
    rw [accounted.units, learns.isSome_unit]
  case listings =>
    intro package
    rw [accounted.packages, learns.isSome_package]
  case read =>
    intro name answer member
    exact accounted.reads name answer (learns.answered _ member)
  case listed =>
    intro package simple answer member
    obtain ⟨names, known, same⟩ := learns.answered _ member
    obtain ⟨found, files, listed, rfl⟩ := accounted.lists package names known
    exact ⟨found, files, listed, same⟩
  case sameUnit =>
    intro name first later asked again
    exact Knows.unit_unique (learns.answered _ asked) (learns.answered _ again)
  case sameMember =>
    intro package simple first later asked again
    exact Knows.member_unique (learns.answered _ asked) (learns.answered _ again)
  case reported =>
    obtain ⟨unreadable, distinct, reports, read⟩ := accounted.reported
    exact ⟨unreadable, distinct, reports, fun entry member => (read entry member).2⟩

end Session

end UnitForge
