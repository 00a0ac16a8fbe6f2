import UnitForge.Proofs.Compiler.Layout
import UnitForge.Proofs.Dialect.Spelling
import UnitForge.Proofs.Files.Listing
import UnitForge.Proofs.Source.Equality

/-! # Compiling with and without package names

A unit of the package of a source on the class path can be named by its simple and by its full
name. As long as the package lists what a lookup finds, and that is an image of the unit, both names
lead to the unit or neither does, and sources that differ in nothing but such names compile alike. -/
set_option autoImplicit false
namespace UnitForge

open Source Step

/-! ## What the class path answers -/

theorem Source.isPackage_packageName (package : List Ident) :
    Name.IsPackage (packageName package) := by
  by_cases inside : package = []
  · exact .inl (by simp [packageName, inside])
  · have segments : Name.segments (packageName package) = package.map Ident.name :=
      Text.splitOn_intercalate (by simpa using inside) fun piece member => by
        obtain ⟨ident, -, rfl⟩ := List.mem_map.mp member
        exact Text.not_mem_of_isIdentifier ident.proper (by decide) (by decide)
    refine .inr ?_
    intro segment member
    rw [segments] at member
    obtain ⟨ident, -, rfl⟩ := List.mem_map.mp member
    exact ident.proper

namespace StandardFiles

open Session

variable {files : StandardFiles} {policy : WarningPolicy} {package : List Ident} {ident : Ident}

/-- What a lookup finds in the place of a unit is listed and is an image of the unit, and where it
finds nothing no stray is listed there. -/
structure Decodes (files : StandardFiles) (package simple : String) : Prop where
  image : ∀ file, files.input .classPath (Name.qualify package simple) .unit = some file →
    ∃ bytes image, files.tree.read file.path = .ok bytes ∧
      UnitImage.decode (Name.qualify package simple) bytes = .ok image
  readable : (files.input .classPath (Name.qualify package simple) .unit).isSome = true →
    ∀ root ∈ files.classPath, files.tree.Readable (packageDir root package)
  regular : (files.input .classPath (Name.qualify package simple) .unit).isSome = false →
    (∀ root ∈ files.classPath, files.tree.Readable (packageDir root package)) →
      ¬HasStray files package simple

theorem readUnit_decodes {name : String}
    (decodes : ∀ file, files.input .classPath name .unit = some file → ∃ bytes image,
      files.tree.read file.path = .ok bytes ∧ UnitImage.decode name bytes = .ok image)
    {session : Session StandardFiles} (same : session.files = files) :
    ∃ found, readUnit manager name session = (found, session) ∧
      found.isSome = (files.input .classPath name .unit).isSome := by
  subst same
  have asks : onFiles (manager.input .classPath name .unit) session =
      (.ok (session.files.input .classPath name .unit), session) :=
    rfl
  cases found : session.files.input .classPath name .unit with
  | none =>
      refine ⟨none, ?_, rfl⟩
      rw [readUnit, bind_of_run asks, found]
      rfl
  | some file =>
      obtain ⟨bytes, image, read, decoded⟩ := decodes file found
      have reads : onFiles (manager.read file) session = (.ok bytes, session) := by
        unfold onFiles
        rw [read_ok read]
      refine ⟨some image, ?_, rfl⟩
      rw [readUnit, bind_of_run asks, found]
      simp only [bind_of_run reads, decoded]
      rfl

theorem listPackage_standard (package : String) (session : Session StandardFiles) :
    (listPackage manager package session).1 =
      match session.files.list .classPath package [.unit] false with
      | .ok found => found.filterMap (session.files.inferName? .classPath)
      | .error _ => [] := by
  have still : manager.Still session.files := fun _ looks => eq_of_looks looks
  cases listed : session.files.list .classPath package [.unit] false with
  | error fault =>
      have asks : onFiles (manager.list .classPath package [.unit] false) session =
          (.error .system, session) := by
        simp only [onFiles, manager, except_get_run, listed]
        rfl
      rw [listPackage, bind_of_run asks]
      rfl
  | ok found =>
      have asks : onFiles (manager.list .classPath package [.unit] false) session =
          (.ok found, session) := by
        simp only [onFiles, manager, except_get_run, listed]
        rfl
      rw [listPackage, bind_of_run asks]
      exact congrArg Prod.fst (filterMapM_still still rfl found)

theorem mem_listPackage_iff {package simple : String} (valid : Name.IsPackage package)
    (inside : package ≠ "") (formed : Text.isIdentifier simple = true)
    {session : Session StandardFiles} (stored : session.files.tree.Stored)
    (decodes : session.files.Decodes package simple) :
    Name.qualify package simple ∈ (listPackage manager package session).1 ↔
      (session.files.input .classPath (Name.qualify package simple) .unit).isSome = true := by
  rw [listPackage_standard]
  cases run : session.files.list .classPath package [.unit] false with
  | error fault =>
      apply iff_of_false List.not_mem_nil
      intro found
      obtain ⟨listed, ok⟩ : ∃ listed, session.files.list .classPath package [.unit] false =
          .ok listed :=
        exists_list_iff.mpr (decodes.readable found)
      cases run.symm.trans ok
  | ok listed =>
      have readable := exists_list_iff.mp ⟨listed, run⟩
      have some_text (root : Path) (_ : root ∈ session.files.roots .classPath) :
          (packageDir root package).text ≠ "" :=
        packageDir_text (.inl inside)
      rw [List.mem_filterMap, listed_iff_found valid formed stored run some_text]
      refine ⟨?_, .inl⟩
      intro either
      by_contra absent
      exact either.elim absent (decodes.regular (Bool.eq_false_iff.mpr absent) readable)

theorem settles_of_decodes (answers : ClassPathAnswers manager files policy)
    (stored : files.tree.Stored) (inside : package ≠ [])
    (primitive : Declarations.primitive? ident.name = none) (other : ident.name ≠ "Self")
    (decodes : files.Decodes (packageName package) ident.name) :
    answers.Settles package ident.name := by
  have start : (origin answers).files = files := rfl
  have full := fullName_eq inside ident.name
  obtain ⟨found, read, known⟩ := readUnit_decodes decodes.image start
  have reads := answers.readUnit (fullName package ident.name) (origin answers) rfl rfl
  rw [full, read] at reads
  obtain ⟨image, session⟩ := Prod.mk.inj reads
  have names : answers.names (packageName package) =
      (listPackage manager (packageName package) (origin answers)).1 :=
    congrArg Prod.fst (answers.listPackage (packageName package) (origin answers) rfl).symm
  refine ⟨inside, primitive, other, ?_, ?_⟩
  · have delivered := congrArg Session.delivered session
    rw [full]
    exact (List.nil_append _).symm.trans delivered.symm
  · rw [full, ← image, known, Bool.eq_iff_iff, names, List.contains_iff_mem]
    exact mem_listPackage_iff (isPackage_packageName package) (packageName_ne_empty inside)
      ident.proper stored decodes

end StandardFiles

/-! ## Sources -/

/-- Two files that differ in nothing but their layout and in whether the package stands in front of
the name where that is the type of a field. -/
def Source.File.Respelled (package : List Ident) (name : String) (file other : File) : Prop :=
  file.unplaced.spellOut package name = other.unplaced.spellOut package name

instance (package : List Ident) (name : String) (file other : File) :
    Decidable (file.Respelled package name other) :=
  inferInstanceAs (Decidable (file.unplaced.spellOut package name = _))

theorem Source.File.Respelled.names {package : List Ident} {name : String} {file other : File}
    (respelled : file.Respelled package name other) : other.names = file.names := by
  have same := congrArg File.names respelled
  simp only [File.spellOut, File.unplaced, File.names_relocate] at same
  exact same.symm

namespace UnitCompiler

open Session

section Images
variable {σ : Type} {manager : FileManager σ} {files : σ} {policy : WarningPolicy}
  {answers : ClassPathAnswers manager files policy} {package : List Ident} {name : String}
  {file other : File} {session : Session σ}

/-- A source without an error has the same images with other spellings. -/
theorem images_respelled (ready : session.Ready answers) (settled : answers.Settles package name)
    {unit : SourceUnit} (home : unit.package = packageName package) (free : name ∉ file.names)
    (respelled : file.Respelled package name other)
    (clean : (images manager file unit session).2.Clean) :
    (images manager file unit session).1 = (images manager other unit session).1 ∧
      (images manager file unit session).2.delivered.map Diagnostic.unplaced =
        (images manager other unit session).2.delivered.map Diagnostic.unplaced := by
  have start : (session.relocate .erase).Ready answers := { ready with }
  have free' : name ∉ file.unplaced.names ∧ name ∉ other.unplaced.names := by
    simp only [File.unplaced, File.names_relocate, respelled.names]
    exact ⟨free, free⟩
  have ⟨same, level⟩ := images_spellOut settled home free'.1 _ _ (Level.refl start)
  have ⟨same', level'⟩ := images_spellOut settled home free'.2 _ _ (Level.refl start)
  rw [images_unplaced, respelled] at same level
  rw [images_unplaced] at same' level'
  have still := (clean_relocate .erase _).mpr clean
  exact ⟨same.trans same'.symm,
    (level.delivered still).trans (level'.symm.delivered (level.clean still))⟩

end Images

def filesAfter (options : List String) (files : StandardFiles) : StandardFiles :=
  (applyOptions StandardFiles.manager options (.start files)).2.files

section Standard
variable {files : StandardFiles} {options : List String} {unit unit' : SourceUnit}
  {package : List Ident} {ident : Ident} {file other : File} {images : List UnitImage}
  {prepared : Session StandardFiles} (stored : files.tree.Stored) (inside : package ≠ [])
  (primitive : Declarations.primitive? ident.name = none) (self : ident.name ≠ "Self")
  (decodes : (filesAfter options files).Decodes (packageName package) ident.name)
include stored inside primitive self decodes

theorem settles_after {policy : WarningPolicy} {opened : StandardFiles}
    (taken : filesAfter options files = opened)
    (answers : ClassPathAnswers StandardFiles.manager opened policy) :
    answers.Settles package ident.name := by
  subst taken
  have moved : Session.Moves StandardFiles.SameTree (.start files)
      (applyOptions StandardFiles.manager options (.start files)).2 :=
    applyOptions_moves (fun _ _ => rfl) StandardFiles.handleOption_sameTree options (.start files)
  have kept : (filesAfter options files).tree = files.tree := moved.files
  exact StandardFiles.settles_of_decodes answers (kept ▸ stored) inside primitive self decodes

section Respelled
variable (named : unit'.name = unit.name) (home : unit.package = packageName package)
  (parsed : File.parse? unit.text = .ok file) (parsed' : File.parse? unit'.text = .ok other)
  (free : ident.name ∉ file.names) (respelled : file.Respelled package ident.name other)
include named home parsed parsed' free respelled

theorem PreparedOnDisk.respell (prepares : PreparedOnDisk options unit files images prepared) :
    ∃ prepared', PreparedOnDisk options unit' files images prepared' ∧
      prepared.delivered.map Diagnostic.unplaced = prepared'.delivered.map Diagnostic.unplaced := by
  obtain ⟨_, prepared', prepares', rfl, told⟩ := prepares.exchange (Q := Eq)
    (T := fun told told' => told.map Diagnostic.unplaced = told'.map Diagnostic.unplaced)
    named parsed parsed' fun opened accepted clean => by
      obtain ⟨answers, ready⟩ := exists_ready accepted
      have taken : filesAfter options files = opened.files := by rw [filesAfter, accepted]
      have settled := settles_after stored inside primitive self decodes taken answers
      obtain ⟨same, told⟩ := images_respelled ready settled home free respelled clean
      refine ⟨?_, told, clean_of_unplaced (.of_eq told) clean⟩
      rw [same]
      cases (UnitCompiler.images StandardFiles.manager other unit opened).1 with
      | none => exact .none
      | some images => exact .some rfl
  exact ⟨prepared', prepares', told⟩

variable (unit unit') in
theorem compile_respell
    (succeeded : (compile (MemoryStore.manager StandardFiles.manager)
      { options, units := [unit] } (.ofInner files)).1.succeeded = true) :
    let outcome := compile (MemoryStore.manager StandardFiles.manager)
      { options, units := [unit] } (.ofInner files)
    let outcome' := compile (MemoryStore.manager StandardFiles.manager)
      { options, units := [unit'] } (.ofInner files)
    outcome'.1.succeeded = true ∧ outcome.2.artifacts = outcome'.2.artifacts ∧
      outcome.1.diagnostics.map Diagnostic.unplaced =
        outcome'.1.diagnostics.map Diagnostic.unplaced := by
  obtain ⟨images, prepared, source⟩ := preparedOnDisk_of_captured succeeded
  obtain ⟨prepared', source', told⟩ := source.respell stored inside primitive self decodes named
    home parsed parsed' free respelled
  refine ⟨source'.captured_succeeded, ?_⟩
  rw [source.captured_artifacts, source'.captured_artifacts, source.captured_diagnostics,
    source'.captured_diagnostics]
  exact ⟨rfl, told⟩

end Respelled

end Standard

/-- As long as the package lists what a lookup of a unit finds, and that is an image of it, its simple
name means the unit exactly if its full name does, in sources of its package that do not declare the
name; and such a source compiles with one of the names as the type of a field exactly when it does with the other,
to the same artifacts. -/
theorem compile_spelling (files : StandardFiles) (options : List String) (package : List Ident)
    (ident : Ident) (stored : files.tree.Stored) (inside : package ≠ [])
    (primitive : Declarations.primitive? ident.name = none) (self : ident.name ≠ "Self")
    (decodes : (filesAfter options files).Decodes (packageName package) ident.name) :
    (∀ (policy : WarningPolicy)
      (answers : ClassPathAnswers StandardFiles.manager (filesAfter options files) policy)
      (session : Session StandardFiles) (decls : Declarations) (owner : String)
      (pos place : Position), session.Ready answers → decls.Lacks package ident.name →
      let meaning (names : NamePath) :=
        (decls.resolveType StandardFiles.manager owner (.path pos false names) session).1
      let unit := some (TypeRef.unit (fullName package ident.name))
      meaning (.ofIdent ident) = unit ↔ meaning (.plain place (package ++ [ident])) = unit) ∧
    ∀ (name source source' : String) (file file' : File), Name.package name = packageName package →
      File.parse? source = .ok file → File.parse? source' = .ok file' → ident.name ∉ file.names →
      file.Respelled package ident.name file' →
      let outcome (text : String) := compile (MemoryStore.manager StandardFiles.manager)
        { options, units := [{ name, text }] } (.ofInner files)
      (outcome source).1.succeeded = (outcome source').1.succeeded ∧
        ((outcome source).1.succeeded = true →
          (outcome source).2.artifacts = (outcome source').2.artifacts ∧
          (outcome source).1.diagnostics.map Diagnostic.unplaced =
            (outcome source').1.diagnostics.map Diagnostic.unplaced) := by
  constructor
  · intro policy answers session decls owner pos place ready lacks meaning unit
    have settled := settles_after stored inside primitive self decodes rfl answers
    have either : Alike (Session.Level answers)
        (decls.resolveType StandardFiles.manager owner (.path pos false (.ofIdent ident)))
        (decls.resolveType StandardFiles.manager owner
          (.path pos false (.plain place (package ++ [ident])))) :=
      Declarations.resolveType_either settled lacks lacks.undeclaredFull rfl rfl pos pos place
    have same : meaning (.ofIdent ident) = meaning (.plain place (package ++ [ident])) :=
      (either _ _ (Session.Level.refl ready)).1
    rw [same]
  · intro name source source' file file' home parsed parsed' free respelled outcome
    have forth := compile_respell { name, text := source } { name, text := source' } stored inside
      primitive self decodes rfl home parsed parsed' free respelled
    have back := compile_respell { name, text := source' } { name, text := source } stored inside
      primitive self decodes rfl home parsed' parsed (respelled.names ▸ free) respelled.symm
    constructor
    · rw [Bool.eq_iff_iff]
      exact ⟨fun ok => (forth ok).1, fun ok => (back ok).1⟩
    · intro ok
      exact (forth ok).2

def libraryUnit : UnitImage :=
  { name := "d.N", source := "", fields := [], constructors := [] }

def library : StandardFiles :=
  .ofTree {
    entries := [(["work"], .directory), (["work", "lib"], .directory),
      (["work", "lib", "d"], .directory),
      (["work", "lib", "d", "N.unit"], .file libraryUnit.encode)]
    workingDirectory := ["work"] }

def libraryPackage : List Ident :=
  [{ name := "d", raw := false, pos := ⟨1, 12⟩, proper := by decide }]

def libraryName : Ident :=
  { name := "N", raw := false, pos := ⟨1, 12⟩, proper := by decide }

def holder (type : TypeTree) : File where
  items := [.struct {
    isPublic := false
    ident := { name := "S", raw := false, pos := ⟨1, 8⟩, proper := by decide }
    generics := none
    fields := .named [{
      ident := { name := "f", raw := false, pos := ⟨1, 10⟩, proper := by decide }, type }] }]

def shortType : TypeTree :=
  .path ⟨1, 12⟩ false (.ofIdent libraryName)

def fullType : TypeTree :=
  .path ⟨1, 12⟩ false {
    pos := ⟨1, 12⟩
    leadingColons := false
    segments := (libraryPackage ++ [{ libraryName with pos := ⟨1, 15⟩ }]).map (⟨·, none⟩) }

theorem library_decodes : (filesAfter ["-cp", "lib"] library).Decodes
    (packageName libraryPackage) libraryName.name := by
  have found : (filesAfter ["-cp", "lib"] library).input .classPath
      (Name.qualify (packageName libraryPackage) libraryName.name) .unit =
        some { kind := .unit, path := ⟨"lib/d/N.unit"⟩, root := ⟨"lib"⟩ } := by
    decide +kernel
  have read : (filesAfter ["-cp", "lib"] library).tree.read ⟨"lib/d/N.unit"⟩ =
      .ok libraryUnit.encode := by
    decide +kernel
  refine ⟨?_, fun _ => by decide +kernel, ?_⟩
  · intro file same
    cases found.symm.trans same
    exact ⟨_, libraryUnit, read, UnitImage.decode_encode (by decide)⟩
  · intro missing
    rw [found] at missing
    cases missing

theorem compile_spelling_library :
    let outcome (text : String) := compile (MemoryStore.manager StandardFiles.manager)
      { options := ["-cp", "lib"], units := [{ name := "d.S", text }] } (.ofInner library)
    (outcome "struct S\x7bf:N\x7d").1.succeeded = true ∧
      (outcome "struct S\x7bf:d::N\x7d").1.succeeded = true ∧
      (outcome "struct S\x7bf:N\x7d").2.artifacts =
        (outcome "struct S\x7bf:d::N\x7d").2.artifacts := by
  intro outcome
  have parsed : File.parse? "struct S\x7bf:N\x7d" = .ok (holder shortType) := by decide +kernel
  have parsed' : File.parse? "struct S\x7bf:d::N\x7d" = .ok (holder fullType) := by decide +kernel
  have ⟨same, results⟩ := (compile_spelling library ["-cp", "lib"] libraryPackage libraryName
    (by decide) (by decide) (by decide) (by decide) library_decodes).2 "d.S" _ _ _ _
    (by decide) parsed parsed' (by decide) rfl
  have succeeded : (outcome "struct S\x7bf:N\x7d").1.succeeded = true := by
    decide +kernel
  exact ⟨succeeded, same ▸ succeeded, (results succeeded).1⟩

end UnitCompiler

end UnitForge
