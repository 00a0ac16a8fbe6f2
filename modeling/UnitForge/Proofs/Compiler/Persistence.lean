import UnitForge.Proofs.Compiler.Disk
import UnitForge.Proofs.Compiler.Mirror
import UnitForge.Proofs.Loading.History

/-! # Compilations to disk and in memory

A source that compiles into an empty output directory leaves one file for each of its structs there
and nothing else, and the file holds the bytes of the artifact that the same compilation leaves in a
memory store. The file is found again under the name of the struct, both by the file manager and by
a host that defines a unit from the directory. The two compilations succeed alike, as long as the
file system accepts the names of the files. -/
set_option autoImplicit false
namespace UnitForge

open Step FileTree Name StandardFiles MemoryStore

namespace UnitCompiler

open Session

variable {σ : Type} {manager : FileManager σ} {task : CompilationTask} {files : StandardFiles}
  {directory : Path} {unit : SourceUnit} {images : List UnitImage} {name : String}

/-! ## Struct names -/

theorem proper_of_mem_structNames (logical : isLogical unit.name = true)
    (member : name ∈ structNames unit) : Proper name := by
  unfold structNames at member
  split at member
  · obtain ⟨tree, -, rfl⟩ := List.mem_map.mp member
    have formed := tree.ident.proper
    refine (proper_of_isLogical logical).qualify ?_ ?_ ?_
    · intro empty
      rw [empty] at formed
      exact absurd formed (by decide)
    · exact Text.not_mem_of_isIdentifier formed (by decide) (by decide)
    · exact Text.not_mem_of_isIdentifier formed (by decide) (by decide)
  · cases member

/-! ## Verdicts -/

theorem compile_succeeded (files : σ) : (compile manager task files).1.succeeded = true ↔
    ∃ answers prepared, prepare manager task (.start files) = (some answers, prepared) ∧
      prepared.Clean ∧ (emitAll manager answers prepared).2.Clean := by
  have run := run_eta (carryOut manager task) (.start files)
  constructor
  · intro succeeded
    have carried : (carryOut manager task (.start files)).1 = true := succeeded
    rw [carried] at run
    obtain ⟨answers, prepared, preparing, clean, same⟩ := carryOut_succeeded run
    exact ⟨answers, prepared, preparing, clean, same ▸ (carryOut_run run).mp rfl⟩
  · intro ⟨answers, prepared, preparing, clean, emitted⟩
    change (carryOut manager task (.start files)).1 = true
    rw [carryOut_prepared preparing, deliver_clean answers clean]
    exact decide_eq_true emitted

theorem compile_files {files : σ} {answers : List (SourceUnit × List UnitImage)}
    {prepared : Session σ}
    (preparing : prepare manager task (.start files) = (some answers, prepared))
    (clean : prepared.Clean) :
    (compile manager task files).2 = (emitAll manager answers prepared).2.files := by
  change (carryOut manager task (.start files)).2.files = _
  rw [carryOut_prepared preparing, deliver_clean answers clean]

theorem emitAll_delivered_memory (answers : List (SourceUnit × List UnitImage))
    (session : Session (MemoryStore StandardFiles)) :
    (emitAll (MemoryStore.manager StandardFiles.manager) answers session).2.delivered =
      session.delivered := by
  let R (before after : Session (MemoryStore StandardFiles)) : Prop :=
    after.delivered = before.delivered
  have : IsPreorder (Session (MemoryStore StandardFiles)) R :=
    { refl := fun _ => rfl, trans := fun _ _ _ h k => k.trans h }
  have each (answer : SourceUnit × List UnitImage) : Within R
      (answer.2.forM (emit (MemoryStore.manager StandardFiles.manager) answer.1)) :=
    .forM (fun image before => by rw [MemoryStore.emit_run]) answer.2
  exact Within.forM each answers session

theorem emitAll_clean_memory {session : Session (MemoryStore StandardFiles)}
    (clean : session.Clean) (answers : List (SourceUnit × List UnitImage)) :
    (emitAll (MemoryStore.manager StandardFiles.manager) answers session).2.Clean := by
  unfold Clean Session.errors at clean ⊢
  rwa [emitAll_delivered_memory]

theorem emitAll_disk (answers : List (SourceUnit × List UnitImage))
    (session : Session StandardFiles) :
    (emitAll StandardFiles.manager answers session).2 =
      ((answers.forM fun (unit, images) => images.forM (emit StandardFiles.manager unit))
        session).2 :=
  rfl

/-! ## Prepared sources -/

/-- A single source unit that was prepared without an error. -/
structure PreparedOnDisk (options : List String) (unit : SourceUnit) (files : StandardFiles)
    (images : List UnitImage) (prepared : Session StandardFiles) : Prop where
  run : prepare StandardFiles.manager { options, units := [unit] } (.start files) =
    (some [(unit, images)], prepared)
  clean : prepared.Clean
  names : images.map UnitImage.name = structNames unit
  distinct : (images.map UnitImage.name).Nodup
  tree : prepared.files.tree = files.tree
  outputDir : prepared.files.outputDir =
    (applyOptions StandardFiles.manager options (.start files)).2.files.outputDir

theorem preparedOnDisk {options : List String} {answers : List (SourceUnit × List UnitImage)}
    {prepared : Session StandardFiles}
    (run : prepare StandardFiles.manager { options, units := [unit] } (.start files) =
      (some answers, prepared)) (clean : prepared.Clean) :
    ∃ images, answers = [(unit, images)] ∧ PreparedOnDisk options unit files images prepared := by
  obtain ⟨_, same, all⟩ := prepare_run run clean
  cases same
  cases all with
  | cons first rest =>
      cases rest
      rename_i answer
      obtain ⟨found, images⟩ := answer
      obtain ⟨rfl, ⟨analysed⟩⟩ := first
      obtain ⟨accepted, opened, applied, later⟩ := bind_run run
      cases accepted with
      | false => cases later
      | true =>
          obtain ⟨answers, reached, all, later⟩ := bind_run later
          cases later
          have looked := eq_of_reflTransGen_looks (analyseAll_run all).1.files
          have kept : opened.files.tree = files.tree :=
            ((applyOptions_moves (fun _ _ => rfl) handleOption_sameTree options).of_run applied :
              Session.Moves SameTree (.start files) opened).files
          refine ⟨images, rfl, run, clean, analysed.structNames_eq, analysed.nodup, ?_, ?_⟩
          · rw [looked, kept]
          · rw [looked, applied]

theorem preparedOnDisk_of_direct {options : List String}
    (succeeded : (compile StandardFiles.manager { options, units := [unit] } files).1.succeeded =
      true) : ∃ images prepared, PreparedOnDisk options unit files images prepared := by
  obtain ⟨answers, prepared, run, clean, -⟩ := (compile_succeeded files).mp succeeded
  obtain ⟨images, -, source⟩ := preparedOnDisk run clean
  exact ⟨images, prepared, source⟩

theorem preparedOnDisk_of_captured {options : List String}
    (succeeded : (compile (MemoryStore.manager StandardFiles.manager) { options, units := [unit] }
      (.ofInner files)).1.succeeded = true) :
    ∃ images prepared, PreparedOnDisk options unit files images prepared := by
  obtain ⟨answers, store, run, clean, -⟩ := (compile_succeeded _).mp succeeded
  obtain ⟨same, mirrors⟩ := prepare_mirrors { options, units := [unit] } _ _ (mirrors_start files)
  rw [run] at same mirrors
  obtain ⟨images, -, source⟩ := preparedOnDisk (Prod.ext same rfl) (mirrors.errors.trans clean)
  exact ⟨images, _, source⟩

namespace PreparedOnDisk

variable {options : List String} {prepared : Session StandardFiles}
  (source : PreparedOnDisk options unit files images prepared)
include source

theorem proper (logical : isLogical unit.name = true) : ∀ image ∈ images, Proper image.name := by
  intro image member
  apply proper_of_mem_structNames logical
  rw [← source.names]
  exact List.mem_map_of_mem member

theorem mem_structNames : name ∈ structNames unit ↔ ∃ image ∈ images, image.name = name := by
  rw [← source.names, List.mem_map]

theorem captured : ∃ store,
    prepare (MemoryStore.manager StandardFiles.manager) { options, units := [unit] }
      (.start (.ofInner files)) = (some [(unit, images)], store) ∧ store.Clean ∧
        store.delivered = prepared.delivered := by
  obtain ⟨same, mirrors⟩ := prepare_mirrors { options, units := [unit] } _ _ (mirrors_start files)
  rw [source.run] at same mirrors
  have delivered := congrArg Session.delivered mirrors
  exact ⟨_, Prod.ext same.symm rfl, mirrors.errors.symm.trans source.clean, delivered.symm⟩

theorem captured_succeeded : (compile (MemoryStore.manager StandardFiles.manager)
    { options, units := [unit] } (.ofInner files)).1.succeeded = true := by
  obtain ⟨store, run, clean, -⟩ := source.captured
  exact (compile_succeeded _).mpr ⟨_, _, run, clean, emitAll_clean_memory clean _⟩

theorem captured_diagnostics : (compile (MemoryStore.manager StandardFiles.manager)
    { options, units := [unit] } (.ofInner files)).1.diagnostics = prepared.delivered := by
  obtain ⟨store, run, clean, same⟩ := source.captured
  change (carryOut (MemoryStore.manager StandardFiles.manager) { options, units := [unit] }
    (.start (.ofInner files))).2.delivered = _
  rw [carryOut_prepared run, deliver_clean _ clean]
  exact (emitAll_delivered_memory [(unit, images)] store).trans same

theorem captured_artifacts : (compile (MemoryStore.manager StandardFiles.manager)
    { options, units := [unit] } (.ofInner files)).2.artifacts =
      images.foldl putImage .empty := by
  obtain ⟨store, run, -⟩ := source.captured
  obtain ⟨answers, last, again, -, artifacts⟩ := compile_puts
    (run_eta (compile (MemoryStore.manager StandardFiles.manager) _) (.ofInner files))
    source.captured_succeeded
  rw [run] at again
  cases again
  rw [artifacts, List.flatMap_singleton]

theorem captured_artifact {image : UnitImage} (member : image ∈ images) :
    (compile (MemoryStore.manager StandardFiles.manager) { options, units := [unit] }
      (.ofInner files)).2.artifacts.get? image.name = some (artifactOf image) := by
  rw [source.captured_artifacts, get?_foldl_putImage, lastNamed_of_mem source.distinct member]
  rfl

section Configured
variable (logical : isLogical unit.name = true)
  (configured : (applyOptions StandardFiles.manager options (.start files)).2.files.outputDir =
    some directory) (empty : files.tree.IsEmptyDirectory directory)
include logical configured empty

theorem filled (accepted : ∀ image ∈ images, IsAccepted directory image.name) :
    ∃ after, (emitAll StandardFiles.manager [(unit, images)] prepared).2 =
        { prepared with files := { prepared.files with tree := after } } ∧
      Filled (files.tree.place directory) images files.tree after := by
  have same := source.tree
  obtain ⟨after, run, filled⟩ := emitImages_run (source.outputDir.trans configured)
    (same ▸ empty.there) (same ▸ empty.tidy) (source.proper logical) accepted
    source.distinct
  rw [same] at filled
  refine ⟨after, ?_, filled⟩
  rw [emitAll_disk]
  exact congrArg Prod.snd run

theorem succeeded_iff : (compile StandardFiles.manager { options, units := [unit] }
    files).1.succeeded = true ↔ ∀ image ∈ images, IsAccepted directory image.name := by
  rw [compile_succeeded]
  constructor
  · rintro ⟨answers, session, run, -, emitted⟩
    rw [source.run] at run
    cases run
    exact emitImages_accepted (source.outputDir.trans configured) emitted
  · intro accepted
    obtain ⟨after, run, -⟩ := source.filled logical configured empty accepted
    refine ⟨_, _, source.run, source.clean, ?_⟩
    rw [run]
    exact source.clean

theorem delivered (succeeded : (compile StandardFiles.manager { options, units := [unit] }
    files).1.succeeded = true) :
    ∃ after, (compile StandardFiles.manager { options, units := [unit] } files).2 =
        { prepared.files with tree := after } ∧
      Filled (files.tree.place directory) images files.tree after := by
  have accepted := (source.succeeded_iff logical configured empty).mp succeeded
  obtain ⟨after, run, filled⟩ := source.filled logical configured empty accepted
  refine ⟨after, ?_, filled⟩
  rw [compile_files source.run source.clean, run]

end Configured

end PreparedOnDisk

structure Persisted (directory : Path) (name : String) (bytes : Bytes) (files : StandardFiles) :
    Prop where
  found : ∃ file, files.input .classOutput name .unit = some file ∧ file.root = directory ∧
    StandardFiles.manager.read file files = (.ok bytes, files)
  loaded : ∀ {image}, UnitImage.decode name bytes = .ok image → ∀ host before, ∃ unit after,
    Action.defineFromOrigin files.tree host directory name before = (.ok unit, after) ∧
      unit.origin = some directory ∧ unit.image = image

theorem persisted_of_read {bytes : Bytes} {classPath : List Path} {outputDir : Option Path}
    {tree : FileTree} (configured : outputDir = some directory)
    (read : tree.read (directory.join (relativePath name .unit)) = .ok bytes)
    (there : tree.isFile (directory.join (relativePath name .unit)) = true) :
    Persisted directory name bytes { classPath, outputDir, tree } where
  found := by
    have given : StandardFiles.input { classPath, outputDir, tree } .classOutput name .unit =
        some ⟨.unit, directory.join (relativePath name .unit), directory⟩ := by
      simp [StandardFiles.input, roots, configured, there]
    exact ⟨_, given, rfl, read_ok read⟩
  loaded {image} decoded host before := by
    have path : Action.imagePath directory name = directory.join (relativePath name .unit) := rfl
    rw [Action.defineFromOrigin_run, path, read]
    dsimp only
    rw [decoded]
    exact ⟨_, _, Action.defineImage_run host image (some directory), rfl, rfl⟩

/-- What outputs below a directory are, beside the artifacts of the same names in memory: one file
for each artifact, with its bytes, and nothing else. -/
structure PersistsAll (names : List String) (directory : Path) (artifacts : ArtifactTable)
    (before : FileTree) (after : StandardFiles) : Prop where
  distinct : (names.map unitPieces).Nodup
  files : ∀ spot bytes, before.place directory <+: spot →
    (after.tree.node? spot = some (.file bytes) ↔ ∃ name ∈ names,
      spot = before.place directory ++ unitPieces name ∧
        ∃ artifact, artifacts.get? name = some artifact ∧ bytes = artifact.bytes)
  outside : ∀ spot, ¬before.place directory <+: spot →
    after.tree.node? spot = before.node? spot
  stored : ∀ name ∈ names, ∃ image, image.name = name ∧
    artifacts.get? name = some (artifactOf image) ∧
      (image.Fits → UnitImage.decode name (artifactOf image).bytes = .ok image)
  persisted : ∀ name ∈ names, ∀ artifact, artifacts.get? name = some artifact →
    Persisted directory name artifact.bytes after

theorem PreparedOnDisk.persistsAll {options : List String} {prepared : Session StandardFiles}
    (source : PreparedOnDisk options unit files images prepared)
    (logical : isLogical unit.name = true) (there : files.tree.IsEmptyDirectory directory)
    (accepted : ∀ image ∈ images, IsAccepted directory image.name) {after : FileTree}
    (filled : Filled (files.tree.place directory) images files.tree after)
    (configured : prepared.files.outputDir = some directory) :
    PersistsAll (structNames unit) directory
      (compile (MemoryStore.manager StandardFiles.manager) { options, units := [unit] }
        (.ofInner files)).2.artifacts
      files.tree { prepared.files with tree := after } where
  distinct := by
    rw [← source.names]
    apply source.distinct.map_on
    intro full member other known same
    obtain ⟨image, first, rfl⟩ := List.mem_map.mp member
    obtain ⟨image', second, rfl⟩ := List.mem_map.mp known
    exact unitPieces_injective (source.proper logical image first)
      (source.proper logical image' second) same
  files spot bytes inside := by
    rw [filled.file_iff there inside bytes]
    constructor
    · rintro ⟨image, member, rfl, rfl⟩
      exact ⟨image.name, source.mem_structNames.mpr ⟨image, member, rfl⟩, rfl, _,
        source.captured_artifact member, rfl⟩
    · rintro ⟨full, member, rfl, artifact, stored, rfl⟩
      obtain ⟨image, known, rfl⟩ := source.mem_structNames.mp member
      cases (source.captured_artifact known).symm.trans stored
      exact ⟨image, known, rfl, rfl⟩
  outside spot := filled.outside
  stored full member := by
    obtain ⟨image, known, rfl⟩ := source.mem_structNames.mp member
    exact ⟨image, rfl, source.captured_artifact known, UnitImage.decode_encode⟩
  persisted full member artifact stored := by
    obtain ⟨image, known, rfl⟩ := source.mem_structNames.mp member
    obtain ⟨read, file⟩ := filled.read there.there known (source.proper logical image known)
      (accepted image known)
    have persisted : Persisted directory image.name image.encode
        { prepared.files with tree := after } :=
      persisted_of_read configured read file
    cases (source.captured_artifact known).symm.trans stored
    exact persisted

/-- A source of a logical name compiles into an empty output directory just where it compiles in
memory and the file system accepts the paths of its files. Then there is one file for each of its
structs below the directory, with the bytes of the artifact of the struct, and nothing changes
anywhere else; the file manager finds the file under the name of the struct, and a host that defines
the unit from the directory gets the image that the artifact is decoded to. -/
theorem compile_persists (files : StandardFiles) (options : List String) (directory : Path)
    (unit : SourceUnit) (logical : isLogical unit.name = true)
    (configured : (applyOptions StandardFiles.manager options (.start files)).2.files.outputDir =
      some directory) (there : files.tree.IsEmptyDirectory directory) :
    let task : CompilationTask := { options, units := [unit] }
    let direct := compile StandardFiles.manager task files
    let captured := compile (MemoryStore.manager StandardFiles.manager) task (.ofInner files)
    (direct.1.succeeded = true ↔
      captured.1.succeeded = true ∧ ∀ full ∈ structNames unit, IsAccepted directory full) ∧
    (direct.1.succeeded = true → PersistsAll (structNames unit) directory captured.2.artifacts
      files.tree direct.2) := by
  intro task direct captured
  refine ⟨⟨?_, ?_⟩, ?_⟩
  · intro succeeded
    obtain ⟨images, prepared, source⟩ := preparedOnDisk_of_direct succeeded
    refine ⟨source.captured_succeeded, ?_⟩
    intro full member
    obtain ⟨image, known, rfl⟩ := source.mem_structNames.mp member
    exact (source.succeeded_iff logical configured there).mp succeeded image known
  · rintro ⟨succeeded, accepted⟩
    obtain ⟨images, prepared, source⟩ := preparedOnDisk_of_captured succeeded
    apply (source.succeeded_iff logical configured there).mpr
    intro image member
    exact accepted image.name (source.mem_structNames.mpr ⟨image, member, rfl⟩)
  · intro succeeded
    obtain ⟨images, prepared, source⟩ := preparedOnDisk_of_direct succeeded
    have accepted := (source.succeeded_iff logical configured there).mp succeeded
    obtain ⟨after, run, filled⟩ := source.delivered logical configured there succeeded
    have run : direct.2 = { prepared.files with tree := after } := run
    rw [run]
    exact source.persistsAll logical there accepted filled (source.outputDir.trans configured)

def emptyOutput : StandardFiles :=
  .ofTree {
    entries := [(["work"], .directory), (["work", "out"], .directory)]
    workingDirectory := ["work"] }

def counterAndHelper : SourceUnit where
  name := "demo.Counter"
  text := "pub struct Counter; struct Helper;"

/-- Both structs of a source are written to an empty directory. -/
theorem compile_persists_helper :
    let task : CompilationTask := { options := ["-d", "out"], units := [counterAndHelper] }
    let direct := compile StandardFiles.manager task emptyOutput
    let captured := compile (MemoryStore.manager StandardFiles.manager) task (.ofInner emptyOutput)
    emptyOutput.tree.IsEmptyDirectory ⟨"out"⟩ ∧ direct.1.succeeded = true ∧
      PersistsAll ["demo.Counter", "demo.Helper"] ⟨"out"⟩ captured.2.artifacts emptyOutput.tree
        direct.2 := by
  have there : emptyOutput.tree.IsEmptyDirectory ⟨"out"⟩ :=
    isEmptyDirectory_of_entries (by decide +kernel) (by decide +kernel)
  have succeeded : (compile StandardFiles.manager
      { options := ["-d", "out"], units := [counterAndHelper] } emptyOutput).1.succeeded = true := by
    decide +kernel
  have names : structNames counterAndHelper = ["demo.Counter", "demo.Helper"] := by
    decide +kernel
  have persists := compile_persists emptyOutput ["-d", "out"] ⟨"out"⟩ counterAndHelper
    (by decide +kernel) (by decide +kernel) there
  exact ⟨there, succeeded, names ▸ persists.2 succeeded⟩

end UnitCompiler

end UnitForge
