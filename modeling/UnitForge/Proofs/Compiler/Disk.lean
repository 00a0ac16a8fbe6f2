import UnitForge.Proofs.Compiler.Reports
import UnitForge.Proofs.Files.Delivery
import UnitForge.Proofs.Files.NamePaths
import UnitForge.Proofs.Files.Untouched

/-! # Outputs on disk

The standard manager writes the file of a unit below the output directory, where the segments of its
name lead. In an empty directory every image of a source finds its place, as different units have
different files, unless a file system refuses a piece of its path. -/
set_option autoImplicit false
namespace UnitForge

open Step FileTree Name StandardFiles

variable {files : StandardFiles} {directory : Path} {base : FileLocation} {unit : SourceUnit}
  {image : UnitImage} {images : List UnitImage} {name : String}

namespace StandardFiles

def unitPieces (name : String) : List String :=
  (relativePath name .unit).pieces

/-- Whether the system accepts the path of the file of a unit below a directory. -/
def IsAccepted (directory : Path) (name : String) : Prop :=
  isAccepted (directory.join (relativePath name .unit)).pieces = true

theorem unitPieces_eq (proper : Proper name) :
    unitPieces name = (segments name).dropLast ++ [simple name ++ ".unit"] :=
  pieces_relativePath proper .unit

theorem unitPieces_injective {other : String} (proper : Proper name) (proper' : Proper other)
    (same : unitPieces name = unitPieces other) : name = other := by
  rw [unitPieces, unitPieces] at same
  exact relativePath_injective proper proper' same

theorem read_ok {kind : ArtifactKind} {path root : Path} {bytes : Bytes}
    (read : files.tree.read path = .ok bytes) :
    manager.read { kind, path, root } files = (.ok bytes, files) := by
  have done : (files.tree.read path).map (fun bytes => (bytes, files.tree)) =
      .ok (bytes, files.tree) := by
    rw [read]
    rfl
  have run : onTree (fun tree => (tree.read path).map fun bytes => (bytes, tree)) files =
      (.ok bytes, { files with tree := files.tree }) :=
    onTree_ok done
  exact run

theorem writeAll_sinkAt (spot : FileLocation) {chunk : Bytes} (some_bytes : chunk.isEmpty = false)
    (files : StandardFiles) : (sinkAt spot).writeAll chunk files =
      (.ok (), { files with tree := files.tree.append spot chunk }) := by
  rw [Sink.writeAll, some_bytes]
  rfl

theorem written_run {spot : FileLocation} {opened : StandardFiles}
    (asked : output .classOutput image.name .unit files = (.ok (sinkAt spot), opened)) :
    UnitCompiler.written manager unit image files =
      (.ok (), { opened with tree := opened.tree.append spot image.encode }) := by
  have some_bytes : image.encode.isEmpty = false := by
    simp [UnitCompiler.encode_ne_nil]
  have first : manager.output .classOutput image.name .unit (some unit) files =
      (.ok (sinkAt spot), opened) := asked
  rw [UnitCompiler.written, except_bind_ok first,
    except_bind_ok (writeAll_sinkAt spot some_bytes opened)]
  rfl

theorem written_ok (configured : files.outputDir = some directory)
    (there : files.tree.isDirectory directory = true)
    (tidy : files.tree.Tidy (files.tree.place directory)) (proper : Proper image.name)
    (accepted : IsAccepted directory image.name) :
    ∃ after, UnitCompiler.written manager unit image files = (.ok (), { files with tree := after }) ∧
      Writes (files.tree.place directory) (unitPieces image.name) image.encode files.tree after ∧
      after.Tidy (files.tree.place directory) := by
  have whole := unitPieces_eq proper
  have dot : '.' ∈ (simple image.name ++ ".unit").toList := by simp
  have free (segment : String) (member : segment ∈ (segments image.name).dropLast) :
      '.' ∉ segment.toList :=
    Text.not_mem_of_mem_splitOn (mem_of_mem_dropLast member)
  have named (piece : String)
      (member : piece ∈ (segments image.name).dropLast ++ [simple image.name ++ ".unit"]) :
      IsName piece :=
    isName_of_mem_relativePath proper (whole ▸ member)
  obtain ⟨parented, made, parents, created, writes⟩ := writes_below there
    (isAbsolute_of_proper proper .unit) accepted tidy whole named dot free image.encode
  have asked := output_ok configured rfl parents created
  have run : UnitCompiler.written manager unit image files = (.ok (), { files with
      tree := made.append (files.tree.place directory ++
        ((segments image.name).dropLast ++ [simple image.name ++ ".unit"])) image.encode }) :=
    written_run asked
  refine ⟨_, run, ?_, writes.tidy tidy dot free⟩
  rw [whole]
  exact writes

theorem written_accepted (configured : files.outputDir = some directory)
    {after : StandardFiles} (run : UnitCompiler.written manager unit image files = (.ok (), after)) :
    IsAccepted directory image.name ∧ after.outputDir = some directory := by
  rcases except_bind_run run with ⟨fault, stop, -, absurd⟩ | ⟨sink, opened, asked, -⟩
  · cases absurd
  · have asked : output .classOutput image.name .unit files = (.ok sink, opened) := asked
    obtain ⟨parented, parents, failed | ⟨spot, made, created, same, whole⟩⟩ :=
      (output_run configured asked).resolve_left fun failed => by cases failed.1
    · cases failed.1
    · cases same
      rw [written_run asked] at run
      cases run
      refine ⟨?_, by rw [whole]; exact configured⟩
      obtain ⟨short, resolved⟩ := locate_run (create_run created).1
      exact isAccepted_iff.mpr ⟨short, (resolve_run resolved).1⟩

/-! ## Several files -/

/-- A tree before and after the files of images are written below a directory, each once. -/
structure Filled (base : FileLocation) (images : List UnitImage) (before after : FileTree) :
    Prop where
  workingDirectory : after.workingDirectory = before.workingDirectory
  directory : ∀ spot, before.node? spot = some .directory → after.node? spot = some .directory
  file : ∀ image ∈ images, after.node? (base ++ unitPieces image.name) = some (.file image.encode)
  reached : ∀ image ∈ images,
    after.follow base (unitPieces image.name) = .ok (base ++ unitPieces image.name)
  kept : ∀ spot, (∀ image ∈ images, spot ≠ base ++ unitPieces image.name) →
    after.node? spot = before.node? spot ∨
      before.node? spot = none ∧ after.node? spot = some .directory ∧ base <+: spot

theorem Filled.nil (base : FileLocation) (tree : FileTree) : Filled base [] tree tree :=
  ⟨rfl, fun _ there => there, nofun, nofun, fun _ _ => .inl rfl⟩

/-- The files that are written after one of another unit leave that one as it is. -/
theorem Filled.cons {before middle after : FileTree}
    (writes : Writes base (unitPieces image.name) image.encode before middle)
    (filled : Filled base images middle after)
    (other : ∀ later ∈ images, unitPieces image.name ≠ unitPieces later.name) :
    Filled base (image :: images) before after where
  workingDirectory := filled.workingDirectory.trans writes.workingDirectory
  directory spot there := filled.directory spot (writes.directory there)
  file found member := by
    rcases List.mem_cons.mp member with rfl | later
    · have apart (later : UnitImage) (member : later ∈ images) :
          base ++ unitPieces found.name ≠ base ++ unitPieces later.name := by
        simpa using other later member
      rcases filled.kept _ apart with same | ⟨none, -, -⟩
      · rw [same, writes.file]
      · rw [writes.file] at none
        cases none
    · exact filled.file found later
  reached found member := by
    rcases List.mem_cons.mp member with rfl | later
    · exact follow_later filled.directory writes.reached
    · exact filled.reached found later
  kept spot apart := by
    have first : middle.node? spot = before.node? spot ∨ before.node? spot = none ∧
        middle.node? spot = some .directory ∧ base <+: spot :=
      (writes.kept spot (apart image List.mem_cons_self)).imp_right
        fun ⟨absent, made, done, _, same⟩ => ⟨absent, made, same ▸ List.prefix_append ..⟩
    have rest := filled.kept spot fun later member => apart later (List.mem_cons_of_mem _ member)
    rcases first with same | ⟨absent, made, inside⟩
    · rwa [same] at rest
    · exact .inr ⟨absent, filled.directory spot made, inside⟩

section Filled
variable {before after : FileTree} (filled : Filled (before.place directory) images before after)
include filled

/-- In an empty directory there are the files of the images, and no other. -/
theorem Filled.file_iff (empty : before.IsEmptyDirectory directory) {spot : FileLocation}
    (inside : before.place directory <+: spot) (bytes : Bytes) :
    after.node? spot = some (.file bytes) ↔ ∃ image ∈ images,
      spot = before.place directory ++ unitPieces image.name ∧ bytes = image.encode := by
  constructor
  · intro there
    by_contra! absent
    have apart (image : UnitImage) (member : image ∈ images) :
        spot ≠ before.place directory ++ unitPieces image.name := by
      rintro rfl
      rw [filled.file image member] at there
      cases there
      exact absent image member rfl rfl
    rcases filled.kept spot apart with same | ⟨-, made, -⟩
    · rw [same] at there
      by_cases here : spot = before.place directory
      · rw [here, (node?_of_isDirectory empty.there).2] at there
        cases there
      · rw [empty.empty spot inside here] at there
        cases there
    · rw [made] at there
      cases there
  · rintro ⟨image, member, rfl, rfl⟩
    exact filled.file image member

theorem Filled.outside {spot : FileLocation} (outside : ¬before.place directory <+: spot) :
    after.node? spot = before.node? spot := by
  refine (filled.kept spot fun image _ => ?_).resolve_right fun ⟨_, _, inside⟩ => outside inside
  rintro rfl
  exact outside (List.prefix_append ..)

/-- What was written is read back. -/
theorem Filled.read (there : before.isDirectory directory = true) (member : image ∈ images)
    (proper : Proper image.name) (accepted : IsAccepted directory image.name) :
    after.read (directory.join (relativePath image.name .unit)) = .ok image.encode ∧
      after.isFile (directory.join (relativePath image.name .unit)) = true := by
  have still := isDirectory_later filled.workingDirectory filled.directory there
  have reached := filled.reached image member
  have file := filled.file image member
  rw [← place_congr filled.workingDirectory directory] at reached file
  exact read_below still (isAbsolute_of_proper proper .unit) accepted reached file

end Filled

end StandardFiles

namespace UnitCompiler

open Session

/-! ## Images that are written one after the other -/

section Emit
variable {σ : Type} {manager : FileManager σ} {session : Session σ}

theorem emit_ok {files : σ} (wrote : written manager unit image session.files = (.ok (), files)) :
    emit manager unit image session = ((), { session with files }) := by
  have performed : onFiles (written manager unit image) session =
      (.ok (), { session with files }) := by
    rw [onFiles, wrote]
  exact (bind_of_run performed).trans rfl

theorem emit_clean (clean : (emit manager unit image session).2.Clean) :
    written manager unit image session.files =
      (.ok (), (emit manager unit image session).2.files) := by
  obtain ⟨answer, middle, wrote, run⟩ := bind_run (run_eta (emit manager unit image) session)
  obtain ⟨performed, -⟩ := onFiles_run wrote
  obtain ⟨-, same, settled⟩ := settled_run (fun _ => rfl) run
  rw [settled clean, ← same] at performed
  exact performed

theorem emitImages_clean (clean : (images.forM (emit manager unit) session).2.Clean) :
    session.Clean :=
  ((Within.forM (emit_moves unit) images session :
    session.Moves (fun _ _ => True) _)).clean clean

end Emit

variable {session : Session StandardFiles}

theorem emitImages_accepted (configured : session.files.outputDir = some directory)
    (clean : (images.forM (emit StandardFiles.manager unit) session).2.Clean) :
    ∀ image ∈ images, IsAccepted directory image.name := by
  induction images generalizing session with
  | nil => nofun
  | cons image rest ih =>
      have later : (rest.forM (emit StandardFiles.manager unit)
          (emit StandardFiles.manager unit image session).2).2.Clean := clean
      have wrote := emit_clean (emitImages_clean later)
      obtain ⟨accepted, still⟩ := written_accepted configured wrote
      intro found member
      rcases List.mem_cons.mp member with rfl | member
      · exact accepted
      · exact ih still later found member

theorem emitImages_run (configured : session.files.outputDir = some directory)
    (there : session.files.tree.isDirectory directory = true)
    (tidy : session.files.tree.Tidy (session.files.tree.place directory))
    (proper : ∀ image ∈ images, Proper image.name)
    (accepted : ∀ image ∈ images, IsAccepted directory image.name)
    (distinct : (images.map UnitImage.name).Nodup) :
    ∃ after, images.forM (emit StandardFiles.manager unit) session =
        ((), { session with files := { session.files with tree := after } }) ∧
      Filled (session.files.tree.place directory) images session.files.tree after := by
  induction images generalizing session with
  | nil => exact ⟨session.files.tree, rfl, .nil _ _⟩
  | cons image rest ih =>
      obtain ⟨middle, wrote, writes, tidied⟩ := written_ok configured there tidy
        (proper image (by simp)) (accepted image (by simp))
      have same : middle.place directory = session.files.tree.place directory :=
        place_congr writes.workingDirectory directory
      obtain ⟨fresh, others⟩ := List.nodup_cons.mp distinct
      let next : Session StandardFiles :=
        { session with files := { session.files with tree := middle } }
      have configured : next.files.outputDir = some directory := configured
      obtain ⟨after, run, filled⟩ := ih configured
        (isDirectory_later writes.workingDirectory (fun _ => writes.directory) there)
        (same ▸ tidied) (fun other member => proper other (by simp [member]))
        (fun other member => accepted other (by simp [member])) others
      rw [same] at filled
      refine ⟨after, ?_, .cons writes filled ?_⟩
      · exact (bind_of_run (emit_ok wrote)).trans run
      · intro later member pieces
        have name : image.name = later.name := unitPieces_injective (proper image (by simp))
          (proper later (by simp [member])) pieces
        exact fresh (name ▸ List.mem_map_of_mem member)

end UnitCompiler

end UnitForge
