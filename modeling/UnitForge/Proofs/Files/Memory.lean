import UnitForge.Files.Memory
import UnitForge.Proofs.Compiler.Reports
import UnitForge.Proofs.Files.Table

/-! # Artifacts in memory

What a compilation without errors leaves in a memory store: under the name of each struct the bytes
of its image, and under every other name what was there before. -/
set_option autoImplicit false
namespace UnitForge

variable {σ : Type}

namespace MemoryStore

open Step

variable {manager : FileManager σ}

/-! ## Stores -/

def SameArtifacts (before after : MemoryStore σ) : Prop :=
  after.artifacts = before.artifacts

instance : IsPreorder (MemoryStore σ) SameArtifacts where
  refl _ := rfl
  trans _ _ _ h k := k.trans h

theorem sameArtifacts_of_looks {before after : MemoryStore σ}
    (looks : Relation.ReflTransGen (MemoryStore.manager manager).Looks before after) :
    SameArtifacts before after := by
  induction looks with
  | refl => rfl
  | tail _ last ih =>
      cases last with
      | list => exact ih
      | input => exact ih
      | read => exact ih
      | arity => exact ih
      | name => exact ih

theorem prepare_sameArtifacts {task : CompilationTask}
    {before after : Session (MemoryStore σ)}
    {found : Option (List (SourceUnit × List UnitImage))}
    (run : UnitCompiler.prepare (MemoryStore.manager manager) task before = (found, after)) :
    SameArtifacts before.files after.files := by
  obtain ⟨accepted, middle, applied, run⟩ := bind_run run
  have options : before.Moves SameArtifacts middle :=
    (UnitCompiler.applyOptions_moves (fun _ _ => rfl) (fun _ _ _ => rfl) _).of_run applied
  cases accepted with
  | false =>
      cases run
      exact options.files
  | true =>
      obtain ⟨analysed, reached, all, run⟩ := bind_run run
      cases run
      exact (sameArtifacts_of_looks (UnitCompiler.analyseAll_run all).1.files).trans options.files

def artifactOf (image : UnitImage) : OutputUnit :=
  { name := image.name, kind := .unit, bytes := image.encode }

/-- A table with the artifact of an image in the place of what had its name. -/
def putImage (table : ArtifactTable) (image : UnitImage) : ArtifactTable :=
  (table.insert (.empty image.name .unit)).append image.name image.encode

theorem get?_putImage_self (table : ArtifactTable) (image : UnitImage) :
    (putImage table image).get? image.name = some (artifactOf image) := by
  have placed := table.get?_insert_self (.empty image.name .unit)
  unfold putImage
  rw [ArtifactTable.get?_append]
  change (Option.map _ ((table.insert _).get? (OutputUnit.empty image.name .unit).name)) = _
  rw [placed]
  simp [OutputUnit.empty, OutputUnit.append, artifactOf]

theorem get?_putImage_other (table : ArtifactTable) {image : UnitImage} {name : String}
    (other : image.name ≠ name) : (putImage table image).get? name = table.get? name := by
  unfold putImage
  rw [ArtifactTable.get?_append, ArtifactTable.get?_insert_other _ _ other]
  cases table.get? name with
  | none => rfl
  | some output => simp [other.symm]

theorem emit_run (unit : SourceUnit) (image : UnitImage) (before : Session (MemoryStore σ)) :
    UnitCompiler.emit (MemoryStore.manager manager) unit image before =
      ((), { before with files :=
        { before.files with artifacts := putImage before.files.artifacts image } }) := by
  have nonempty : image.encode.isEmpty = false := by
    simp [UnitCompiler.encode_ne_nil]
  simp only [UnitCompiler.emit, MemoryStore.manager, MemoryStore.output, Sink.writeAll, nonempty]
  rfl

theorem putImage_perm {table : ArtifactTable} {image : UnitImage}
    (fresh : image.name ∉ table.names) :
    (putImage table image).outputs.Perm (artifactOf image :: table.outputs) := by
  let write (output : OutputUnit) : OutputUnit :=
    if output.name = image.name then output.append image.encode else output
  have others : table.outputs.map write = table.outputs := by
    refine (List.map_congr_left ?_).trans (List.map_id _)
    intro output member
    have other : output.name ≠ image.name := fun same => fresh (same ▸ List.mem_map_of_mem member)
    exact if_neg other
  have placed : (table.insert (.empty image.name .unit)).outputs.Perm
      (.empty image.name .unit :: table.outputs) :=
    ArtifactTable.insert_perm fresh
  have written := placed.map write
  rw [List.map_cons, others] at written
  have first : write (.empty image.name .unit) = artifactOf image := if_pos rfl
  rwa [first] at written

/-! ### Images that are written one after the other -/

def lastNamed (name : String) (images : List UnitImage) : Option UnitImage :=
  images.reverse.find? (·.name = name)

section Last
variable {name : String} {image : UnitImage} {images rest : List UnitImage}

theorem lastNamed_cons : lastNamed name (image :: rest) =
    (lastNamed name rest).or (if image.name = name then some image else none) := by
  rw [lastNamed, List.reverse_cons, List.find?_append]
  by_cases same : image.name = name <;> simp [lastNamed, same]

theorem lastNamed_eq_none : lastNamed name images = none ↔ name ∉ images.map UnitImage.name := by
  simp [lastNamed, List.find?_eq_none]

theorem lastNamed_of_mem (distinct : (images.map UnitImage.name).Nodup) (member : image ∈ images) :
    lastNamed image.name images = some image := by
  induction images with
  | nil => cases member
  | cons first rest ih =>
      obtain ⟨fresh, others⟩ := List.nodup_cons.mp distinct
      rw [lastNamed_cons]
      rcases List.mem_cons.mp member with rfl | later
      · rw [lastNamed_eq_none.mpr fresh, if_pos rfl, Option.none_or]
      · rw [ih others later, Option.some_or]

theorem get?_foldl_putImage (images : List UnitImage) (table : ArtifactTable) :
    (images.foldl putImage table).get? name =
      ((lastNamed name images).map artifactOf).or (table.get? name) := by
  induction images generalizing table with
  | nil => rfl
  | cons image rest ih =>
      rw [List.foldl_cons, ih, lastNamed_cons]
      cases later : lastNamed name rest with
      | some known => rfl
      | none =>
          rw [Option.map_none, Option.none_or, Option.none_or]
          by_cases same : image.name = name
          · rw [if_pos same, ← same, get?_putImage_self]
            rfl
          · rw [if_neg same, get?_putImage_other table same]
            rfl

end Last

theorem foldl_putImage_perm {images : List UnitImage} {table : ArtifactTable}
    (distinct : (table.names ++ images.map UnitImage.name).Nodup) :
    (images.foldl putImage table).outputs.Perm (table.outputs ++ images.map artifactOf) := by
  induction images generalizing table with
  | nil => simp
  | cons image rest ih =>
      rw [List.map_cons] at distinct
      have fresh : image.name ∉ table.names := fun known =>
        List.disjoint_of_nodup_append distinct known List.mem_cons_self
      have put := putImage_perm fresh
      have names : (putImage table image).names.Perm (image.name :: table.names) := put.map _
      have distinct : ((putImage table image).names ++ rest.map UnitImage.name).Nodup :=
        ((names.append_right _).trans List.perm_middle.symm).nodup_iff.mpr distinct
      refine (ih distinct).trans ((put.append_right _).trans ?_)
      exact List.perm_middle.symm

theorem emitImages_artifacts (manager : FileManager σ) (unit : SourceUnit)
    (images : List UnitImage) (before : Session (MemoryStore σ)) :
    (images.forM (UnitCompiler.emit (MemoryStore.manager manager) unit) before).2.files.artifacts =
      images.foldl putImage before.files.artifacts := by
  induction images generalizing before with
  | nil => rfl
  | cons image rest ih =>
      have later := ih (UnitCompiler.emit (MemoryStore.manager manager) unit image before).2
      rw [emit_run] at later
      change (rest.forM (UnitCompiler.emit (MemoryStore.manager manager) unit)
        (UnitCompiler.emit (MemoryStore.manager manager) unit image before).2).2.files.artifacts = _
      rw [emit_run, later, List.foldl_cons]

theorem emitUnits_artifacts (manager : FileManager σ)
    (answers : List (SourceUnit × List UnitImage)) (before : Session (MemoryStore σ)) :
    ((answers.forM fun (unit, images) => images.forM (UnitCompiler.emit
        (MemoryStore.manager manager) unit)) before).2.files.artifacts =
      (answers.flatMap Prod.snd).foldl putImage before.files.artifacts := by
  induction answers generalizing before with
  | nil => rfl
  | cons answer rest ih =>
      obtain ⟨unit, images⟩ := answer
      have first := emitImages_artifacts manager unit images before
      rw [List.flatMap_cons, List.foldl_append, ← first]
      exact ih _

theorem emitAll_artifacts (manager : FileManager σ)
    (analysed : List (SourceUnit × List UnitImage))
    (before : Session (MemoryStore σ)) :
    (UnitCompiler.emitAll (MemoryStore.manager manager) analysed before).2.files.artifacts =
      ((analysed.forM fun (unit, images) => images.forM (UnitCompiler.emit
        (MemoryStore.manager manager) unit)) before).2.files.artifacts := by
  obtain ⟨_, emitted, emitting, run⟩ := bind_run (run_eta (UnitCompiler.emitAll
    (MemoryStore.manager manager) analysed) before)
  obtain ⟨answer, flushed, completed, run⟩ := bind_run run
  obtain ⟨performed, -⟩ := Session.onFiles_run completed
  obtain ⟨-, files, -⟩ := UnitCompiler.settled_run (fun _ => rfl) run
  have kept : flushed.files.artifacts = emitted.files.artifacts :=
    (congrArg (fun out => out.2.artifacts) performed).symm
  rw [files, kept, emitting]

theorem compile_puts {task : CompilationTask} {inner : σ} {verdict : Verdict}
    {store : MemoryStore σ}
    (run : UnitCompiler.compile (MemoryStore.manager manager) task (.ofInner inner) =
      (verdict, store)) (succeeded : verdict.succeeded = true) :
    ∃ answers last, UnitCompiler.prepare (MemoryStore.manager manager) task
        (.start (.ofInner inner)) = (some answers, last) ∧
      List.Forall₂ (fun unit (answer : SourceUnit × List UnitImage) =>
        answer.1 = unit ∧ Nonempty (UnitCompiler.Analysed (MemoryStore.manager manager) unit
          answer.2 last)) task.units answers ∧
      store.artifacts = (answers.flatMap Prod.snd).foldl putImage .empty := by
  have carried := run_eta (UnitCompiler.carryOut (MemoryStore.manager manager) task)
    (.start (.ofInner inner))
  have result : (UnitCompiler.carryOut (MemoryStore.manager manager) task
      (.start (.ofInner inner))).1 = true := by
    cases run
    exact succeeded
  have files : (UnitCompiler.carryOut (MemoryStore.manager manager) task
      (.start (.ofInner inner))).2.files = store :=
    (Prod.mk.inj run).2
  rw [result] at carried
  obtain ⟨answers, prepared, preparing, clean, emitted⟩ := UnitCompiler.carryOut_succeeded carried
  obtain ⟨_, same, all⟩ := UnitCompiler.prepare_run preparing clean
  cases same
  have untouched : prepared.files.artifacts = .empty := prepare_sameArtifacts preparing
  have artifacts := emitAll_artifacts manager answers prepared
  rw [emitted, files, emitUnits_artifacts, untouched] at artifacts
  exact ⟨answers, prepared, preparing, all, artifacts⟩

/-- Source units that compile into an empty store leave there, under each name, the artifact of the
last image that was written under it. -/
theorem compile_table {task : CompilationTask} {inner : σ} {verdict : Verdict}
    {store : MemoryStore σ}
    (run : UnitCompiler.compile (MemoryStore.manager manager) task (.ofInner inner) =
      (verdict, store)) (succeeded : verdict.succeeded = true) :
    ∃ answers last, List.Forall₂ (fun unit (answer : SourceUnit × List UnitImage) =>
        answer.1 = unit ∧ Nonempty (UnitCompiler.Analysed (MemoryStore.manager manager) unit
          answer.2 last)) task.units answers ∧
      ∀ name, store.artifacts.get? name =
        (lastNamed name (answers.flatMap Prod.snd)).map artifactOf := by
  obtain ⟨answers, last, -, all, artifacts⟩ := compile_puts run succeeded
  refine ⟨answers, last, all, ?_⟩
  intro name
  rw [artifacts, get?_foldl_putImage]
  exact Option.or_none

theorem compile_artifacts {options : List String} {unit : SourceUnit} {inner : σ}
    {verdict : Verdict} {store : MemoryStore σ}
    (run : UnitCompiler.compile (MemoryStore.manager manager) { options, units := [unit] }
      (.ofInner inner) = (verdict, store)) (succeeded : verdict.succeeded = true) :
    ∃ images last,
      Nonempty (UnitCompiler.Analysed (MemoryStore.manager manager) unit images last) ∧
      (∀ image ∈ images, store.artifacts.get? image.name = some (artifactOf image)) ∧
      ∀ name, name ∉ images.map UnitImage.name → store.artifacts.get? name = none := by
  obtain ⟨answers, last, all, table⟩ := compile_table run succeeded
  cases all with
  | cons first none =>
      cases none
      rename_i answer
      obtain ⟨same, ⟨whole⟩⟩ := first
      rw [List.flatMap_singleton] at table
      refine ⟨answer.2, last, ⟨whole⟩, ?_, ?_⟩
      · intro image member
        rw [table, lastNamed_of_mem whole.nodup member, Option.map_some]
      · intro name absent
        rw [table, lastNamed_eq_none.mpr absent, Option.map_none]

end MemoryStore

end UnitForge
