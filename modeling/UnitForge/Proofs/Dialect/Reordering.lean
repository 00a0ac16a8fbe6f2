import UnitForge.Proofs.Compiler.Analysis
import UnitForge.Proofs.Dialect.Steadiness
import UnitForge.Proofs.Dialect.WellDeclared
import UnitForge.Proofs.Lowering.Agreement
import Mathlib.Data.List.Perm.Basic

/-! # The order of declarations

The items of a source may be put in another order, as long as the impl blocks of each struct keep
theirs. If everything is declared once, the same names then stand for the same units, and over files
that stay as they are every struct and every import is treated alike wherever its turn comes. The
images are the same in another order, and so are the diagnostics. -/
set_option autoImplicit false
namespace UnitForge

open Source Step

variable {σ : Type}

/-! ## Reordered sources -/

theorem find?_of_perm {α : Type} {key : α → String} {items others : List α}
    (perm : items.Perm others) (distinct : (items.map key).Nodup) (name : String) :
    others.find? (key · = name) = items.find? (key · = name) := by
  have found_iff {list : List α} (distinct : (list.map key).Nodup) (item : α) :
      list.find? (key · = name) = some item ↔ item ∈ list ∧ key item = name := by
    constructor
    · intro found
      exact ⟨List.mem_of_find?_eq_some found, by simpa using List.find?_some found⟩
    · intro ⟨member, named⟩
      have known : (list.find? (key · = name)).isSome = true :=
        List.find?_isSome.mpr ⟨item, member, by simpa using named⟩
      obtain ⟨first, found⟩ := Option.isSome_iff_exists.mp known
      have same : key first = key item := by
        rw [named]
        simpa using List.find?_some found
      rw [found, List.inj_on_of_nodup_map distinct (List.mem_of_find?_eq_some found) member same]
  have distinct' : (others.map key).Nodup := (perm.map key).nodup_iff.mp distinct
  apply Option.ext
  intro item
  rw [found_iff distinct, found_iff distinct', perm.mem_iff]

theorem mapM_id_perm {α : Type} {answers others : List (Option α)} (perm : answers.Perm others) :
    Option.Rel List.Perm (answers.mapM id) (others.mapM id) := by
  have whole (answers : List (Option α)) : answers.mapM id =
      if answers.all Option.isSome then some (answers.filterMap id) else none := by
    induction answers with
    | nil => rfl
    | cons first rest ih =>
        rw [List.mapM_cons, ih]
        cases first with
        | none => rfl
        | some value => cases all : rest.all Option.isSome <;> simp [all]
  rw [whole, whole, perm.all_eq]
  split
  · exact .some (perm.filterMap id)
  · exact .none

namespace Source.File

def blocksOf (file : File) (name : String) : List ImplTree :=
  file.blocks.filter (Declarations.targetName? · = some name)

/-- The same items in another order, in which the impl blocks of each struct keep theirs. -/
structure Reordered (file other : File) : Prop where
  items : file.items.Perm other.items
  blocks : ∀ name, file.blocksOf name = other.blocksOf name

variable {file other : File}

theorem Reordered.symm (reordered : file.Reordered other) : other.Reordered file :=
  ⟨reordered.items.symm, fun name => (reordered.blocks name).symm⟩

theorem functionsFor_blocks (file : File) (name : String) :
    Declarations.functionsFor file.blocks name =
      (file.blocksOf name).flatMap ImplTree.functions := by
  unfold Declarations.functionsFor blocksOf
  induction file.blocks with
  | nil => rfl
  | cons first rest ih =>
      rw [List.flatMap_cons, ih, List.filter_cons]
      by_cases here : Declarations.targetName? first = some name <;> simp [ImplTree.gives, here]

theorem Reordered.functionsFor (reordered : file.Reordered other) :
    Declarations.functionsFor file.blocks = Declarations.functionsFor other.blocks := by
  funext name
  rw [functionsFor_blocks, functionsFor_blocks, reordered.blocks]

theorem WellDeclared.distinct (well : file.WellDeclared) :
    (file.structs.map (·.ident.name) ++ file.imports.map Import.name).Nodup := by
  have apart : (file.items.flatMap Item.names).Perm
      (file.structs.map (·.ident.name) ++ file.imports.map Import.name) := by
    have structs (items : List Item) :
        items.flatMap (fun item => item.struct?.toList.map (·.ident.name)) =
          (items.filterMap Item.struct?).map (·.ident.name) := by
      induction items with
      | nil => rfl
      | cons first rest ih => cases found : first.struct? <;> simp [found, ih]
    rw [File.structs, ← structs, File.imports, List.map_flatMap]
    exact (List.flatMap_append_perm ..).symm
  exact apart.nodup_iff.mp well.names

theorem WellDeclared.reordered (well : file.WellDeclared) (reordered : file.Reordered other) :
    other.WellDeclared where
  supported item member := well.supported item (reordered.items.mem_iff.mpr member)
  names := (reordered.items.flatMap_right Item.names).nodup_iff.mp well.names
  blocks tree member := by
    have blocks : file.blocks.Perm other.blocks := reordered.items.filterMap Item.impl?
    have structs : file.structs.Perm other.structs := reordered.items.filterMap Item.struct?
    obtain ⟨supported, target, named, declared⟩ := well.blocks tree (blocks.mem_iff.mpr member)
    exact ⟨supported, target, named, (structs.map _).mem_iff.mp declared⟩
  functions := reordered.functionsFor ▸ well.functions

end Source.File

/-! ## Declarations -/

namespace Declarations

/-- The same declarations in another order, without two of one name. -/
structure Reordered (decls twin : Declarations) : Prop where
  package : twin.package = decls.package
  uri : twin.uri = decls.uri
  structs : decls.structs.Perm twin.structs
  imports : decls.imports.Perm twin.imports
  names : (decls.structs.map DeclaredStruct.name).Nodup
  fullNames : (decls.structs.map DeclaredStruct.fullName).Nodup
  importNames : (decls.imports.map Import.name).Nodup

variable {decls twin : Declarations} {file other : File} {manager : FileManager σ} {files : σ}
  {policy : WarningPolicy} {answers : ClassPathAnswers manager files policy}

theorem Reordered.similar (reordered : decls.Reordered twin) : decls.Similar twin where
  package := reordered.package
  uri := reordered.uri
  struct? name := by
    unfold Declarations.struct?
    rw [find?_of_perm reordered.structs reordered.names name]
  imported? name := by
    unfold Declarations.import?
    rw [find?_of_perm reordered.imports reordered.importNames name]
  declaresFull _ := (reordered.structs.any_eq).symm

theorem Reordered.gaining (reordered : decls.Reordered twin)
    (more : String → List FunctionTree) : (decls.gaining more).Reordered (twin.gaining more) where
  package := reordered.package
  uri := reordered.uri
  structs := reordered.structs.map _
  imports := reordered.imports
  names := by
    rw [Declarations.gaining, List.map_map]
    exact reordered.names
  fullNames := by
    rw [Declarations.gaining, List.map_map]
    exact reordered.fullNames
  importNames := reordered.importNames

theorem heads_reordered (well : file.WellDeclared) (reordered : file.Reordered other)
    (unit : SourceUnit) : (file.heads unit).Reordered (other.heads unit) := by
  obtain ⟨structNames, importNames, -⟩ := List.nodup_append.mp well.distinct
  have structs : (file.heads unit).structs.Perm (other.heads unit).structs :=
    (reordered.items.filterMap Item.struct?).map _
  have fullNames : (file.heads unit).structs.map DeclaredStruct.fullName =
      (file.structs.map (·.ident.name)).map (Name.qualify unit.package) := by
    simp only [File.heads, adding, List.nil_append, List.map_map]
    rfl
  refine ⟨rfl, rfl, structs, reordered.items.flatMap_right Item.imports, ?_, ?_, importNames⟩
  · rwa [names_heads]
  · rw [fullNames]
    exact structNames.map (Name.qualify_injective unit.package)

theorem resolveImports_balanced (reordered : decls.Reordered twin) :
    Balanced answers Reordered (decls.resolveImports manager) (twin.resolveImports manager) := by
  have imports : Balanced answers List.Perm (decls.imports.mapM (decls.resolveImport manager))
      (twin.imports.mapM (twin.resolveImport manager)) := by
    refine .mapM_perm reordered.imports ?_
    intro found here there
    exact resolveImport_along (Session.agreement_apart answers here there) reordered.similar found
  have named := imports.and_run (P := fun found => found.map Import.name = _)
    (mapM_resolveImport_names manager decls decls.imports)
  apply named.bind
  rintro found found' ⟨same, perm⟩
  refine .pure ?_
  exact { reordered with imports := perm, importNames := same ▸ reordered.importNames }

theorem checkPublic_balanced (reordered : decls.Reordered twin) (unit : SourceUnit) :
    Balanced answers Eq (decls.checkPublic unit) (twin.checkPublic unit) := by
  refine .forM_perm reordered.structs ?_
  intro struct here there
  have agree := Session.agreement_apart answers here there
  exact .ite (complain_alike agree reordered.uri _ _) (.pure rfl)

/-- Whatever came before, a source and its reordering are collected alike. -/
theorem collect_balanced (well : file.WellDeclared) (reordered : file.Reordered other)
    (unit : SourceUnit) : Balanced answers Reordered (collect manager file unit)
      (collect manager other unit) := by
  rw [collect_wellDeclared well, collect_wellDeclared (well.reordered reordered),
    reordered.functionsFor]
  refine .bind (resolveImports_balanced (heads_reordered well reordered unit)) ?_
  intro resolved resolved' same
  exact .bind (checkPublic_balanced same unit) fun _ _ _ => .pure (same.gaining _)

end Declarations

/-! ## Signatures and images -/

namespace UnitSig

variable {decls twin : Declarations} {sigs sigs' : List UnitSig} {manager : FileManager σ}
  {files : σ} {policy : WarningPolicy} {answers : ClassPathAnswers manager files policy}

theorem ofDeclarations_balanced (reordered : decls.Reordered twin) :
    Balanced answers (fun sigs sigs' => (sigs.map fullName).Nodup ∧ sigs.Perm sigs')
      (ofDeclarations manager decls) (ofDeclarations manager twin) := by
  have sigs : Balanced answers List.Perm (ofDeclarations manager decls)
      (ofDeclarations manager twin) := by
    refine .mapM_perm reordered.structs ?_
    intro struct here there
    have agree := Session.agreement_apart answers here there
    have types (field : FieldTree) : Alike (Session.Apart answers here there)
        (decls.resolveType manager struct.name field.type)
        (twin.resolveType manager struct.name (id field.type)) := by
      have alike := Declarations.resolveType_alike agree reordered.similar struct.name field.type
      rwa [TypeTree.relocate_id] at alike
    have alike := ofStruct_along agree reordered.similar struct fun field _ => types field
    rw [DeclaredStruct.relocate_id] at alike
    have same : (fun sig : UnitSig => sig.relocate id) = id := funext UnitSig.relocate_id
    rwa [same] at alike
  apply sigs.and_run
  intro session
  rw [(ofDeclarations_run (run_eta (ofDeclarations manager decls) session)).2.2.1]
  exact reordered.fullNames

theorem lowerAll_balanced (reordered : decls.Reordered twin)
    (distinct : (sigs.map fullName).Nodup) (perm : sigs.Perm sigs') :
    Balanced answers (Option.Rel List.Perm) (lowerAll manager decls sigs)
      (lowerAll manager twin sigs') := by
  have known (unit : String) : constructorsIn sigs' unit = constructorsIn sigs unit := by
    unfold constructorsIn
    rw [find?_of_perm perm distinct unit]
  have images : Balanced answers List.Perm (sigs.mapM (lower manager decls sigs))
      (sigs'.mapM (lower manager twin sigs')) := by
    refine .mapM_perm perm ?_
    intro owner here there
    have agree := Session.agreement_apart answers here there
    have alike := lower_alike agree reordered.similar known owner
    rwa [UnitSig.relocate_id] at alike
  exact .bind images fun found found' same => .pure (mapM_id_perm same)

end UnitSig

namespace UnitCompiler

variable {file other : File} {manager : FileManager σ} {files : σ} {policy : WarningPolicy}
  {answers : ClassPathAnswers manager files policy}

/-- Whatever came before, a source and its reordering have the same images. -/
theorem images_balanced (well : file.WellDeclared) (reordered : file.Reordered other)
    (unit : SourceUnit) : Balanced answers (Option.Rel List.Perm) (images manager file unit)
      (images manager other unit) := by
  apply (Declarations.collect_balanced well reordered unit).bind
  intro decls twin same
  apply (UnitSig.ofDeclarations_balanced same).bind
  rintro sigs sigs' ⟨distinct, perm⟩
  exact UnitSig.lowerAll_balanced same distinct perm

end UnitCompiler

end UnitForge
