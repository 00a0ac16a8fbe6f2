import UnitForge.Proofs.Dialect.Resolution

/-! # What is collected

The declarations that a source is found to have: its structs in the order of their items, each once
and under its full name, and imports that all have a unit. The last is only so where no error was
delivered, and so is that no struct is left out. -/
set_option autoImplicit false
namespace UnitForge

open Source

variable {σ : Type}

def Source.Item.struct? : Item → Option StructTree
  | .struct tree => some tree
  | _ => none

def Source.File.structs (file : File) : List StructTree :=
  file.items.filterMap Item.struct?

namespace Declarations

open Step

def trees (decls : Declarations) : List StructTree :=
  decls.structs.map DeclaredStruct.tree

/-- What the declarations of a source unit are like, whatever was reported. -/
structure Formed (unit : SourceUnit) (decls : Declarations) : Prop where
  package : decls.package = unit.package
  uri : decls.uri = unit.uri
  named : ∀ struct ∈ decls.structs, struct.fullName = Name.qualify unit.package struct.name
  distinct : (decls.structs.map DeclaredStruct.name).Nodup

/-- Declarations that differ in nothing but the functions of their structs. -/
structure SameHeads (before after : Declarations) : Prop where
  package : after.package = before.package
  uri : after.uri = before.uri
  imports : after.imports = before.imports
  trees : after.trees = before.trees
  fullNames : after.structs.map DeclaredStruct.fullName =
    before.structs.map DeclaredStruct.fullName

variable {manager : FileManager σ} {unit : SourceUnit}

theorem SameHeads.refl (decls : Declarations) : decls.SameHeads decls :=
  ⟨rfl, rfl, rfl, rfl, rfl⟩

theorem SameHeads.trans {first second third : Declarations} (h : first.SameHeads second)
    (k : second.SameHeads third) : first.SameHeads third :=
  ⟨k.package.trans h.package, k.uri.trans h.uri, k.imports.trans h.imports,
    k.trees.trans h.trees, k.fullNames.trans h.fullNames⟩

theorem map_name (decls : Declarations) :
    decls.structs.map DeclaredStruct.name = decls.trees.map (·.ident.name) := by
  simp [trees, DeclaredStruct.name]

theorem formed_iff (decls : Declarations) : decls.Formed unit ↔
    decls.package = unit.package ∧ decls.uri = unit.uri ∧
      decls.structs.map DeclaredStruct.fullName =
        decls.trees.map (fun tree => Name.qualify unit.package tree.ident.name) ∧
      (decls.trees.map (·.ident.name)).Nodup := by
  have named :
      (∀ struct ∈ decls.structs, struct.fullName = Name.qualify unit.package struct.name) ↔
        decls.structs.map DeclaredStruct.fullName =
          decls.trees.map (fun tree => Name.qualify unit.package tree.ident.name) := by
    rw [trees, List.map_map, List.map_inj_left]
    rfl
  constructor
  · intro formed
    exact ⟨formed.package, formed.uri, named.mp formed.named, map_name decls ▸ formed.distinct⟩
  · intro ⟨package, uri, full, distinct⟩
    exact ⟨package, uri, named.mpr full, map_name decls ▸ distinct⟩

theorem SameHeads.formed {before after : Declarations} (same : before.SameHeads after)
    (formed : before.Formed unit) : after.Formed unit := by
  rw [formed_iff] at formed ⊢
  rwa [same.package, same.uri, same.fullNames, same.trees]

/-! ## Structs and imports -/

def withStruct (decls : Declarations) (tree : StructTree) : Declarations :=
  let fullName := Name.qualify decls.package tree.ident.name
  { decls with structs := decls.structs ++ [{ tree, fullName, functions := [] }] }

def declare (decls : Declarations) (tree : StructTree) : Check σ Declarations :=
  if decls.declares tree.ident.name then do
    decls.complain tree.ident.pos (.duplicateItem tree.ident.name)
    return decls
  else return decls.withStruct tree

theorem declare_extends (decls : Declarations) (tree : StructTree) :
    Check.Extends manager (decls.declare tree) :=
  .ite (.bind (complain_extends _ _) fun _ => .pure _) (.pure _)

/-- Whatever is reported about a struct, it is declared as its name allows. -/
theorem addStruct_eq (decls : Declarations) (tree : StructTree) :
    ∃ reports : List (Position × Problem), decls.addStruct (σ := σ) tree = (do
      reports.forM fun (pos, problem) => decls.complain pos problem
      decls.declare tree) := by
  unfold addStruct
  cases tree.generics with
  | none =>
      cases tree.fields with
      | unnamed pos => exact ⟨[(pos, .tupleStruct)], rfl⟩
      | _ => exact ⟨[], rfl⟩
  | some start =>
      cases tree.fields with
      | unnamed pos => exact ⟨[(start, .genericStruct), (pos, .tupleStruct)], rfl⟩
      | _ => exact ⟨[(start, .genericStruct)], rfl⟩

theorem addStruct_extends (decls : Declarations) (tree : StructTree) :
    Check.Extends manager (decls.addStruct tree) := by
  obtain ⟨reports, same⟩ := addStruct_eq (σ := σ) decls tree
  rw [same]
  exact .bind (.forM (fun _ => complain_extends _ _) _) fun _ => declare_extends _ _

theorem addStruct_run {decls added : Declarations} {tree : StructTree} {before after : Session σ}
    (run : decls.addStruct tree before = (added, after)) :
    (added = decls ∧ ¬after.Clean) ∨
      (decls.declares tree.ident.name = false ∧ added = decls.withStruct tree) := by
  obtain ⟨reports, same⟩ := addStruct_eq (σ := σ) decls tree
  rw [same] at run
  obtain ⟨_, middle, -, run⟩ := bind_run run
  unfold declare at run
  split at run
  · obtain ⟨_, told, complained, run⟩ := bind_run run
    cases run
    exact .inl ⟨rfl, not_clean_of_complain complained rfl⟩
  · rename_i fresh
    cases run
    exact .inr ⟨Bool.eq_false_iff.mpr fresh, rfl⟩

theorem withStruct_formed {decls : Declarations} {tree : StructTree} (formed : decls.Formed unit)
    (fresh : decls.declares tree.ident.name = false) : (decls.withStruct tree).Formed unit where
  package := formed.package
  uri := formed.uri
  named struct member := by
    rcases List.mem_append.mp member with old | new
    · exact formed.named struct old
    · cases List.mem_singleton.mp new
      rw [formed.package]
      rfl
  distinct := by
    have unknown : tree.ident.name ∉ decls.structs.map DeclaredStruct.name := by
      intro member
      obtain ⟨struct, known, same⟩ := List.mem_map.mp member
      have absent : decls.struct? tree.ident.name = none := by
        simp only [declares, Bool.or_eq_false_iff, Option.isSome_eq_false_iff] at fresh
        exact Option.isNone_iff_eq_none.mp fresh.1
      have := List.find?_eq_none.mp absent struct known
      simp [same] at this
    simp only [withStruct, List.map_append, List.map_cons, List.map_nil]
    refine List.nodup_append.mpr ⟨formed.distinct, List.pairwise_singleton _ _, ?_⟩
    rintro name known _ new rfl
    rw [List.mem_singleton.mp new] at known
    exact unknown known

/-- Declarations that differ in nothing but their imports. -/
structure SameStructs (before after : Declarations) : Prop where
  package : after.package = before.package
  uri : after.uri = before.uri
  structs : after.structs = before.structs

theorem SameStructs.formed {before after : Declarations} (same : before.SameStructs after)
    (formed : before.Formed unit) : after.Formed unit where
  package := same.package.trans formed.package
  uri := same.uri.trans formed.uri
  named := same.structs ▸ formed.named
  distinct := same.structs ▸ formed.distinct

theorem SameStructs.trees {before after : Declarations} (same : before.SameStructs after) :
    after.trees = before.trees :=
  congrArg (List.map DeclaredStruct.tree) same.structs

theorem addImport_run (manager : FileManager σ) {decls added : Declarations} {found : Import}
    {before after : Session σ}
    (run : decls.addImport found before = (added, after)) :
    before.Extends manager after ∧ decls.SameStructs added := by
  unfold addImport at run
  split at run
  · obtain ⟨grown, rfl, -⟩ := refuse_run run
    exact ⟨grown, rfl, rfl, rfl⟩
  · cases run
    exact ⟨.refl _, rfl, rfl, rfl⟩

theorem addUse_run (manager : FileManager σ) {decls added : Declarations} {tree : UseTree}
    {before after : Session σ}
    (run : decls.addUse tree before = (added, after)) :
    before.Extends manager after ∧ decls.SameStructs added := by
  have adds (found : List Import) (middle : Session σ) (earlier : before.Extends manager middle)
      (run : found.foldlM addImport decls middle = (added, after)) :
      before.Extends manager after ∧ decls.SameStructs added := by
    have all := foldlM_induct (f := addImport)
      (P := fun _ known session => before.Extends manager session ∧ decls.SameStructs known)
      ?step found ⟨earlier, rfl, rfl, rfl⟩
    case step =>
      rintro _ item known state ⟨grown, same⟩
      have ⟨more, still⟩ := addImport_run manager
        (run_eta (known.addImport item) state)
      exact ⟨grown.trans more, still.package.trans same.package, still.uri.trans same.uri,
        still.structs.trans same.structs⟩
    rwa [run] at all
  unfold addUse at run
  rcases used : importsOf [] tree with ⟨found, problem⟩
  cases problem with
  | none =>
      simp only [used] at run
      exact adds found before (.refl _) run
  | some reported =>
      simp only [used] at run
      obtain ⟨_, middle, complained, run⟩ := bind_run run
      exact adds found middle ((complain_extends _ _).of_run complained) run

/-- An item other than an impl block is declared or reported. -/
theorem addItem_run (manager : FileManager σ) {decls added : Declarations} {item : Item}
    {before after : Session σ}
    (run : decls.addItem item before = (added, after)) (formed : decls.Formed unit) :
    before.Extends manager after ∧ added.Formed unit ∧
      (after.Clean → added.trees = decls.trees ++ item.struct?.toList) := by
  cases item with
  | struct tree =>
      refine ⟨(addStruct_extends _ _).of_run run, ?_⟩
      rcases addStruct_run run with ⟨rfl, reported⟩ | ⟨fresh, rfl⟩
      · exact ⟨formed, fun clean => absurd clean reported⟩
      · refine ⟨withStruct_formed formed fresh, ?_⟩
        intro _
        simp [withStruct, trees, Item.struct?]
  | use tree =>
      obtain ⟨grown, same⟩ := addUse_run manager run
      exact ⟨grown, same.formed formed, fun _ => by simp [same.trees, Item.struct?]⟩
  | impl tree =>
      cases run
      exact ⟨.refl _, formed, fun _ => by simp [Item.struct?]⟩
  | other pos =>
      obtain ⟨grown, rfl, -⟩ := refuse_run run
      exact ⟨grown, formed, fun _ => by simp [Item.struct?]⟩

theorem resolveImport_run {decls : Declarations} {found answer : Import} {before after : Session σ}
    (run : decls.resolveImport manager found before = (answer, after)) :
    before.Extends manager after ∧ answer.name = found.name ∧
      (after.Clean → answer.resolved = true) := by
  have finish (resolved : Bool) (middle : Session σ) (earlier : before.Extends manager middle)
      (run : (do
        if !resolved then
          let path := Text.replaceChar '.' "::" found.fullName
          decls.complain found.pos (.unresolvedImport path)
        return { found with resolved } : Check σ Import) middle = (answer, after)) :
      before.Extends manager after ∧ answer.name = found.name ∧
        (after.Clean → answer.resolved = true) := by
    cases resolved with
    | true =>
        cases run
        exact ⟨earlier, rfl, fun _ => rfl⟩
    | false =>
        obtain ⟨_, told, complained, run⟩ := bind_run run
        cases run
        exact ⟨earlier.trans ((complain_extends _ _).of_run complained), rfl,
          fun clean => absurd clean (not_clean_of_complain complained rfl)⟩
  unfold resolveImport at run
  by_cases declared : decls.declaresFull found.fullName = true
  · simp only [declared, if_true] at run
    exact finish true before (.refl _) run
  · simp only [declared] at run
    obtain ⟨resolved, middle, looked, run⟩ := bind_run run
    exact finish resolved middle
      ((Within.map _ (Session.classPathUnit_extends _)).of_run looked) run

theorem mapM_resolveImport_names (manager : FileManager σ) (decls : Declarations)
    (imports : List Import) (session : Session σ) :
    (imports.mapM (decls.resolveImport manager) session).1.map Import.name =
      imports.map Import.name := by
  have named (item : Import) (state : Session σ) :
      (decls.resolveImport manager item state).1.name = item.name :=
    (resolveImport_run (run_eta (decls.resolveImport manager item) state)).2.1
  apply mapM_induct (P := fun done found _ => found.map Import.name = done.map Import.name)
  · intro done found item state same
    rw [List.map_append, List.map_append, same, List.map_singleton, List.map_singleton, named]
  · rfl

theorem resolveImports_run {decls resolved : Declarations} {before after : Session σ}
    (run : decls.resolveImports manager before = (resolved, after)) :
    before.Extends manager after ∧ decls.SameStructs resolved ∧
      (after.Clean → resolved.Resolved) := by
  obtain ⟨imports, reached, mapped, run⟩ := bind_run run
  cases run
  have all := mapM_induct (f := decls.resolveImport manager)
    (P := fun _ answers session => before.Extends manager session ∧
      (session.Clean → ∀ answer ∈ answers, answer.resolved = true))
    ?step decls.imports ⟨.refl before, fun _ => nofun⟩
  case step =>
    rintro _ answers item state ⟨grown, known⟩
    obtain ⟨more, -, last⟩ :=
      resolveImport_run (run_eta (decls.resolveImport manager item) state)
    refine ⟨grown.trans more, ?_⟩
    intro clean answer member
    rcases List.mem_append.mp member with old | new
    · exact known (more.clean clean) answer old
    · rw [List.mem_singleton.mp new]
      exact last clean
  rw [mapped] at all
  exact ⟨all.1, ⟨rfl, rfl, rfl⟩, all.2⟩

theorem checkPublic_extends (decls : Declarations) (unit : SourceUnit) :
    Check.Extends manager (decls.checkPublic (σ := σ) unit) :=
  .forM (fun _ => .ite (complain_extends _ _) (.pure _)) _

/-! ## Impl blocks -/

theorem addFunction_sameHeads (decls : Declarations) (target : String) (function : FunctionTree) :
    decls.SameHeads (decls.addFunction target function) := by
  refine ⟨rfl, rfl, rfl, ?_, ?_⟩
  · simp only [trees, addFunction, List.map_map, List.map_inj_left]
    intro struct _
    simp only [Function.comp_apply]
    split <;> rfl
  · simp only [addFunction, List.map_map, List.map_inj_left]
    intro struct _
    simp only [Function.comp_apply]
    split <;> rfl

theorem addImplItem_run (manager : FileManager σ) {isDefault : Bool} {target : String}
    {decls added : Declarations} {item : ImplItem} {before after : Session σ}
    (run : addImplItem isDefault target decls item before = (added, after)) :
    before.Extends manager after ∧ decls.SameHeads added := by
  have reported {pos : Position} {problem : Problem}
      (run : (do decls.complain pos problem; return decls) before = (added, after)) :
      before.Extends manager after ∧ decls.SameHeads added := by
    obtain ⟨grown, rfl, -⟩ := refuse_run run
    exact ⟨grown, .refl _⟩
  cases item with
  | other pos => exact reported run
  | function function =>
      unfold addImplItem at run
      dsimp only at run
      split at run
      · exact reported run
      · split at run
        · exact reported run
        · cases run
          exact ⟨.refl _, addFunction_sameHeads _ _ _⟩

theorem addImpl_run (manager : FileManager σ) {decls added : Declarations} {tree : ImplTree}
    {before after : Session σ}
    (run : decls.addImpl tree before = (added, after)) :
    before.Extends manager after ∧ decls.SameHeads added := by
  have reported {pos : Position} {problem : Problem}
      (run : (do decls.complain pos problem; return decls) before = (added, after)) :
      before.Extends manager after ∧ decls.SameHeads added := by
    obtain ⟨grown, rfl, -⟩ := refuse_run run
    exact ⟨grown, .refl _⟩
  have adds {isDefault : Bool} (run : addImpl.addTo decls tree isDefault before = (added, after)) :
      before.Extends manager after ∧ decls.SameHeads added := by
    unfold addImpl.addTo at run
    cases found : (targetName? tree).filter fun name => (decls.struct? name).isSome with
    | none =>
        simp only [found] at run
        exact reported run
    | some target =>
        simp only [found] at run
        have all := foldlM_induct (f := addImplItem isDefault target)
          (P := fun _ known session => before.Extends manager session ∧ decls.SameHeads known)
          ?step tree.items ⟨.refl before, .refl decls⟩
        case step =>
          rintro _ item known state ⟨grown, same⟩
          have ⟨more, still⟩ := addImplItem_run manager
            (run_eta (addImplItem isDefault target known item) state)
          exact ⟨grown.trans more, same.trans still⟩
        rwa [run] at all
  unfold addImpl at run
  split at run
  · exact reported run
  · cases ofTrait : tree.ofTrait with
    | none =>
        simp only [ofTrait] at run
        exact adds run
    | some found =>
        simp only [ofTrait] at run
        split at run
        · exact adds run
        · exact reported run

def addImplOf (decls : Declarations) (item : Item) : Check σ Declarations :=
  match item with
  | .impl tree => decls.addImpl tree
  | _ => return decls

/-! ## Whole sources -/

/-- Without an error, every struct of a source is declared and every import has a unit. -/
theorem collect_run {file : File} {decls : Declarations} {before after : Session σ}
    (run : collect manager file unit before = (decls, after)) :
    before.Extends manager after ∧ decls.Formed unit ∧
      (after.Clean → decls.Resolved ∧ decls.trees = file.structs) := by
  obtain ⟨declared, first, run₁, run⟩ := bind_run run
  obtain ⟨resolved, second, run₂, run⟩ := bind_run run
  obtain ⟨_, third, run₃, run₄⟩ := bind_run run
  have declares := foldlM_induct (f := addItem (σ := σ))
    (P := fun done known session => before.Extends manager session ∧ known.Formed unit ∧
      (session.Clean → known.trees = done.filterMap Item.struct?))
    ?step file.items ⟨.refl before, (⟨rfl, rfl, nofun, List.nodup_nil⟩ : Formed unit
      { package := unit.package, uri := unit.uri, structs := [], imports := [] }), fun _ => rfl⟩
  case step =>
    rintro done item known state ⟨grown, formed, all⟩
    have ⟨more, still, one⟩ := addItem_run manager
      (run_eta (known.addItem item) state) formed
    refine ⟨grown.trans more, still, ?_⟩
    intro clean
    rw [one clean, all (more.clean clean), List.filterMap_append]
    cases item <;> rfl
  rw [run₁] at declares
  obtain ⟨resolves, sameStructs, known⟩ := resolveImports_run run₂
  have checks : second.Extends manager third := (checkPublic_extends _ _).of_run run₃
  have implements := foldlM_induct (f := addImplOf (σ := σ))
    (P := fun _ known session => third.Extends manager session ∧ resolved.SameHeads known)
    ?step file.items ⟨.refl third, .refl resolved⟩
  case step =>
    rintro _ item known state ⟨grown, same⟩
    cases item with
    | impl tree =>
        have ⟨more, still⟩ := addImpl_run manager
          (run_eta (known.addImpl tree) state)
        exact ⟨grown.trans more, same.trans still⟩
    | _ => exact ⟨grown, same⟩
  have run₄ : file.items.foldlM addImplOf resolved third = (decls, after) := run₄
  rw [run₄] at implements
  obtain ⟨implementing, sameHeads⟩ := implements
  have later : first.Extends manager after := (resolves.trans checks).trans implementing
  refine ⟨declares.1.trans later, sameHeads.formed (sameStructs.formed declares.2.1), ?_⟩
  intro clean
  constructor
  · have := known ((checks.trans implementing).clean clean)
    rwa [Resolved, sameHeads.imports]
  · rw [sameHeads.trees, sameStructs.trees]
    exact declares.2.2 (later.clean clean)

end Declarations

end UnitForge
