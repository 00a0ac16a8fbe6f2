import UnitForge.Proofs.Compiler.Analysis
import UnitForge.Proofs.Dialect.Steadiness
import UnitForge.Proofs.Dialect.WellDeclared
import UnitForge.Proofs.Lowering.Agreement

/-! # Names with and without their package

A unit of the package of a source can be named by its simple name, which is looked for among the
units that the package lists, or by its full name, whose file is read. Where the package lists the
unit exactly if its file gives an image, and nothing is reported on reading it, the two names mean
the same: a source with one of them as the type of a field has the images that it has with the
other. -/
set_option autoImplicit false
namespace UnitForge

open Source Step

variable {σ : Type}

/-! ## Sources -/

namespace Source

def NamePath.plain (place : Position) (names : List Ident) : NamePath where
  pos := place
  leadingColons := false
  segments := names.map fun ident => ⟨ident.relocate fun _ => place, none⟩

section
variable (package : List Ident) (name : String)

def packageName : String :=
  ".".intercalate (package.map Ident.name)

def fullName : String :=
  ".".intercalate (package.map Ident.name ++ [name])

/-- The type with the package in front of the name, if it is the simple name of the unit. -/
def TypeTree.spellOut : TypeTree → TypeTree
  | .path pos false names =>
    match names.ident? with
    | some ident =>
      if ident.name = name then .path pos false (.plain names.pos (package ++ [ident]))
      else .path pos false names
    | none => .path pos false names
  | .paren pos inner => .paren pos inner.spellOut
  | tree => tree

def File.spellOut (file : File) : File :=
  file.relocate id (TypeTree.spellOut package name)

end

def File.names (file : File) : List String :=
  file.items.flatMap Item.names

end Source

/-! ## Sessions that know the same -/

namespace Session

variable {manager : FileManager σ} {files : σ} {policy : WarningPolicy}
  (answers : ClassPathAnswers manager files policy)

/-- Two sessions that have delivered the same and have asked for the same units, as far as something
is reported on reading them. -/
structure SameTold (session other : Session σ) : Prop where
  delivered : session.delivered = other.delivered
  units : ∀ name, answers.told name ≠ [] → session.units.lookup name = other.units.lookup name

/-- Two sessions that have both met an error, or that have been told the same. -/
structure Level (session other : Session σ) : Prop where
  ready : session.Ready answers
  ready' : other.Ready answers
  same : ¬session.Clean ∧ ¬other.Clean ∨ session.SameTold answers other

variable {answers} {session other reached reached' : Session σ}

theorem Level.refl (ready : session.Ready answers) : session.Level answers session :=
  ⟨ready, ready, .inr ⟨rfl, fun _ _ => rfl⟩⟩

theorem Level.symm (level : session.Level answers other) : other.Level answers session where
  ready := level.ready'
  ready' := level.ready
  same := level.same.imp And.symm fun told =>
    ⟨told.delivered.symm, fun name grave => (told.units name grave).symm⟩

theorem Level.delivered (level : session.Level answers other) (clean : session.Clean) :
    session.delivered = other.delivered :=
  (level.same.resolve_left fun both => both.1 clean).delivered

theorem Level.clean (level : session.Level answers other) (clean : session.Clean) :
    other.Clean := by
  unfold Clean errors
  rw [← level.delivered clean]
  exact clean

theorem Level.later (level : session.Level answers other) (ready : reached.Ready answers)
    (ready' : reached'.Ready answers) (grown : session.Extends manager reached)
    (grown' : other.Extends manager reached')
    (same : session.SameTold answers other → reached.SameTold answers reached') :
    reached.Level answers reached' := by
  refine ⟨ready, ready', ?_⟩
  rcases level.same with ⟨grave, grave'⟩ | told
  · exact .inl ⟨fun clean => grave (grown.clean clean), fun clean => grave' (grown'.clean clean)⟩
  · exact .inr (same told)

/-- What is reported on the first reading of a unit, and what is known afterwards. -/
theorem Ready.classPathUnit (ready : session.Ready answers) (name : String) :
    (classPathUnit manager name session).2.delivered = session.delivered ++
        (if (session.units.lookup name).isSome then [] else answers.told name) ∧
      ∀ key, (Session.classPathUnit manager name session).2.units.lookup key =
        if key = name then some (answers.unit name) else session.units.lookup key := by
  cases known : session.units.lookup name with
  | some found =>
      rw [classPathUnit_known known]
      refine ⟨(List.append_nil _).symm, ?_⟩
      intro key
      by_cases same : key = name
      · rw [if_pos same, same, known, ready.units name found known]
      · rw [if_neg same]
  | none =>
      rw [classPathUnit_fresh known (answers.readUnit name session ready.files ready.policy)]
      refine ⟨rfl, ?_⟩
      intro key
      dsimp only
      rw [List.lookup_append]
      by_cases same : key = name
      · rw [if_pos same, same, known, List.lookup_cons, beq_self_eq_true, Option.none_or]
      · rw [if_neg same, List.lookup_cons, beq_false_of_ne same, List.lookup_nil, Option.or_none]

theorem Ready.packageContains (ready : session.Ready answers) (package simple : String) :
    (packageContains manager package simple session).2.delivered = session.delivered ∧
      (Session.packageContains manager package simple session).2.units = session.units := by
  cases known : session.packages.lookup package with
  | some names =>
      rw [packageContains_known known]
      exact ⟨rfl, rfl⟩
  | none =>
      rw [packageContains_fresh known (answers.listPackage package session ready.files)]
      exact ⟨rfl, rfl⟩

theorem level_report (diagnostic : Diagnostic) :
    Alike (Level answers) (report (σ := σ) diagnostic) (report diagnostic) := by
  intro s t level
  refine ⟨rfl, ?_⟩
  refine level.later { level.ready with } { level.ready' with }
    (report_asks diagnostic s).extends (report_asks diagnostic t).extends ?_
  intro told
  refine ⟨?_, told.units⟩
  change s.delivered ++ (s.policy.apply diagnostic).toList =
    t.delivered ++ (t.policy.apply diagnostic).toList
  rw [told.delivered, level.ready.policy, level.ready'.policy]

theorem level_classPathUnit (name : String) :
    Alike (Level answers) (classPathUnit manager name) (classPathUnit manager name) := by
  intro s t level
  obtain ⟨same, ready, -⟩ := Steady.classPathUnit name s level.ready
  obtain ⟨same', ready', -⟩ := Steady.classPathUnit name t level.ready'
  obtain ⟨delivered, units⟩ := level.ready.classPathUnit name
  obtain ⟨delivered', units'⟩ := level.ready'.classPathUnit name
  refine ⟨same.trans same'.symm, ?_⟩
  apply level.later ready ready' (classPathUnit_extends name s) (classPathUnit_extends name t)
  intro told
  constructor
  · by_cases quiet : answers.told name = []
    · simp [delivered, delivered', quiet, told.delivered]
    · rw [delivered, delivered', told.delivered, told.units name quiet]
  · intro key grave
    rw [units, units', told.units key grave]

theorem level_packageContains (package simple : String) :
    Alike (Level answers) (packageContains manager package simple)
      (packageContains manager package simple) := by
  intro s t level
  obtain ⟨same, ready, -⟩ := Steady.packageContains package simple s level.ready
  obtain ⟨same', ready', -⟩ := Steady.packageContains package simple t level.ready'
  obtain ⟨delivered, units⟩ := level.ready.packageContains package simple
  obtain ⟨delivered', units'⟩ := level.ready'.packageContains package simple
  refine ⟨same.trans same'.symm, ?_⟩
  apply level.later ready ready' (packageContains_extends package simple s)
    (packageContains_extends package simple t)
  intro told
  constructor
  · rw [delivered, delivered', told.delivered]
  · intro key grave
    rw [units, units', told.units key grave]

variable (answers) in
theorem agreement_level : Agreement id (Level answers) manager manager where
  nowhere := rfl
  report diagnostic := by
    rw [Diagnostic.relocate_id]
    exact level_report diagnostic
  classPathUnit := level_classPathUnit
  packageContains := level_packageContains

theorem level_refuse {α : Type} (answer : α) {first second : Diagnostic}
    (grave : first.severity = .error) (grave' : second.severity = .error) :
    Alike (Level answers) (do report first; return answer) (do report second; return answer) := by
  intro s t level
  exact ⟨rfl, { level.ready with }, { level.ready' with },
    .inl ⟨not_clean_report grave s, not_clean_report grave' t⟩⟩

theorem level_listed {package simple full : String} (qualified : Name.qualify package simple = full)
    (quiet : answers.told full = [])
    (listed : (answers.names package).contains full = (answers.unit full).isSome) :
    Alike (Level answers) (packageContains manager package simple)
      (Option.isSome <$> classPathUnit manager full) := by
  subst qualified
  intro s t level
  obtain ⟨same, ready, -⟩ := Steady.packageContains package simple s level.ready
  obtain ⟨same', ready', -⟩ :=
    Steady.classPathUnit (Name.qualify package simple) t level.ready'
  obtain ⟨delivered, units⟩ := level.ready.packageContains package simple
  obtain ⟨delivered', units'⟩ := level.ready'.classPathUnit (Name.qualify package simple)
  have equal := same.trans (listed.trans (congrArg Option.isSome same').symm)
  refine ⟨equal, ?_⟩
  apply level.later ready ready' (packageContains_extends package simple s)
    (classPathUnit_extends _ t)
  intro told
  constructor
  · simp [delivered, delivered', quiet, told.delivered]
  · intro key grave
    have other : key ≠ Name.qualify package simple := by
      rintro rfl
      exact grave quiet
    change (packageContains manager package simple s).2.units.lookup key =
      (classPathUnit manager (Name.qualify package simple) t).2.units.lookup key
    rw [units, units', if_neg other, told.units key grave]

end Session

/-! ## Names of units -/

namespace Source

theorem packageName_ne_empty {package : List Ident} (inside : package ≠ []) :
    packageName package ≠ "" := by
  obtain ⟨first, rest, rfl⟩ := List.exists_cons_of_ne_nil inside
  intro empty
  have chars := congrArg String.toList empty
  have formed := first.proper
  cases rest with
  | nil => simp_all [packageName, Text.isIdentifier]
  | cons second rest => simp [packageName] at chars

theorem fullName_eq {package : List Ident} (inside : package ≠ []) (name : String) :
    fullName package name = Name.qualify (packageName package) name := by
  have some_text : (packageName package).isEmpty = false := by
    simpa using packageName_ne_empty inside
  have whole : package.map Ident.name ≠ [] := by simpa using inside
  rw [Name.qualify, some_text, if_neg Bool.false_ne_true, fullName,
    String.intercalate_append_of_ne_nil whole (by simp), String.intercalate_singleton]
  rfl

theorem NamePath.eq_of_ident? {names : NamePath} {ident : Ident}
    (alone : names.ident? = some ident) : names.segments = [⟨ident, none⟩] := by
  unfold NamePath.ident? at alone
  split at alone
  · rename_i same
    cases alone
    exact same
  · cases alone

end Source

/-- The package lists the unit exactly if its file gives an image, and nothing is reported on
reading it. -/
structure ClassPathAnswers.Settles {manager : FileManager σ} {files : σ} {policy : WarningPolicy}
    (answers : ClassPathAnswers manager files policy) (package : List Ident) (name : String) :
    Prop where
  inside : package ≠ []
  primitive : Declarations.primitive? name = none
  other : name ≠ "Self"
  quiet : answers.told (fullName package name) = []
  listed : (answers.names (packageName package)).contains (fullName package name) =
    (answers.unit (fullName package name)).isSome

namespace Declarations

variable {manager : FileManager σ} {decls twin : Declarations} {owner : String} {pos : Position}
  {package : List Ident} {name : String}

/-- What the simple name of a unit of the package stands for, if the source does not declare it. -/
theorem resolveType_simple (undeclared : decls.declares name = false)
    (primitive : primitive? name = none) (other : name ≠ "Self") {names : NamePath} {ident : Ident}
    (alone : names.ident? = some ident) (same : ident.name = name) :
    decls.resolveType manager owner (.path pos false names) = (do
      if ← Session.packageContains manager decls.package name then
        return some (.unit (Name.qualify decls.package name))
      else
        decls.complain pos (.unknownType name)
        return none) := by
  have whole := NamePath.eq_of_ident? alone
  have plain : decls.plainNames (σ := σ) names = pure (some [name]) := by
    simp [plainNames, NamePath.names, whole, same]
  simp only [declares, Bool.or_eq_false_iff, Option.isSome_eq_false_iff,
    Option.isNone_iff_eq_none] at undeclared
  simp only [resolveType, plain, pure_bind, primitive, resolveUnit, other, if_false, resolveSimple,
    undeclared, bind_assoc]
  apply bind_congr
  intro known
  cases known <;> simp

theorem resolveType_full {full : String} (inside : package ≠ [])
    (undeclared : twin.declaresFull full = false) {place : Position} (ident : Ident)
    (same : fullName package ident.name = full) :
    twin.resolveType manager owner (.path pos false (.plain place (package ++ [ident]))) = (do
      if ← Option.isSome <$> Session.classPathUnit manager full then
        return some (.unit full)
      else
        twin.complain pos (.unknownTypeIn ident.name ("::".intercalate (package.map Ident.name)))
        return none) := by
  have plain : twin.plainNames (σ := σ) (.plain place (package ++ [ident])) =
      pure (some (package.map Ident.name ++ [ident.name])) := by
    have none : ((NamePath.plain place (package ++ [ident])).segments.findSome?
        Segment.arguments) = none := by
      simp [NamePath.plain]
    rw [plainNames, none]
    simp [NamePath.names, NamePath.plain, Function.comp_def]
  obtain ⟨first, second, rest, several⟩ : ∃ first second rest,
      package.map Ident.name ++ [ident.name] = first :: second :: rest := by
    obtain ⟨first, others, rfl⟩ := List.exists_cons_of_ne_nil inside
    cases others <;> exact ⟨_, _, _, rfl⟩
  have last : (first :: second :: rest).getLastD "" = ident.name ∧
      (first :: second :: rest).dropLast = package.map Ident.name := by
    simp [← several]
  have joined : ".".intercalate (first :: second :: rest) = full := by
    rw [← several]
    exact same
  simp only [resolveType, plain, pure_bind, several, resolveUnit, joined, undeclared, last,
    Bool.false_eq_true, if_false, bind_assoc]
  apply bind_congr
  intro known
  cases known <;> simp

structure Lacks (decls : Declarations) (package : List Ident) (name : String) : Prop where
  home : decls.package = packageName package
  undeclared : decls.declares name = false
  undeclaredFull : decls.declaresFull (fullName package name) = false

section
variable {files : σ} {policy : WarningPolicy} {answers : ClassPathAnswers manager files policy}
  (settled : answers.Settles package name)
include settled

theorem resolveType_either (lacks : decls.Lacks package name)
    (unknown : twin.declaresFull (fullName package name) = false) {names : NamePath}
    {ident : Ident} (alone : names.ident? = some ident) (same : ident.name = name)
    (pos pos' place : Position) : Alike (Session.Level answers)
      (decls.resolveType manager owner (.path pos false names))
      (twin.resolveType manager owner (.path pos' false (.plain place (package ++ [ident])))) := by
  have full : fullName package ident.name = fullName package name := by rw [same]
  rw [resolveType_simple lacks.undeclared settled.primitive settled.other alone same,
    resolveType_full settled.inside unknown ident full, lacks.home, ← fullName_eq settled.inside]
  apply (Session.level_listed (fullName_eq settled.inside name).symm settled.quiet
    settled.listed).bind
  intro known
  exact .ite (.pure rfl) (Session.level_refuse none rfl rfl)

theorem resolveType_spellOut (lacks : decls.Lacks package name) (similar : decls.Similar twin)
    (type : TypeTree) : Alike (Session.Level answers) (decls.resolveType manager owner type)
      (twin.resolveType manager owner (type.spellOut package name)) := by
  have kept (type : TypeTree) : Alike (Session.Level answers)
      (decls.resolveType manager owner type) (twin.resolveType manager owner type) := by
    have alike := resolveType_alike (Session.agreement_level answers) similar owner type
    rwa [TypeTree.relocate_id] at alike
  have unknown : twin.declaresFull (fullName package name) = false :=
    (similar.declaresFull _).trans lacks.undeclaredFull
  induction type with
  | paren pos inner ih => exact ih
  | other pos form => exact kept _
  | path pos qualified names =>
      cases qualified with
      | true => exact kept _
      | false =>
          unfold TypeTree.spellOut
          cases alone : names.ident? with
          | none => exact kept _
          | some ident =>
              dsimp only
              split
              · rename_i same
                exact resolveType_either settled lacks unknown alone same pos pos names.pos
              · exact kept _

end

/-! ## Names that a source declares -/

variable {unit : SourceUnit} {file : File} {session : Session σ}

theorem addImports_names (found : List Import) :
    (found.foldlM addImport decls session).1.names ⊆ decls.names ++ found.map Import.name := by
  refine foldlM_induct
    (P := fun done (known : Declarations) _ => known.names ⊆ decls.names ++ done.map Import.name)
    ?_ found (by simp)
  intro done item known state inside
  rw [List.map_append, ← List.append_assoc]
  unfold addImport
  split
  · exact fun name member => List.mem_append_left _ (inside member)
  · intro name member
    have same : known.adding [] [item] = { known with imports := known.imports ++ [item] } := by
      simp [adding]
    have added : name ∈ (known.adding [] [item]).names := same ▸ member
    rcases (mem_names_adding known [] [item] name).mp added with old | new
    · exact List.mem_append_left _ (inside old)
    · exact List.mem_append_right _ (by simpa using new)

theorem addItem_names (item : Item) :
    (decls.addItem item session).1.names ⊆ decls.names ++ item.names := by
  have kept : decls.names ⊆ decls.names ++ item.names := List.subset_append_left _ _
  cases item with
  | struct tree =>
      rcases addStruct_run (run_eta (decls.addStruct tree) session) with ⟨same, -⟩ | ⟨-, added⟩
      · change (decls.addStruct tree session).1.names ⊆ _
        rw [same]
        exact kept
      · change (decls.addStruct tree session).1.names ⊆ _
        have same : decls.withStruct tree = decls.adding [tree] [] := by simp [withStruct, adding]
        rw [added, same]
        intro name member
        exact List.mem_append.mpr ((mem_names_adding decls [tree] [] name).mp member)
  | use tree =>
      change (decls.addUse tree session).1.names ⊆ _
      unfold addUse
      rcases used : importsOf [] tree with ⟨found, problem⟩
      have names : (Item.use tree).names = found.map Import.name := by
        simp [Item.names, Item.struct?, Item.imports, used]
      rw [names]
      cases problem with
      | none => exact addImports_names found
      | some reported => exact addImports_names found
  | impl tree => exact kept
  | other pos => exact kept

theorem resolveImports_names :
    (decls.resolveImports manager session).1.names = decls.names := by
  obtain ⟨imports, reached, mapped, run⟩ :=
    bind_run (run_eta (decls.resolveImports manager) session)
  have named := mapM_resolveImport_names manager decls decls.imports session
  rw [mapped] at named
  rw [← congrArg Prod.fst run, names, names]
  exact congrArg _ named

theorem collect_names : (collect manager file unit session).1.names ⊆
    file.names := by
  let empty : Declarations :=
    { package := unit.package, uri := unit.uri, structs := [], imports := [] }
  obtain ⟨declared, first, run₁, run⟩ := bind_run (run_eta (collect manager file unit) session)
  obtain ⟨resolved, second, run₂, run⟩ := bind_run run
  obtain ⟨_, third, -, run₄⟩ := bind_run run
  have heads : (file.items.foldlM addItem empty session).1.names ⊆ file.items.flatMap Item.names := by
    apply foldlM_induct
      (P := fun done (known : Declarations) _ => known.names ⊆ done.flatMap Item.names)
    case step =>
      intro done item known state inside name member
      rw [List.flatMap_append, List.flatMap_singleton]
      rcases List.mem_append.mp (addItem_names item member) with old | new
      · exact List.mem_append_left _ (inside old)
      · exact List.mem_append_right _ new
    case first => simp [names, empty]
  have implements : resolved.SameHeads (file.items.foldlM addImplOf resolved third).1 := by
    apply foldlM_induct (P := fun _ known _ => resolved.SameHeads known)
    case step =>
      intro _ item known state same
      cases item with
      | impl tree =>
          exact same.trans (addImpl_run manager (run_eta (known.addImpl tree) state)).2
      | _ => exact same
    case first => exact .refl resolved
  have run₄ : file.items.foldlM addImplOf resolved third = _ := run₄
  rw [run₄] at implements
  have kept : resolved.names = declared.names := by
    have same : (declared.resolveImports manager first).1.names = _ := resolveImports_names
    rwa [run₂] at same
  have same : (collect manager file unit session).1.names = resolved.names := by
    rw [names, names, map_name, map_name, implements.trees, implements.imports]
  rw [run₁] at heads
  rw [same, kept]
  exact heads

theorem collect_lacks (home : unit.package = packageName package) (inside : package ≠ [])
    (free : name ∉ file.names) :
    (collect manager file unit session).1.Lacks package name := by
  obtain ⟨-, formed, -⟩ := collect_run (run_eta (collect manager file unit) session)
  have unknown : name ∉ (collect manager file unit session).1.names :=
    fun member => free (collect_names member)
  refine ⟨formed.package.trans home, ?_, ?_⟩
  · rw [← Bool.not_eq_true, declares_iff]
    exact unknown
  · rw [← Bool.not_eq_true]
    intro declared
    obtain ⟨struct, member, full⟩ := List.any_eq_true.mp declared
    have same : Name.qualify unit.package struct.name = Name.qualify unit.package name := by
      rw [← formed.named struct member, of_decide_eq_true full, home, fullName_eq inside]
    refine unknown (List.mem_append_left _ (List.mem_map.mpr ⟨struct, member, ?_⟩))
    exact Name.qualify_injective unit.package same

end Declarations

theorem Source.File.names_relocate (move : Position → Position) (rewrite : TypeTree → TypeTree)
    (file : File) : (file.relocate move rewrite).names = file.names := by
  have each (item : Item) : (item.relocate move rewrite).names = item.names := by
    cases item with
    | use tree =>
        simp only [Item.relocate, Item.names, Item.struct?, Item.imports,
          Declarations.importsOf_relocate.1, List.map_map]
        rfl
    | struct tree | impl tree | other pos => rfl
  simp only [names, relocate, List.flatMap_map, each]

/-! ## Images -/

namespace UnitCompiler

variable {manager : FileManager σ} {files : σ} {policy : WarningPolicy}
  {answers : ClassPathAnswers manager files policy} {package : List Ident} {name : String}

/-- A source has the same images with the package in front of the name. -/
theorem images_spellOut (settled : answers.Settles package name) {file : File} {unit : SourceUnit}
    (home : unit.package = packageName package) (free : name ∉ file.names) :
    Alike (Session.Level answers) (images manager file unit)
      (images manager (file.spellOut package name) unit) := by
  have agree := Session.agreement_level answers
  have moves : Declarations.Moves (Session.Level answers) id (TypeTree.spellOut package name)
      (Declarations.collect manager file unit)
      (Declarations.collect manager (file.spellOut package name) unit) :=
    Declarations.collect_moves agree file unit
  have collects := moves.and_run (P := fun decls => decls.Lacks package name) fun session =>
    Declarations.collect_lacks home settled.inside free
  refine .bind_related collects ?_
  rintro decls twin ⟨lacks, same⟩
  subst same
  have similar := decls.similar_relocate id (TypeTree.spellOut package name)
  apply (UnitSig.ofDeclarations_along agree decls fun struct _ field _ =>
    Declarations.resolveType_spellOut settled lacks similar field.type).bind
  intro sigs
  exact UnitSig.lowerAll_alike agree similar sigs

end UnitCompiler

end UnitForge
