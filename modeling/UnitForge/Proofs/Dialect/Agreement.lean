import UnitForge.Dialect.Signature
import UnitForge.Proofs.Dialect.Collection
import UnitForge.Proofs.Dialect.Relocation
import UnitForge.Proofs.TwoRuns

/-! # Agreement on the class path

The declarations and the signatures of a source depend on a session only through what the class
path holds, and touch it only by asking for that and by reports. Two sessions that agree on the
class path and go on to agree after each report therefore find the same declarations and
signatures. The two sources may stand at different places if the reports do. -/
set_option autoImplicit false
namespace UnitForge

open Source Step

variable {σ τ : Type}

/-- Related sessions agree on what the class path holds, and stay related after they were asked for
it and after reports that differ in their places. -/
structure Session.Agreement (move : Position → Position) (R : Session σ → Session τ → Prop)
    (manager : FileManager σ) (other : FileManager τ) : Prop where
  /-- The place that is given for what has none. -/
  nowhere : move ⟨1, 1⟩ = ⟨1, 1⟩
  report : ∀ diagnostic, Alike R (report diagnostic) (report (diagnostic.relocate move))
  classPathUnit : ∀ name, Alike R (classPathUnit manager name) (classPathUnit other name)
  packageContains : ∀ package simple,
    Alike R (packageContains manager package simple) (packageContains other package simple)

variable {move : Position → Position} {rewrite : TypeTree → TypeTree}
  {R : Session σ → Session τ → Prop} {manager : FileManager σ} {other : FileManager τ}

namespace Declarations

variable {decls twin : Declarations}

section
variable (agree : Session.Agreement move R manager other)
include agree

theorem complain_alike (uri : twin.uri = decls.uri) (pos : Position) (problem : Problem) :
    Alike R (decls.complain pos problem) (twin.complain (move pos) problem) := by
  unfold complain
  rw [uri]
  exact agree.report _

theorem refuse_along {α β : Type} {carry : α → β} (uri : twin.uri = decls.uri) (answer : α)
    (pos : Position) (problem : Problem) :
    Along R carry (do decls.complain pos problem; return answer)
      (do twin.complain (move pos) problem; return carry answer) :=
  (complain_alike agree uri _ _).bind fun _ => .pure rfl

/-! ## Items -/

abbrev Moves (R : Session σ → Session τ → Prop) (move : Position → Position)
    (rewrite : TypeTree → TypeTree) (step : Check σ Declarations) (other : Check τ Declarations) :
    Prop :=
  Along R (relocate move rewrite) step other

omit agree in
theorem relocate_withStruct (decls : Declarations) (tree : StructTree) :
    (decls.withStruct tree).relocate move rewrite =
      (decls.relocate move rewrite).withStruct (tree.relocate move rewrite) := by
  simp [withStruct, relocate, DeclaredStruct.relocate, StructTree.relocate]

theorem addStruct_moves (decls : Declarations) (tree : StructTree) :
    Moves R move rewrite (decls.addStruct tree)
      ((decls.relocate move rewrite).addStruct (tree.relocate move rewrite)) := by
  have declared : Moves R move rewrite (decls.declare tree)
      ((decls.relocate move rewrite).declare (tree.relocate move rewrite)) := by
    unfold declare
    rw [← relocate_withStruct]
    have same : (decls.relocate move rewrite).declares (tree.relocate move rewrite).ident.name =
        decls.declares tree.ident.name :=
      relocate_declares ..
    rw [same]
    exact .ite (refuse_along agree rfl _ _ _) (.pure rfl)
  have told (pos : Position) (problem : Problem) : Alike R (decls.complain pos problem)
      ((decls.relocate move rewrite).complain (move pos) problem) :=
    complain_alike agree rfl pos problem
  obtain ⟨isPublic, ident, generics, fields⟩ := tree
  cases generics with
  | none =>
      cases fields with
      | unnamed pos => exact (told _ _).bind fun _ => declared
      | _ => exact declared
  | some start =>
      apply (told _ _).bind
      intro _
      cases fields with
      | unnamed pos => exact (told _ _).bind fun _ => declared
      | _ => exact declared

theorem addImport_moves (decls : Declarations) (found : Import) :
    Moves R move rewrite (decls.addImport found)
      ((decls.relocate move rewrite).addImport (found.relocate move)) := by
  unfold addImport
  have same : (decls.relocate move rewrite).declares (found.relocate move).name =
      decls.declares found.name :=
    relocate_declares ..
  rw [same]
  refine .ite (refuse_along agree rfl _ _ _) (.pure ?_)
  simp [relocate]

omit agree in
theorem importsOf_relocate :
    (∀ path tree, importsOf path (UseTree.relocate move tree) =
      ((importsOf path tree).1.map (·.relocate move),
        (importsOf path tree).2.map fun (pos, problem) => (move pos, problem))) ∧
    ∀ path trees, importsOfAll path (UseTree.relocateAll move trees) =
      ((importsOfAll path trees).1.map (·.relocate move),
        (importsOfAll path trees).2.map fun (pos, problem) => (move pos, problem)) := by
  apply importsOf.mutual_induct
  case case1 =>
    intro path ident tree relative
    rw [UseTree.relocate, importsOf, importsOf, Ident.relocate_name, if_pos relative,
      if_pos relative]
    rfl
  case case2 =>
    intro path ident tree absolute ih
    rw [UseTree.relocate, importsOf, importsOf, Ident.relocate_name, if_neg absolute,
      if_neg absolute]
    exact ih
  case case3 | case4 =>
    intros
    rfl
  case case5 =>
    intros
    rfl
  case case6 =>
    intro path trees ih
    simp [UseTree.relocate, importsOf, ih]
  case case7 =>
    intro path
    rfl
  case case8 =>
    intro path first rest found problem stops ih
    simp [UseTree.relocateAll, importsOfAll, ih, stops]
  case case9 =>
    intro path first rest found goes others problem remaining ih ihRest
    simp [UseTree.relocateAll, importsOfAll, ih, goes, ihRest]

theorem addUse_moves (decls : Declarations) (tree : UseTree) :
    Moves R move rewrite (decls.addUse tree)
      ((decls.relocate move rewrite).addUse (tree.relocate move)) := by
  have all (found : List Import) : Moves R move rewrite (found.foldlM addImport decls)
      ((found.map (·.relocate move)).foldlM addImport (decls.relocate move rewrite)) :=
    .foldlM (addImport_moves agree) found decls
  unfold addUse
  rw [importsOf_relocate.1]
  rcases importsOf [] tree with ⟨found, problem⟩
  cases problem with
  | none => exact all found
  | some reported => exact (complain_alike agree rfl _ _).bind fun _ => all found

theorem addItem_moves (decls : Declarations) (item : Item) :
    Moves R move rewrite (decls.addItem item)
      ((decls.relocate move rewrite).addItem (item.relocate move rewrite)) := by
  cases item with
  | struct tree => exact addStruct_moves agree decls tree
  | use tree => exact addUse_moves agree decls tree
  | impl tree => exact .pure rfl
  | other pos => exact refuse_along agree rfl _ _ _

theorem resolveImport_along (similar : decls.Similar twin) (found : Import) :
    Along R (·.relocate move) (decls.resolveImport manager found)
      (twin.resolveImport other (found.relocate move)) := by
  have finish (resolved : Bool) : Along R (·.relocate move)
      (do
        if !resolved then
          let path := Text.replaceChar '.' "::" found.fullName
          decls.complain found.pos (.unresolvedImport path)
        return { found with resolved })
      (do
        if !resolved then
          let path := Text.replaceChar '.' "::" found.fullName
          twin.complain (move found.pos) (.unresolvedImport path)
        return { found.relocate move with resolved }) := by
    cases resolved with
    | true => exact .pure rfl
    | false => exact (complain_alike agree similar.uri _ _).bind fun _ => .pure rfl
  unfold resolveImport
  have same : twin.declaresFull (found.relocate move).fullName =
      decls.declaresFull found.fullName :=
    similar.declaresFull _
  rw [same]
  by_cases declared : decls.declaresFull found.fullName = true
  · simp only [declared, if_true]
    exact .bind (.pure (Q := Eq) rfl) finish
  · simp only [declared]
    exact (Alike.map _ (agree.classPathUnit _)).bind finish

theorem resolveImports_moves (decls : Declarations) :
    Moves R move rewrite (decls.resolveImports manager)
      ((decls.relocate move rewrite).resolveImports other) :=
  .bind (.mapM _ fun found _ => resolveImport_along agree (similar_relocate ..) found)
    fun _ => .pure rfl

theorem checkPublic_alike (decls : Declarations) (unit : SourceUnit) :
    Alike R (decls.checkPublic unit) ((decls.relocate move rewrite).checkPublic unit) := by
  refine .forM_map ?_ decls.structs
  intro struct
  exact .ite (complain_alike agree rfl _ _) (.pure rfl)

/-! ## Impl blocks -/

omit agree in
theorem relocate_addFunction (decls : Declarations) (target : String) (function : FunctionTree) :
    (decls.addFunction target function).relocate move rewrite =
      (decls.relocate move rewrite).addFunction target (function.relocate move) := by
  simp only [addFunction, relocate, List.map_map]
  congr 1
  apply List.map_congr_left
  intro struct _
  rw [Function.comp_apply, Function.comp_apply, DeclaredStruct.relocate_name]
  split
  · simp [DeclaredStruct.relocate]
  · rfl

theorem addImplItem_moves (isDefault : Bool) (target : String) (decls : Declarations)
    (item : ImplItem) : Moves R move rewrite (addImplItem isDefault target decls item)
      (addImplItem isDefault target (decls.relocate move rewrite) (item.relocate move)) := by
  cases item with
  | other pos => exact refuse_along agree rfl _ _ _
  | function function =>
      unfold addImplItem ImplItem.relocate
      dsimp only
      have known : (((decls.relocate move rewrite).struct? target).map
            DeclaredStruct.functions).getD [] =
          (((decls.struct? target).map DeclaredStruct.functions).getD []).map
            (·.relocate move) := by
        rw [relocate_struct?]
        cases decls.struct? target <;> rfl
      rw [known, List.any_map, ← relocate_addFunction]
      exact .ite (refuse_along agree rfl _ _ _)
        (.ite (refuse_along agree rfl _ _ _) (.pure rfl))

omit agree in
theorem relocate_targetName? (tree : ImplTree) :
    targetName? (tree.relocate move) = targetName? tree := by
  obtain ⟨pos, generic, isUnsafe, ofTrait, target, items⟩ := tree
  cases target with
  | path pos qualified names =>
      cases qualified with
      | true => rfl
      | false =>
          change ((names.relocate move).ident?).map Ident.name = names.ident?.map Ident.name
          rw [NamePath.ident?_relocate, Option.map_map]
          rfl
  | paren | other => rfl

omit agree in
theorem relocate_isDefaultTrait (negated : Bool) (names : NamePath) :
    isDefaultTrait negated (names.relocate move) = isDefaultTrait negated names := by
  unfold isDefaultTrait
  rw [NamePath.relocate, List.getLast?_map]
  cases names.segments.getLast? <;> rfl

theorem addImpl_moves (decls : Declarations) (tree : ImplTree) :
    Moves R move rewrite (decls.addImpl tree)
      ((decls.relocate move rewrite).addImpl (tree.relocate move)) := by
  have addTo (isDefault : Bool) : Moves R move rewrite (addImpl.addTo decls tree isDefault)
      (addImpl.addTo (decls.relocate move rewrite) (tree.relocate move) isDefault) := by
    unfold addImpl.addTo
    rw [relocate_targetName?]
    simp only [relocate_struct?, Option.isSome_map]
    cases (targetName? tree).filter fun name => (decls.struct? name).isSome with
    | none =>
        rw [ImplTree.relocate, TypeTree.relocate_pos]
        exact refuse_along agree rfl _ _ _
    | some target => exact .foldlM (addImplItem_moves agree isDefault target) _ _
  unfold addImpl
  refine .ite (refuse_along agree rfl _ _ _) ?_
  obtain ⟨pos, generic, isUnsafe, ofTrait, target, items⟩ := tree
  cases ofTrait with
  | none => exact addTo false
  | some header =>
      obtain ⟨negated, names⟩ := header
      dsimp only [ImplTree.relocate, Option.map_some]
      rw [relocate_isDefaultTrait]
      exact .ite (addTo true) (refuse_along agree rfl _ _ _)

theorem collect_moves (file : File) (unit : SourceUnit) :
    Moves R move rewrite (collect manager file unit)
      (collect other (file.relocate move rewrite) unit) := by
  refine .bind (.foldlM (addItem_moves agree) _ _) ?_
  intro declared
  apply (resolveImports_moves agree declared).bind
  intro resolved
  apply (checkPublic_alike agree resolved unit).bind
  intro _
  refine Along.foldlM ?_ _ _
  intro decls item
  cases item with
  | impl tree => exact addImpl_moves agree decls tree
  | _ => exact .pure rfl

/-! ## Types -/

theorem plainNames_alike (uri : twin.uri = decls.uri) (path : NamePath) :
    Alike R (decls.plainNames path) (twin.plainNames (path.relocate move)) := by
  unfold plainNames
  rw [NamePath.arguments_relocate, NamePath.names_relocate]
  cases path.segments.findSome? Segment.arguments with
  | none => exact .pure rfl
  | some arguments => exact refuse_along agree uri _ _ _

variable (similar : decls.Similar twin)
include similar

theorem resolveSimple_alike (name : String) (pos : Position) :
    Alike R (decls.resolveSimple manager name pos)
      (twin.resolveSimple other name (move pos)) := by
  unfold resolveSimple
  have structs := similar.struct? name
  have imports := similar.imported? name
  cases declared : decls.struct? name with
  | some struct =>
      rw [declared] at structs
      obtain ⟨image, known, same⟩ := Option.map_eq_some_iff.mp structs
      rw [known]
      dsimp only
      rw [same]
      exact .pure rfl
  | none =>
      rw [declared] at structs
      rw [Option.map_eq_none_iff.mp structs]
      cases imported : decls.import? name with
      | some found =>
          rw [imported] at imports
          obtain ⟨image, known, same⟩ := Option.map_eq_some_iff.mp imports
          obtain ⟨fullName, resolved⟩ := Prod.mk.inj same
          rw [known]
          dsimp only
          rw [fullName, resolved]
          exact .pure rfl
      | none =>
          rw [imported] at imports
          rw [Option.map_eq_none_iff.mp imports, similar.package]
          apply (agree.packageContains _ _).bind
          intro known
          exact .ite (.pure rfl) (refuse_along agree similar.uri _ _ _)

theorem resolveUnit_alike (owner : String) (names : List String) (pos : Position) :
    Alike R (decls.resolveUnit manager owner names pos)
      (twin.resolveUnit other owner names (move pos)) := by
  have finish (full : String) (problem : Problem) (known : Bool) : Alike R
      (if known = true then pure (some full) else do decls.complain pos problem; return none)
      (if known = true then pure (some full)
        else do twin.complain (move pos) problem; return none) :=
    .ite (.pure rfl) (refuse_along agree similar.uri _ _ _)
  match names with
  | [name] => exact resolveSimple_alike agree similar _ _
  | [] | _ :: _ :: _ =>
      simp only [resolveUnit, similar.declaresFull]
      refine .ite (.bind (.pure (Q := Eq) rfl) (finish _ _)) (.bind (Alike.map _ ?_) (finish _ _))
      exact agree.classPathUnit _

theorem resolveType_alike (owner : String) (type : TypeTree) :
    Alike R (decls.resolveType manager owner type)
      (twin.resolveType other owner (type.relocate move)) := by
  induction type with
  | paren pos inner ih => exact ih
  | path pos qualified path =>
      cases qualified with
      | true => exact refuse_along agree similar.uri _ _ _
      | false =>
          apply (plainNames_alike agree similar.uri path).bind
          intro names
          cases names with
          | none => exact .pure rfl
          | some names =>
              have unit : Alike R
                  (do return (← decls.resolveUnit manager owner names pos).map TypeRef.unit)
                  (do return (← twin.resolveUnit other owner names (move pos)).map .unit) :=
                .bind (resolveUnit_alike agree similar _ _ _) fun _ => .pure rfl
              dsimp only
              split
              · exact .pure rfl
              · exact unit
  | other pos form => exact refuse_along agree similar.uri _ _ _

end

end Declarations

namespace UnitSig

variable {decls twin : Declarations} (agree : Session.Agreement move R manager other)
  (similar : decls.Similar twin)
include agree similar

open Declarations

/-! ## Signatures -/

theorem fieldSigs_alike (owner : String) (fields : List FieldTree)
    (types : ∀ field ∈ fields, Alike R (decls.resolveType manager owner field.type)
      (twin.resolveType other owner (rewrite field.type))) (known : List FieldSig) :
    Alike R (fieldSigs manager decls owner known fields)
      (fieldSigs other twin owner known (fields.map (·.relocate move rewrite))) := by
  induction fields generalizing known with
  | nil => exact .pure rfl
  | cons field rest ih =>
      have later := ih fun field member => types field (List.mem_cons_of_mem _ member)
      exact .ite (.bind (complain_alike agree similar.uri _ _) fun _ => later _)
        (.bind (types field List.mem_cons_self) fun _ => later _)

theorem paramSigs_along (owner : String) (params : List ParamTree) (known : List ParamSig) :
    Along R (Option.map (List.map (·.relocate move))) (paramSigs manager decls owner known params)
      (paramSigs other twin owner (known.map (·.relocate move))
        (params.map (·.relocate move))) := by
  induction params generalizing known with
  | nil => exact .pure rfl
  | cons param rest ih =>
      obtain ⟨pattern, type⟩ := param
      have refused (pos : Position) : Along R (Option.map (List.map (ParamSig.relocate move)))
          (do decls.complain pos .parameterPattern; return none)
          (do twin.complain (move pos) .parameterPattern; return none) :=
        refuse_along agree similar.uri none pos .parameterPattern
      cases pattern with
      | ident pos isPlain ident =>
          cases isPlain with
          | false => exact refused pos
          | true =>
              have same : (known.map (·.relocate move)).any (·.name = (ident.relocate move).name) =
                  known.any (·.name = ident.name) := by
                rw [List.any_map]
                rfl
              rw [List.map_cons]
              simp only [paramSigs, ParamTree.relocate, Pattern.relocate]
              rw [same]
              refine .ite ((complain_alike agree similar.uri _ _).bind fun _ => ih _) ?_
              apply (resolveType_alike agree similar _ _).bind
              intro type
              have more := ih (known ++ [{ name := ident.name, type, pos := ident.pos }])
              rwa [List.map_append] at more
      | openRange pos dots => exact refused pos
      | other pos => exact refused pos

omit agree similar in
theorem returnsOwner_relocate (owner : String) (function : FunctionTree) :
    returnsOwner owner (function.relocate move) = returnsOwner owner function := by
  obtain ⟨_, _, _, _, _, output, _, _⟩ := function
  cases output with
  | none => rfl
  | some type =>
      cases type with
      | path pos qualified names =>
          cases qualified with
          | true => rfl
          | false =>
              simp only [returnsOwner, FunctionTree.relocate, Option.map_some, TypeTree.relocate,
                NamePath.ident?_relocate]
              cases names.ident? <;> rfl
      | paren | other => rfl

theorem constructorSig_along (owner : String) (function : FunctionTree) :
    Along R (Option.map (·.relocate move)) (constructorSig manager decls owner function)
      (constructorSig other twin owner (function.relocate move)) := by
  unfold constructorSig
  rw [returnsOwner_relocate]
  refine .ite (refuse_along agree similar.uri _ _ _) ?_
  have rest : Along R (Option.map (·.relocate move))
      (do
        if !returnsOwner owner function then
          decls.complain function.ident.pos (.returnsOther function.ident.name)
          return none
        let params ← paramSigs manager decls owner [] function.params
        return params.map fun params =>
          ({ name := function.ident.name, params, function := some function } : ConstructorSig))
      (do
        if !returnsOwner owner function then
          twin.complain (move function.ident.pos) (.returnsOther function.ident.name)
          return none
        let params ← paramSigs other twin owner [] (function.params.map (·.relocate move))
        return params.map fun params =>
          ({ name := function.ident.name, params, function := some (function.relocate move) } :
            ConstructorSig)) := by
    refine .ite (refuse_along agree similar.uri _ _ _) ?_
    apply (paramSigs_along agree similar _ _ []).bind
    intro params
    refine .pure ?_
    cases params <;> rfl
  obtain ⟨_, _, _, receiver, _, _, _, _⟩ := function
  cases receiver with
  | some pos => exact refuse_along agree similar.uri _ _ _
  | none => exact rest

theorem warnOfTwins_alike (earlier later : List ConstructorSig) :
    Alike R (warnOfTwins decls earlier later)
      (warnOfTwins twin (earlier.map (·.relocate move)) (later.map (·.relocate move))) := by
  induction later generalizing earlier with
  | nil => exact .pure rfl
  | cons next rest ih =>
      have found : (earlier.map (·.relocate move)).find? (·.sameTypes (next.relocate move)) =
          (earlier.find? (·.sameTypes next)).map (·.relocate move) := by
        rw [List.find?_map]
        simp only [Function.comp_def, ConstructorSig.relocate_sameTypes]
      have more := ih (earlier ++ [next])
      rw [List.map_append] at more
      rw [List.map_cons, warnOfTwins, warnOfTwins, found]
      cases earlier.find? (·.sameTypes next) with
      | none => exact more
      | some first =>
          obtain ⟨name, params, function⟩ := next
          cases function with
          | none => exact more
          | some function =>
              exact .bind (complain_alike agree similar.uri _ _) fun _ => more

theorem ofStruct_along (struct : DeclaredStruct)
    (types : ∀ field ∈ namedFields struct.tree.fields,
      Alike R (decls.resolveType manager struct.name field.type)
        (twin.resolveType other struct.name (rewrite field.type))) :
    Along R (·.relocate move) (ofStruct manager decls struct)
      (ofStruct other twin (struct.relocate move rewrite)) := by
  have named : namedFields (struct.relocate move rewrite).tree.fields =
      (namedFields struct.tree.fields).map (·.relocate move rewrite) := by
    obtain ⟨⟨_, _, _, fields⟩, _, _⟩ := struct
    cases fields <;> rfl
  have empty : (struct.relocate move rewrite).functions.isEmpty = struct.functions.isEmpty :=
    List.isEmpty_map
  unfold ofStruct
  rw [named, empty]
  apply (fieldSigs_alike agree similar _ _ types []).bind
  intro fields
  refine .bind (.filterMapM (constructorSig_along agree similar _) _) ?_
  intro found
  have constructors : (if struct.functions.isEmpty then [ConstructorSig.implicit]
        else found.map (·.relocate move)) =
      (if struct.functions.isEmpty then [.implicit] else found).map (·.relocate move) := by
    split <;> rfl
  dsimp only
  rw [constructors]
  exact (warnOfTwins_alike agree similar [] _).bind fun _ => .pure rfl

omit similar in
theorem ofDeclarations_along (decls : Declarations)
    (types : ∀ struct ∈ decls.structs, ∀ field ∈ namedFields struct.tree.fields,
      Alike R (decls.resolveType manager struct.name field.type)
        ((decls.relocate move rewrite).resolveType other struct.name (rewrite field.type))) :
    Along R (List.map (·.relocate move)) (ofDeclarations manager decls)
      (ofDeclarations other (decls.relocate move rewrite)) :=
  .mapM _ fun struct member =>
    ofStruct_along agree (similar_relocate ..) struct (types struct member)

end UnitSig

end UnitForge
