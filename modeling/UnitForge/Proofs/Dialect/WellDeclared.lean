import UnitForge.Proofs.Dialect.Collection
import Mathlib.Data.List.Nodup

/-! # Sources whose declarations are in order

Collecting the declarations of a source delivers no error just if every item is of a supported form,
no name is declared twice, every impl block belongs to a struct, and no struct has two functions of
the same name. Then nothing is reported at all, and what is collected can be read off the items: the
structs and the imports in their order, each struct with the functions of its impl blocks. -/
set_option autoImplicit false
namespace UnitForge

open Source Step

variable {σ α β : Type}

/-! ## Gates -/

/-- A step that gives a result and leaves the session as it is under a condition, and reports an
error otherwise. -/
structure Check.Gate (manager : FileManager σ) (condition : Prop) (result : α)
    (step : Check σ α) : Prop where
  grows : Check.Extends manager step
  passes : condition → ∀ session, step session = (result, session)
  refuses : ¬condition → ∀ session, ¬(step session).2.Clean

/-- A condition on each item of a list, as the items before it have been taken in. -/
def Admits (fits : β → α → Prop) (next : β → α → β) : β → List α → Prop
  | _, [] => True
  | known, item :: rest => fits known item ∧ Admits fits next (next known item) rest

namespace Check.Gate

variable {manager : FileManager σ} {condition other : Prop} {result : α} {step : Check σ α}

theorem of_clean (gate : Gate manager condition result step) {before after : Session σ} {value : α}
    (run : step before = (value, after)) (clean : after.Clean) :
    condition ∧ value = result ∧ after = before := by
  have holds : condition := by
    by_contra fails
    have := gate.refuses fails before
    rw [run] at this
    exact this clean
  have passed := gate.passes holds before
  rw [run] at passed
  exact ⟨holds, congrArg Prod.fst passed, congrArg Prod.snd passed⟩

theorem congr (gate : Gate manager condition result step) (same : condition ↔ other) :
    Gate manager other result step :=
  propext same ▸ gate

theorem pure (value : α) : Gate manager True value (Pure.pure value) where
  grows := .pure _
  passes _ _ := rfl
  refuses never := absurd trivial never

theorem refuse_bind {decls : Declarations} {pos : Position} {problem : Problem}
    {next : Unit → Check σ α} (grave : problem.severity = .error)
    (grows : Check.Extends manager (next ())) :
    Gate manager False result (decls.complain pos problem >>= next) where
  grows := .bind (Declarations.complain_extends _ _) fun _ => grows
  passes never := never.elim
  refuses _ session clean :=
    Declarations.not_clean_complain grave session ((grows _).clean clean)

theorem refuse {decls : Declarations} {pos : Position} {problem : Problem} {answer : α}
    (grave : problem.severity = .error) :
    Gate manager False result (do decls.complain pos problem; return answer) :=
  refuse_bind grave (.pure _)

theorem guarded {refused : Prop} [Decidable refused] {stop : Check σ α}
    (stops : Gate manager False result stop) (gate : Gate manager condition result step) :
    Gate manager (¬refused ∧ condition) result (if refused then stop else step) := by
  by_cases holds : refused
  · simp only [holds, if_true, not_true, false_and]
    exact stops
  · simp only [holds, if_false, not_false_iff, true_and]
    exact gate

theorem required {needed : Prop} [Decidable needed] {stop : Check σ α}
    (stops : Gate manager False result stop) (gate : Gate manager condition result step) :
    Gate manager (needed ∧ condition) result (if needed then step else stop) := by
  by_cases holds : needed
  · simp only [holds, if_true, true_and]
    exact gate
  · simp only [holds, if_false, false_and]
    exact stops

theorem bind {next : α → Check σ β} {final : β} (first : Gate manager condition result step)
    (grows : ∀ value, Check.Extends manager (next value))
    (rest : Gate manager other final (next result)) :
    Gate manager (condition ∧ other) final (step >>= next) where
  grows := .bind first.grows grows
  passes := by
    intro ⟨holds, later⟩ session
    rw [bind_of_run (first.passes holds session)]
    exact rest.passes later session
  refuses := by
    intro fails session clean
    have middle : (step session).2.Clean := (grows _ (step session).2).clean clean
    obtain ⟨holds, same, unchanged⟩ := first.of_clean (run_eta step session) middle
    change ¬_ at fails
    have passed := first.passes holds session
    rw [bind_of_run passed] at clean
    exact rest.refuses (fun later => fails ⟨holds, later⟩) session clean

theorem foldlM {f : β → α → Check σ β} {fits : β → α → Prop} {next : β → α → β}
    (each : ∀ known item, Gate manager (fits known item) (next known item) (f known item))
    (items : List α) (start : β) :
    Gate manager (Admits fits next start items) (items.foldl next start)
      (items.foldlM f start) := by
  induction items generalizing start with
  | nil => exact pure start
  | cons first rest ih =>
      refine bind (each start first) ?_ (ih (next start first))
      intro known
      exact .foldlM (fun known item => (each known item).grows) rest known

end Check.Gate

open Check (Gate)

/-! ## Names -/

def Unused (taken new : List String) : Prop :=
  new.Nodup ∧ ∀ name ∈ new, name ∉ taken

theorem unused_nil (taken : List String) : Unused taken [] :=
  ⟨List.nodup_nil, nofun⟩

theorem unused_single {taken : List String} {name : String} :
    Unused taken [name] ↔ name ∉ taken := by
  simp [Unused]

theorem unused_append {taken more new others : List String}
    (mem : ∀ name, name ∈ more ↔ name ∈ taken ∨ name ∈ new) :
    Unused taken (new ++ others) ↔ Unused taken new ∧ Unused more others := by
  simp only [Unused, mem, List.nodup_append, List.mem_append]
  constructor
  · rintro ⟨⟨first, second, apart⟩, free⟩
    refine ⟨⟨first, fun name member => free name (.inl member)⟩, second, ?_⟩
    rintro name member (old | earlier)
    · exact free name (.inr member) old
    · exact apart name earlier name member rfl
  · rintro ⟨⟨first, free⟩, second, later⟩
    refine ⟨⟨first, second, ?_⟩, ?_⟩
    · rintro name earlier _ member rfl
      exact later name member (.inr earlier)
    · rintro name (earlier | member)
      · exact free name earlier
      · exact fun old => later name member (.inl old)

/-! ## Structs and imports -/

def Source.Item.imports : Item → List Import
  | .use tree => (Declarations.importsOf [] tree).1
  | _ => []

def Source.Item.names (item : Item) : List String :=
  item.struct?.toList.map (·.ident.name) ++ item.imports.map Import.name

def Source.Item.Supported : Item → Prop
  | .struct tree => tree.generics = none ∧ ∀ pos, tree.fields ≠ .unnamed pos
  | .use tree => (Declarations.importsOf [] tree).2 = none
  | .impl _ => True
  | .other _ => False

namespace Declarations

variable {manager : FileManager σ}

def names (decls : Declarations) : List String :=
  decls.structs.map DeclaredStruct.name ++ decls.imports.map Import.name

def adding (decls : Declarations) (trees : List StructTree) (imports : List Import) :
    Declarations :=
  { decls with
    structs := decls.structs ++ trees.map fun tree =>
      { tree, fullName := Name.qualify decls.package tree.ident.name, functions := [] }
    imports := decls.imports ++ imports }

theorem adding_nil (decls : Declarations) : decls.adding [] [] = decls := by
  simp [adding]

theorem adding_adding (decls : Declarations) (trees more : List StructTree)
    (imports others : List Import) :
    (decls.adding trees imports).adding more others =
      decls.adding (trees ++ more) (imports ++ others) := by
  simp [adding]

theorem mem_names_adding (decls : Declarations) (trees : List StructTree) (imports : List Import)
    (name : String) : name ∈ (decls.adding trees imports).names ↔
      name ∈ decls.names ∨ name ∈ trees.map (·.ident.name) ++ imports.map Import.name := by
  have same : (DeclaredStruct.name ∘ fun tree : StructTree =>
      { tree, fullName := Name.qualify decls.package tree.ident.name, functions := [] }) =
        fun tree => tree.ident.name := rfl
  simp only [names, adding, List.map_append, List.mem_append, List.map_map, same]
  tauto

theorem declares_iff {decls : Declarations} {name : String} :
    decls.declares name = true ↔ name ∈ decls.names := by
  simp [declares, names, struct?, import?, List.find?_isSome]

theorem addImport_gate (decls : Declarations) (found : Import) :
    Gate manager (Unused decls.names [found.name]) (decls.adding [] [found])
      (decls.addImport found) := by
  have same : decls.adding [] [found] = { decls with imports := decls.imports ++ [found] } := by
    simp [adding]
  have gate : Gate manager (¬decls.declares found.name = true ∧ True) (decls.adding [] [found])
      (decls.addImport found) := by
    rw [same]
    exact .guarded (.refuse rfl) (.pure _)
  exact gate.congr (by rw [unused_single, ← declares_iff, and_true])

theorem addImports_gate (decls : Declarations) (found : List Import) :
    Gate manager (Unused decls.names (found.map Import.name)) (decls.adding [] found)
      (found.foldlM addImport decls) := by
  have admits (found : List Import) (decls : Declarations) :
      Admits (fun decls found => Unused decls.names [found.name])
          (fun decls found => decls.adding [] [found]) decls found ↔
        Unused decls.names (found.map Import.name) := by
    induction found generalizing decls with
    | nil => simp [Admits, unused_nil]
    | cons first rest ih =>
        rw [Admits, ih]
        exact (unused_append (mem_names_adding decls [] [first])).symm
  have folded (found : List Import) (decls : Declarations) :
      found.foldl (fun decls found => decls.adding [] [found]) decls = decls.adding [] found := by
    induction found generalizing decls with
    | nil => exact (adding_nil decls).symm
    | cons first rest ih => rw [List.foldl_cons, ih, adding_adding]; rfl
  have gate : Gate manager _ _ (found.foldlM addImport decls) := .foldlM addImport_gate found decls
  rw [folded] at gate
  exact gate.congr (admits found decls)

theorem addStruct_gate (decls : Declarations) (tree : StructTree) :
    Gate manager ((Item.struct tree).Supported ∧ Unused decls.names [tree.ident.name])
      (decls.adding [tree] []) (decls.addStruct tree) := by
  have same : decls.adding [tree] [] = decls.withStruct tree := by
    simp [adding, withStruct]
  have declares : Gate manager (Unused decls.names [tree.ident.name]) (decls.adding [tree] [])
      (decls.declare tree) := by
    have gate : Gate manager (¬decls.declares tree.ident.name = true ∧ True)
        (decls.adding [tree] []) (decls.declare tree) := by
      rw [same]
      exact .guarded (.refuse rfl) (.pure _)
    exact gate.congr (by rw [unused_single, ← declares_iff, and_true])
  obtain ⟨isPublic, ident, generics, fields⟩ := tree
  cases generics with
  | some start =>
      have gate : Gate manager False (decls.adding [⟨isPublic, ident, some start, fields⟩] [])
          (decls.addStruct ⟨isPublic, ident, some start, fields⟩) := by
        refine .refuse_bind rfl ?_
        cases fields with
        | unnamed pos => exact .bind (complain_extends _ _) fun _ => declare_extends _ _
        | named | unit => exact declare_extends _ _
      apply gate.congr
      simp [Item.Supported]
  | none =>
      cases fields with
      | unnamed pos =>
          have gate : Gate manager False (decls.adding [⟨isPublic, ident, none, .unnamed pos⟩] [])
              (decls.addStruct ⟨isPublic, ident, none, .unnamed pos⟩) :=
            .refuse_bind rfl (declare_extends _ _)
          apply gate.congr
          simp [Item.Supported]
      | named | unit =>
          apply declares.congr
          simp [Item.Supported]

theorem importsOf_grave :
    (∀ path tree, ∀ reported ∈ (importsOf path tree).2, reported.2.severity = .error) ∧
      ∀ path trees, ∀ reported ∈ (importsOfAll path trees).2, reported.2.severity = .error := by
  apply importsOf.mutual_induct
  case case1 =>
    intro path ident tree relative
    rw [importsOf, if_pos relative]
    rintro _ ⟨⟩
    rfl
  case case2 =>
    intro path ident tree absolute ih
    rw [importsOf, if_neg absolute]
    exact ih
  case case3 | case4 | case7 =>
    intros
    contradiction
  case case5 =>
    rintro path pos _ ⟨⟩
    rfl
  case case6 =>
    intro path trees ih
    rwa [importsOf]
  case case8 =>
    intro path first rest found problem stops ih
    rw [stops] at ih
    rw [importsOfAll, stops]
    exact ih
  case case9 =>
    intro path first rest found goes others problem remaining ih ihRest
    rw [importsOfAll, goes]
    exact ihRest

theorem addUse_gate (decls : Declarations) (tree : UseTree) :
    Gate manager ((Item.use tree).Supported ∧
        Unused decls.names ((Item.use tree).imports.map Import.name))
      (decls.adding [] (Item.use tree).imports) (decls.addUse tree) := by
  have grave := importsOf_grave.1 [] tree
  simp only [Item.Supported, Item.imports, addUse]
  rcases used : importsOf [] tree with ⟨found, problem⟩
  rw [used] at grave
  have all : Gate manager _ _ (found.foldlM addImport decls) := addImports_gate decls found
  cases problem with
  | none => exact all.congr ⟨fun unused => ⟨rfl, unused⟩, And.right⟩
  | some reported =>
      obtain ⟨pos, problem⟩ := reported
      have gate : Gate manager False (decls.adding [] found)
          (decls.complain pos problem >>= fun _ => found.foldlM addImport decls) :=
        .refuse_bind (grave (pos, problem) rfl) all.grows
      apply gate.congr
      simp

theorem addItem_gate (decls : Declarations) (item : Item) :
    Gate manager (item.Supported ∧ Unused decls.names item.names)
      (decls.adding item.struct?.toList item.imports) (decls.addItem item) := by
  cases item with
  | struct tree => exact addStruct_gate decls tree
  | use tree => exact addUse_gate decls tree
  | impl tree =>
      have gate : Gate manager True (decls.adding [] []) (decls.addItem (.impl tree)) := by
        rw [adding_nil]
        exact .pure decls
      apply gate.congr
      simp [Item.Supported, Item.names, Item.struct?, Item.imports, unused_nil]
  | other pos =>
      have gate : Gate manager False (decls.adding [] []) (decls.addItem (.other pos)) :=
        .refuse rfl
      apply gate.congr
      simp [Item.Supported]

theorem addItems_gate (decls : Declarations) (items : List Item) :
    Gate manager ((∀ item ∈ items, item.Supported) ∧ Unused decls.names (items.flatMap Item.names))
      (decls.adding (items.filterMap Item.struct?) (items.flatMap Item.imports))
      (items.foldlM addItem decls) := by
  have admits (items : List Item) (decls : Declarations) :
      Admits (fun decls item => item.Supported ∧ Unused decls.names item.names)
          (fun decls item => decls.adding item.struct?.toList item.imports) decls items ↔
        (∀ item ∈ items, item.Supported) ∧ Unused decls.names (items.flatMap Item.names) := by
    induction items generalizing decls with
    | nil => simp [Admits, unused_nil]
    | cons first rest ih =>
        have mem (name : String) :
            name ∈ (decls.adding first.struct?.toList first.imports).names ↔
              name ∈ decls.names ∨ name ∈ first.names :=
          mem_names_adding decls _ _ name
        rw [Admits, ih, List.forall_mem_cons, List.flatMap_cons, unused_append mem]
        exact and_and_and_comm
  have folded (items : List Item) (decls : Declarations) :
      items.foldl (fun decls item => decls.adding item.struct?.toList item.imports) decls =
        decls.adding (items.filterMap Item.struct?) (items.flatMap Item.imports) := by
    induction items generalizing decls with
    | nil => exact (adding_nil decls).symm
    | cons first rest ih =>
        rw [List.foldl_cons, ih, adding_adding, List.flatMap_cons, List.filterMap_cons]
        cases first.struct? <;> rfl
  have gate : Gate manager _ _ (items.foldlM addItem decls) := .foldlM addItem_gate items decls
  rw [folded] at gate
  exact gate.congr (admits items decls)

end Declarations

/-! ## Impl blocks -/

def Source.ImplItem.function? : ImplItem → Option FunctionTree
  | .function tree => some tree
  | .other _ => none

def Source.Item.impl? : Item → Option ImplTree
  | .impl tree => some tree
  | _ => none

namespace Source.ImplTree

def functions (tree : ImplTree) : List FunctionTree :=
  tree.items.filterMap ImplItem.function?

def gives (tree : ImplTree) (name : String) : List FunctionTree :=
  if Declarations.targetName? tree = some name then tree.functions else []

@[mk_iff]
structure Supported (tree : ImplTree) : Prop where
  plain : (tree.isGeneric || tree.isUnsafe) = false
  header : ∀ header ∈ tree.ofTrait, Declarations.isDefaultTrait header.1 header.2 = true
  items : ∀ item ∈ tree.items, item.function?.isSome = true
  named : tree.ofTrait.isSome = true → ∀ function ∈ tree.functions,
    function.ident.name = "default"

end Source.ImplTree

namespace Declarations

variable {manager : FileManager σ}

def functionsOf (decls : Declarations) (name : String) : List FunctionTree :=
  ((decls.struct? name).map DeclaredStruct.functions).getD []

def gaining (decls : Declarations) (more : String → List FunctionTree) : Declarations :=
  { decls with structs := decls.structs.map fun struct =>
      { struct with functions := struct.functions ++ more struct.name } }

/-- Functions of distinct names that no function of the struct has. -/
def UnusedIn (decls : Declarations) (name : String) (new : List FunctionTree) : Prop :=
  Unused ((decls.functionsOf name).map (·.ident.name)) (new.map (·.ident.name))

def functionsFor (blocks : List ImplTree) (name : String) : List FunctionTree :=
  blocks.flatMap (·.gives name)

theorem gaining_gaining (decls : Declarations) (more others : String → List FunctionTree) :
    (decls.gaining more).gaining others = decls.gaining fun name => more name ++ others name := by
  simp [gaining, DeclaredStruct.name]

theorem gaining_nil (decls : Declarations) : decls.gaining (fun _ => []) = decls := by
  simp [gaining]

theorem addFunction_eq (decls : Declarations) (target : String) (function : FunctionTree) :
    decls.addFunction target function =
      decls.gaining fun name => if name = target then [function] else [] := by
  unfold addFunction gaining
  congr 1
  apply List.map_congr_left
  intro struct _
  dsimp only
  split
  · rfl
  · rw [List.append_nil]

theorem gaining_struct? (decls : Declarations) (more : String → List FunctionTree)
    (name : String) : (decls.gaining more).struct? name = (decls.struct? name).map fun struct =>
      { struct with functions := struct.functions ++ more struct.name } :=
  List.find?_map

theorem functionsOf_gaining {decls : Declarations} {more : String → List FunctionTree}
    {name : String} (declared : decls.struct? name = none → more name = []) :
    (decls.gaining more).functionsOf name = decls.functionsOf name ++ more name := by
  unfold functionsOf
  rw [gaining_struct?]
  cases found : decls.struct? name with
  | none => simp [declared found]
  | some struct =>
      have same : struct.name = name := by simpa using List.find?_some found
      simp [same]

theorem unusedIn_append {decls : Declarations} {more : String → List FunctionTree} {name : String}
    (declared : decls.struct? name = none → more name = []) (others : List FunctionTree) :
    decls.UnusedIn name (more name ++ others) ↔
      decls.UnusedIn name (more name) ∧ (decls.gaining more).UnusedIn name others := by
  unfold UnusedIn
  rw [functionsOf_gaining declared, List.map_append]
  apply unused_append
  intro other
  rw [List.map_append, List.mem_append]

def only (target : String) (functions : List FunctionTree) (name : String) : List FunctionTree :=
  if name = target then functions else []

theorem only_append (target : String) (first second : List FunctionTree) :
    (fun name => only target first name ++ only target second name) =
      only target (first ++ second) := by
  funext name
  unfold only
  split <;> rfl

theorem only_nil (target : String) : only target [] = fun _ => [] := by
  funext name
  unfold only
  split <;> rfl

theorem filterMap_function? (first : ImplItem) (rest : List ImplItem) :
    (first :: rest).filterMap ImplItem.function? =
      first.function?.toList ++ rest.filterMap ImplItem.function? := by
  cases first <;> rfl

theorem addImplItem_gate (isDefault : Bool) (target : String) (decls : Declarations)
    (item : ImplItem) :
    Gate manager ((item.function?.isSome = true ∧ ∀ function ∈ item.function?.toList,
          isDefault = true → function.ident.name = "default") ∧
        decls.UnusedIn target item.function?.toList)
      (decls.gaining (only target item.function?.toList))
      (addImplItem isDefault target decls item) := by
  cases item with
  | other pos =>
      have gate : Gate manager False (decls.gaining (only target []))
          (addImplItem isDefault target decls (.other pos)) :=
        .refuse rfl
      apply gate.congr
      simp [ImplItem.function?]
  | function function =>
      have gate : Gate manager (¬(isDefault && function.ident.name != "default") = true ∧
            ¬(decls.functionsOf target).any (·.ident.name = function.ident.name) = true ∧ True)
          (decls.addFunction target function)
          (addImplItem isDefault target decls (.function function)) :=
        .guarded (.refuse rfl) (.guarded (.refuse rfl) (.pure _))
      rw [addFunction_eq] at gate
      apply gate.congr
      simp [ImplItem.function?, UnusedIn, unused_single]

theorem addImplItems_gate (isDefault : Bool) {target : String} {decls : Declarations}
    (declared : (decls.struct? target).isSome = true) (items : List ImplItem) :
    Gate manager (((∀ item ∈ items, item.function?.isSome = true) ∧
          ∀ function ∈ items.filterMap ImplItem.function?,
            isDefault = true → function.ident.name = "default") ∧
        decls.UnusedIn target (items.filterMap ImplItem.function?))
      (decls.gaining (only target (items.filterMap ImplItem.function?)))
      (items.foldlM (addImplItem isDefault target) decls) := by
  have admits (items : List ImplItem) (decls : Declarations)
      (declared : (decls.struct? target).isSome = true) :
      Admits (fun decls item => (item.function?.isSome = true ∧
              ∀ function ∈ item.function?.toList,
                isDefault = true → function.ident.name = "default") ∧
            decls.UnusedIn target item.function?.toList)
          (fun decls item => decls.gaining (only target item.function?.toList)) decls items ↔
        ((∀ item ∈ items, item.function?.isSome = true) ∧
            ∀ function ∈ items.filterMap ImplItem.function?,
              isDefault = true → function.ident.name = "default") ∧
          decls.UnusedIn target (items.filterMap ImplItem.function?) := by
    induction items generalizing decls with
    | nil => simp [Admits, UnusedIn, unused_nil]
    | cons first rest ih =>
        have still : ((decls.gaining (only target first.function?.toList)).struct? target).isSome =
            true := by
          rwa [gaining_struct?, Option.isSome_map]
        have here : only target first.function?.toList target = first.function?.toList :=
          if_pos rfl
        have split : decls.UnusedIn target (only target first.function?.toList target ++
              rest.filterMap ImplItem.function?) ↔
            decls.UnusedIn target (only target first.function?.toList target) ∧
              (decls.gaining (only target first.function?.toList)).UnusedIn target
                (rest.filterMap ImplItem.function?) := by
          refine unusedIn_append ?_ _
          intro absent
          rw [absent] at declared
          cases declared
        rw [here] at split
        rw [Admits, ih _ still, filterMap_function?, List.forall_mem_cons, List.forall_mem_append,
          split]
        tauto
  have folded (items : List ImplItem) (decls : Declarations) :
      items.foldl (fun decls item => decls.gaining (only target item.function?.toList)) decls =
        decls.gaining (only target (items.filterMap ImplItem.function?)) := by
    induction items generalizing decls with
    | nil => rw [List.filterMap_nil, only_nil, gaining_nil]; rfl
    | cons first rest ih =>
        rw [List.foldl_cons, ih, gaining_gaining, only_append, filterMap_function?]
  have gate : Gate manager _ _ (items.foldlM (addImplItem isDefault target) decls) :=
    .foldlM (addImplItem_gate isDefault target) items decls
  rw [folded] at gate
  exact gate.congr (admits items decls declared)

def Belongs (decls : Declarations) (tree : ImplTree) : Prop :=
  tree.Supported ∧ ∃ target, targetName? tree = some target ∧
    (decls.struct? target).isSome = true

theorem gives_eq {tree : ImplTree} {target : String} (named : targetName? tree = some target) :
    tree.gives = only target tree.functions := by
  funext name
  simp [ImplTree.gives, only, named, eq_comm]

theorem unusedIn_only {decls : Declarations} {target : String} {functions : List FunctionTree} :
    (∀ name, decls.UnusedIn name (only target functions name)) ↔
      decls.UnusedIn target functions := by
  constructor
  · intro all
    have here := all target
    rwa [only, if_pos rfl] at here
  · intro unused name
    unfold only
    split
    · rename_i same
      rwa [same]
    · exact unused_nil _

theorem addTo_gate (isDefault : Bool) (decls : Declarations) (tree : ImplTree) :
    Gate manager ((((∀ item ∈ tree.items, item.function?.isSome = true) ∧
            ∀ function ∈ tree.functions, isDefault = true → function.ident.name = "default") ∧
          ∃ target, targetName? tree = some target ∧ (decls.struct? target).isSome = true) ∧
        ∀ name, decls.UnusedIn name (tree.gives name))
      (decls.gaining tree.gives) (addImpl.addTo decls tree isDefault) := by
  unfold addImpl.addTo
  cases found : (targetName? tree).filter fun name => (decls.struct? name).isSome with
  | none =>
      have gate : Gate manager False (decls.gaining tree.gives)
          (do decls.complain tree.target.pos .foreignTarget; return decls) :=
        .refuse rfl
      refine gate.congr ⟨False.elim, ?_⟩
      rintro ⟨⟨-, target, named, declared⟩, -⟩
      rw [named, Option.filter_some, declared] at found
      cases found
  | some target =>
      obtain ⟨named, declared⟩ := Option.filter_eq_some_iff.mp found
      have gate : Gate manager _ _ (tree.items.foldlM (addImplItem isDefault target) decls) :=
        addImplItems_gate isDefault declared tree.items
      rw [gives_eq named]
      apply gate.congr
      rw [unusedIn_only, named]
      simp only [Option.some.injEq, exists_eq_left', declared, and_true]
      rfl

theorem addImpl_gate (decls : Declarations) (tree : ImplTree) :
    Gate manager (decls.Belongs tree ∧ ∀ name, decls.UnusedIn name (tree.gives name))
      (decls.gaining tree.gives) (decls.addImpl tree) := by
  have added (isDefault : Bool) : Gate manager _ _ (addImpl.addTo decls tree isDefault) :=
    addTo_gate isDefault decls tree
  unfold addImpl Belongs
  rw [ImplTree.supported_iff]
  cases ofTrait : tree.ofTrait with
  | none =>
      refine (Gate.guarded (.refuse rfl) (added false)).congr ?_
      simp only [Bool.not_eq_true, false_imp_iff, Option.not_mem_none,
        Option.isSome_none, Bool.false_eq_true, implies_true, and_true, true_and]
      tauto
  | some header =>
      obtain ⟨negated, names⟩ := header
      have header : Gate manager (isDefaultTrait negated names = true ∧ _)
          (decls.gaining tree.gives) (if isDefaultTrait negated names then
              addImpl.addTo decls tree true
            else do decls.complain names.pos .unsupportedTrait; return decls) :=
        .required (.refuse rfl) (added true)
      refine (Gate.guarded (.refuse rfl) header).congr ?_
      simp only [Bool.not_eq_true, Option.mem_some_iff, forall_eq', Option.isSome_some,
        forall_const]
      tauto

theorem addImpls_gate (decls : Declarations) (blocks : List ImplTree) :
    Gate manager ((∀ tree ∈ blocks, decls.Belongs tree) ∧
        ∀ name, decls.UnusedIn name (functionsFor blocks name))
      (decls.gaining (functionsFor blocks)) (blocks.foldlM addImpl decls) := by
  have given {decls : Declarations} {tree : ImplTree} (belongs : decls.Belongs tree)
      (name : String) (absent : decls.struct? name = none) : tree.gives name = [] := by
    obtain ⟨-, target, named, declared⟩ := belongs
    apply if_neg
    intro same
    rw [named, Option.some.injEq] at same
    rw [same, absent] at declared
    cases declared
  have admits (blocks : List ImplTree) (decls : Declarations) :
      Admits (fun decls tree => decls.Belongs tree ∧ ∀ name, decls.UnusedIn name (tree.gives name))
          (fun decls tree => decls.gaining tree.gives) decls blocks ↔
        (∀ tree ∈ blocks, decls.Belongs tree) ∧
          ∀ name, decls.UnusedIn name (functionsFor blocks name) := by
    induction blocks generalizing decls with
    | nil => simp [Admits, functionsFor, UnusedIn, unused_nil]
    | cons first rest ih =>
        rw [Admits, ih, List.forall_mem_cons]
        have belongs (tree : ImplTree) :
            (decls.gaining first.gives).Belongs tree ↔ decls.Belongs tree := by
          simp only [Belongs, gaining_struct?, Option.isSome_map]
        simp only [belongs]
        constructor
        · rintro ⟨⟨here, unused⟩, there, later⟩
          refine ⟨⟨here, there⟩, ?_⟩
          intro name
          exact (unusedIn_append (given here name) _).mpr ⟨unused name, later name⟩
        · rintro ⟨⟨here, there⟩, all⟩
          have both (name : String) := (unusedIn_append (given here name) _).mp (all name)
          exact ⟨⟨here, fun name => (both name).1⟩, there, fun name => (both name).2⟩
  have folded (blocks : List ImplTree) (decls : Declarations) :
      blocks.foldl (fun decls tree => decls.gaining tree.gives) decls =
        decls.gaining (functionsFor blocks) := by
    induction blocks generalizing decls with
    | nil => exact (gaining_nil decls).symm
    | cons first rest ih =>
        rw [List.foldl_cons, ih, gaining_gaining]
        rfl
  have gate : Gate manager _ _ (blocks.foldlM addImpl decls) := .foldlM addImpl_gate blocks decls
  rw [folded] at gate
  exact gate.congr (admits blocks decls)

theorem foldlM_addImplOf (items : List Item) (decls : Declarations) :
    items.foldlM (addImplOf (σ := σ)) decls =
      (items.filterMap Item.impl?).foldlM addImpl decls := by
  induction items generalizing decls with
  | nil => rfl
  | cons first rest ih =>
      cases first with
      | impl tree => exact congrArg (decls.addImpl tree >>= ·) (funext ih)
      | struct tree | use tree | other pos => exact ih decls

end Declarations

/-! ## Whole sources -/

namespace Source.File

def blocks (file : File) : List ImplTree :=
  file.items.filterMap Item.impl?

def imports (file : File) : List Import :=
  file.items.flatMap Item.imports

/-- What the items of a file declare before its imports are resolved and apart from functions. -/
def heads (file : File) (unit : SourceUnit) : Declarations :=
  Declarations.adding { package := unit.package, uri := unit.uri, structs := [], imports := [] }
    file.structs file.imports

/-- Everything that a file declares is supported and declared once. -/
structure WellDeclared (file : File) : Prop where
  supported : ∀ item ∈ file.items, item.Supported
  names : (file.items.flatMap Item.names).Nodup
  blocks : ∀ tree ∈ file.blocks, tree.Supported ∧ ∃ target,
    Declarations.targetName? tree = some target ∧ target ∈ file.structs.map (·.ident.name)
  functions : ∀ name,
    ((Declarations.functionsFor file.blocks name).map (·.ident.name)).Nodup

end Source.File

namespace Declarations

variable {manager : FileManager σ} {file : File} {unit : SourceUnit} {resolved : Declarations}

theorem declareHeads_gate (manager : FileManager σ) (file : File) (unit : SourceUnit) :
    Gate manager ((∀ item ∈ file.items, item.Supported) ∧ (file.items.flatMap Item.names).Nodup)
      (file.heads unit) (file.items.foldlM addItem
        { package := unit.package, uri := unit.uri, structs := [], imports := [] }) := by
  refine (addItems_gate _ file.items).congr (and_congr_right ?_)
  intro _
  simp [Unused, names]

theorem struct?_isSome {decls : Declarations} {name : String} :
    (decls.struct? name).isSome = true ↔ name ∈ decls.structs.map DeclaredStruct.name := by
  simp [struct?, List.find?_isSome]

theorem names_heads (file : File) (unit : SourceUnit) :
    (file.heads unit).structs.map DeclaredStruct.name = file.structs.map (·.ident.name) := by
  simp only [File.heads, adding, List.nil_append, List.map_map]
  rfl

theorem functionsOf_heads (file : File) (unit : SourceUnit) (name : String) :
    (file.heads unit).functionsOf name = [] := by
  unfold functionsOf
  cases found : (file.heads unit).struct? name with
  | none => rfl
  | some struct =>
      have member : struct ∈ (file.heads unit).structs := List.mem_of_find?_eq_some found
      simp only [File.heads, adding, List.nil_append, List.mem_map] at member
      obtain ⟨tree, -, rfl⟩ := member
      rfl

theorem addBlocks_gate (manager : FileManager σ)
    (same : resolved.structs = (file.heads unit).structs) :
    Gate manager ((∀ tree ∈ file.blocks, tree.Supported ∧ ∃ target,
          targetName? tree = some target ∧ target ∈ file.structs.map (·.ident.name)) ∧
        ∀ name, ((functionsFor file.blocks name).map (·.ident.name)).Nodup)
      (resolved.gaining (functionsFor file.blocks)) (file.items.foldlM addImplOf resolved) := by
  have struct? : resolved.struct? = (file.heads unit).struct? := by
    funext name
    rw [Declarations.struct?, same]
    rfl
  have unused (name : String) (new : List FunctionTree) :
      resolved.UnusedIn name new ↔ (new.map (·.ident.name)).Nodup := by
    have empty : resolved.functionsOf name = [] := by
      rw [functionsOf, struct?]
      exact functionsOf_heads file unit name
    simp [UnusedIn, empty, Unused]
  rw [foldlM_addImplOf]
  apply (addImpls_gate resolved file.blocks).congr
  simp only [Belongs, unused, struct?, struct?_isSome, names_heads]

theorem collect_clean {decls : Declarations} {before after : Session σ}
    (run : collect manager file unit before = (decls, after)) (clean : after.Clean) :
    file.WellDeclared := by
  obtain ⟨declared, first, run₁, run⟩ := bind_run run
  obtain ⟨resolved, second, run₂, run⟩ := bind_run run
  obtain ⟨_, third, run₃, run₄⟩ := bind_run run
  obtain ⟨resolves, sameStructs, -⟩ := resolveImports_run run₂
  have checks : second.Extends manager third := (checkPublic_extends _ _).of_run run₃
  have run₄ : file.items.foldlM addImplOf resolved third = (decls, after) := run₄
  have implements : third.Extends manager after := by
    rw [foldlM_addImplOf] at run₄
    exact (addImpls_gate resolved file.blocks).grows.of_run run₄
  have headed := (declareHeads_gate manager file unit).of_clean run₁
    ((resolves.trans (checks.trans implements)).clean clean)
  obtain ⟨⟨supported, names⟩, rfl, rfl⟩ := headed
  obtain ⟨⟨blocks, functions⟩, -, -⟩ :=
    (addBlocks_gate manager sameStructs.structs).of_clean run₄ clean
  exact ⟨supported, names, blocks, functions⟩

/-- A well-declared source is collected with nothing reported but what the resolution of its imports
and the check of its public structs report. -/
theorem collect_wellDeclared (well : file.WellDeclared) :
    collect manager file unit = (do
      let resolved ← (file.heads unit).resolveImports manager
      resolved.checkPublic unit
      return resolved.gaining (functionsFor file.blocks)) := by
  funext before
  rcases run : (file.heads unit).resolveImports manager before with ⟨resolved, middle⟩
  obtain ⟨-, sameStructs, -⟩ := resolveImports_run run
  have heads := (declareHeads_gate manager file unit).passes ⟨well.supported, well.names⟩ before
  have blocks := (addBlocks_gate manager sameStructs.structs).passes ⟨well.blocks, well.functions⟩
    (resolved.checkPublic unit middle).2
  change (file.items.foldlM addItem _ >>= fun declared => declared.resolveImports manager >>=
    fun resolved => resolved.checkPublic unit >>= fun _ =>
      file.items.foldlM addImplOf resolved) before = _
  rw [bind_of_run heads, bind_of_run run, bind_of_run run, bind_of_run (run_eta _ _), blocks]
  rfl

end Declarations

end UnitForge
