import UnitForge.Proofs.Dialect.Signatures
import UnitForge.Proofs.Lowering.Steps
import Mathlib.Data.List.Forall2

/-! # Lowering without errors

A constructor without code has been reported, as far as its types are known. A source without errors
therefore has an image for each of its structs, with code for each constructor. -/
set_option autoImplicit false
namespace UnitForge

open Step

variable {σ : Type}

/-! ## Lists of options -/

section Options
variable {α β : Type}

theorem mapM_eq_some_iff {f : α → Option β} {items : List α} {found : List β} :
    items.mapM f = some found ↔
      List.Forall₂ (fun item value => f item = some value) items found := by
  induction items generalizing found with
  | nil =>
      constructor
      · intro none
        cases none
        exact .nil
      · intro none
        cases none
        rfl
  | cons first rest ih =>
      rw [List.mapM_cons]
      constructor
      · intro all
        obtain ⟨value, given, others⟩ := Option.bind_eq_some_iff.mp all
        obtain ⟨values, remaining, same⟩ := Option.bind_eq_some_iff.mp others
        cases same
        exact .cons given (ih.mp remaining)
      · intro all
        cases all with
        | cons given others => simp [given, ih.mpr others]

theorem mapM_isSome {f : α → Option β} {items : List α}
    (each : ∀ item ∈ items, (f item).isSome = true) : ∃ found, items.mapM f = some found := by
  induction items with
  | nil => exact ⟨[], rfl⟩
  | cons first rest ih =>
      obtain ⟨value, given⟩ := Option.isSome_iff_exists.mp (each first List.mem_cons_self)
      obtain ⟨values, all⟩ := ih fun item member => each item (List.mem_cons_of_mem _ member)
      exact ⟨value :: values, by simp [given, all]⟩

theorem exists_of_forall₂ {R : α → β → Prop} {items : List α} {found : List β}
    (related : List.Forall₂ R items found) : ∀ value ∈ found, ∃ item ∈ items, R item value := by
  induction related with
  | nil => exact nofun
  | cons first _ ih =>
      intro value member
      rcases List.mem_cons.mp member with rfl | later
      · exact ⟨_, List.mem_cons_self, first⟩
      · obtain ⟨item, known, holds⟩ := ih value later
        exact ⟨item, List.mem_cons_of_mem _ known, holds⟩

theorem forall₂_and_zip {R : α → β → Prop} {items : List α} {found : List β}
    (related : List.Forall₂ R items found) :
    List.Forall₂ (fun item value => (item, value) ∈ items.zip found ∧ R item value)
      items found :=
  List.forall₂_iff_zip.mpr ⟨related.length_eq, fun pair =>
    ⟨pair, (List.forall₂_iff_zip.mp related).2 pair⟩⟩

theorem map_eq_map_of_forall₂ {γ : Type} {R : α → β → Prop} {f : α → γ} {g : β → γ}
    {items : List α} {found : List β} (related : List.Forall₂ R items found)
    (same : ∀ item ∈ items, ∀ value, R item value → f item = g value) :
    items.map f = found.map g := by
  induction related with
  | nil => rfl
  | cons first _ ih =>
      rw [List.map_cons, List.map_cons, same _ List.mem_cons_self _ first,
        ih fun item member => same item (List.mem_cons_of_mem _ member)]

theorem find?_of_forall₂ {R : α → β → Prop} {p : α → Bool} {q : β → Bool} {items : List α}
    {found : List β} (related : List.Forall₂ R items found)
    (same : ∀ item value, R item value → p item = q value) :
    (items.find? p = none ∧ found.find? q = none) ∨ ∃ item value,
      items.find? p = some item ∧ found.find? q = some value ∧ R item value := by
  induction related with
  | nil => exact .inl ⟨rfl, rfl⟩
  | @cons item value _ _ first _ ih =>
      rw [List.find?_cons, List.find?_cons, ← same item value first]
      cases p item with
      | true => exact .inr ⟨item, value, rfl, rfl, first⟩
      | false => exact ih

theorem forall₂_of_mapM_id {R : α → Option β → Prop} {items : List α} {found : List (Option β)}
    {values : List β} (related : List.Forall₂ R items found) (all : found.mapM id = some values) :
    List.Forall₂ (fun item value => R item (some value)) items values := by
  have given := mapM_eq_some_iff.mp all
  clear all
  induction related generalizing values with
  | nil =>
      cases given
      exact .nil
  | cons first _ ih =>
      cases given with
      | cons same others =>
          cases same
          exact .cons first (ih others)

end Options

/-! ## Constructors -/

namespace Lower

def paramBinding (param : ParamSig) : Binding :=
  { name := param.name, type := param.type, pos := param.pos, used := false }

variable {context : LoweringContext σ} {sig : ConstructorSig} {function : Source.FunctionTree}

/-- The parts of the run of a complete lowering: the parameters are bound, the statements and the
final expression are lowered, and nothing but warnings follows. -/
structure Parts (context : LoweringContext σ) (sig : ConstructorSig)
    (function : Source.FunctionTree) (before after : Lowering σ) where
  tree : Source.ExprTree
  body : List Stmt
  reached : Lowering σ
  init : List Expr
  finished : Lowering σ
  last : (splitBody function.body).2 = some tree
  statements : (splitBody function.body).1.filterMapM (statement context)
    { before with scope := before.scope ++ sig.params.map paramBinding } = (body, reached)
  final : final context tree reached = (init, finished)
  complete : finished.complete = true
  session : finished.session.Extends context.manager after.session

theorem bindParams_run (params : List ParamSig) (before : Lowering σ) :
    (params.forM fun param => do
      let _ ← bind (σ := σ) param.name param.type param.pos) before =
      ((), { before with scope := before.scope ++ params.map paramBinding }) := by
  induction params generalizing before with
  | nil =>
      rw [List.map_nil, List.append_nil]
      rfl
  | cons first rest ih =>
      have others := ih { before with scope := before.scope ++ [paramBinding first] }
      rw [List.append_assoc] at others
      exact others

theorem warn_run (context : LoweringContext σ) (bindings : List Binding) (before : Lowering σ) :
    ∃ session, (bindings.forM fun binding => check (context.decls.complain binding.pos
        (.unusedVariable binding.name))) before = ((), { before with session }) ∧
      before.session.Extends context.manager session := by
  induction bindings generalizing before with
  | nil => exact ⟨before.session, rfl, .refl _⟩
  | cons first rest ih =>
      have told : before.session.Extends context.manager
          (context.decls.complain first.pos (.unusedVariable first.name) before.session).2 :=
        Declarations.complain_extends _ _ _
      obtain ⟨session, run, grown⟩ := ih { before with session :=
        (context.decls.complain first.pos (.unusedVariable first.name) before.session).2 }
      exact ⟨session, run, told.trans grown⟩

theorem conclude_run {body : List Stmt} {init : List Expr} {found : Option ConstructorDecl}
    {finished after : Lowering σ}
    (run : conclude context sig body init finished = (found, after))
    (complete : after.complete = true) :
    finished.complete = true ∧ finished.session.Extends context.manager after.session ∧
      found = codeOf sig finished.scope body init := by
  obtain ⟨_, _, got, run⟩ := bind_run run
  cases got
  obtain ⟨_, warned, warns, run⟩ := bind_run run
  obtain ⟨session, told, grown⟩ := warn_run context finished.scope.unused finished
  rw [told] at warns
  cases warns
  obtain ⟨_, _, got, run⟩ := bind_run run
  cases got
  split at run
  · rename_i done
    cases run
    exact ⟨done, grown, rfl⟩
  · rename_i incomplete
    cases run
    exact absurd complete incomplete

theorem constructor_run {found : Option ConstructorDecl} {before after : Lowering σ}
    (run : constructor context sig function before = (found, after))
    (complete : after.complete = true) :
    ∃ parts : Parts context sig function before after,
      found = codeOf sig parts.finished.scope parts.body parts.init := by
  rw [constructor_eq] at run
  obtain ⟨_, bound, params, run⟩ := bind_run run
  rw [bindParams_run] at params
  cases params
  obtain ⟨body, reached, statements, run⟩ := bind_run run
  cases last : (splitBody function.body).2 with
  | some tree =>
      simp only [last] at run
      obtain ⟨init, finished, final, run⟩ := bind_run run
      obtain ⟨done, grown, same⟩ := conclude_run run complete
      exact ⟨⟨tree, body, reached, init, finished, last, statements, final, done, grown⟩, same⟩
  | none =>
      simp only [last] at run
      obtain ⟨_, complained, told, run⟩ := bind_run run
      have incomplete := not_complete_of_complain told
      obtain ⟨done, -, -⟩ := conclude_run run complete
      rw [done] at incomplete
      cases incomplete

end Lower

namespace UnitSig

variable {manager : FileManager σ} {decls : Declarations} {sigs : List UnitSig} {owner : UnitSig}

abbrev context (manager : FileManager σ) (decls : Declarations) (sigs : List UnitSig)
    (owner : UnitSig) : LoweringContext σ :=
  { manager, decls, sigs, owner }

def lowering (session : Session σ) : Lowering σ :=
  { session, scope := [], reportedDepth := false, complete := true }

theorem accounted_lowering (session : Session σ) : (lowering session).Accounted :=
  ⟨nofun, nofun⟩

theorem lowerConstructor_function {sig : ConstructorSig} {function : Source.FunctionTree}
    (given : sig.function = some function) {found : Option ConstructorDecl}
    {before after : Session σ}
    (run : lowerConstructor manager decls sigs owner sig before = (found, after)) :
    ∃ stop, Lower.constructor (context manager decls sigs owner) sig function (lowering before) =
      (found, stop) ∧ after = stop.session := by
  simp only [lowerConstructor, given] at run
  cases run
  exact ⟨_, rfl, rfl⟩

theorem lowerConstructor_extends (sig : ConstructorSig) :
    Check.Extends manager (lowerConstructor manager decls sigs owner sig) := by
  intro before
  cases given : sig.function with
  | none =>
      simp only [lowerConstructor, given]
      exact .refl _
  | some function =>
      obtain ⟨stop, run, same⟩ := lowerConstructor_function given
        (run_eta (lowerConstructor manager decls sigs owner sig) before)
      rw [same]
      exact ((Lower.constructor_grows sig function).of_run run).session

theorem lowerConstructor_isSome {sig : ConstructorSig} {found : Option ConstructorDecl}
    {before after : Session σ}
    (run : lowerConstructor manager decls sigs owner sig before = (found, after))
    (resolved : decls.Resolved) (clean : after.Clean) (known : owner.Known)
    (member : sig ∈ owner.constructors) : found.isSome = true := by
  cases given : sig.function with
  | none =>
      obtain ⟨init, defaults⟩ : ∃ init, owner.fields.mapM
          (fun (field : FieldSig) => field.type.map Lower.defaultOf) = some init :=
        mapM_isSome fun field declared => by simp [known.fields field declared]
      simp only [lowerConstructor, given] at run
      cases run
      simp [Lower.implicitConstructor, defaults]
  | some function =>
      obtain ⟨stop, coded, same⟩ := lowerConstructor_function given run
      subst same
      have grown := (Lower.constructor_grows sig function).of_run coded
      have complete : stop.complete = true := by
        by_contra incomplete
        have accounted := grown.accounted resolved (accounted_lowering before)
        exact accounted.missing (Bool.eq_false_iff.mpr incomplete) clean
      obtain ⟨parts, rfl⟩ := Lower.constructor_run coded complete
      obtain ⟨params, typed⟩ : ∃ params, Lower.paramDecls sig.params = some params :=
        mapM_isSome fun param declared => by simp [known.params sig member param declared]
      simp [Lower.codeOf, typed]

/-! ## Structs -/

/-- An image with the code of every constructor of a struct, which was lowered before `last`. -/
structure Lowered (manager : FileManager σ) (decls : Declarations) (sigs : List UnitSig)
    (owner : UnitSig) (image : UnitImage) (last : Session σ) : Prop where
  name : image.name = owner.fullName
  source : image.source = decls.uri
  fields : owner.fieldDecls = some image.fields
  constructors : List.Forall₂ (fun sig ctor => ∃ before after,
    lowerConstructor manager decls sigs owner sig before = (some ctor, after) ∧
      after.Extends manager last) owner.constructors image.constructors

theorem lower_run {found : Option UnitImage} {before after : Session σ}
    (run : lower manager decls sigs owner before = (found, after)) :
    before.Extends manager after ∧
      (∀ image, found = some image → Lowered manager decls sigs owner image after) ∧
      (decls.Resolved → after.Clean → owner.Known → found.isSome = true) := by
  obtain ⟨found, reached, mapped, run⟩ := bind_run run
  cases run
  have all := mapM_induct (f := lowerConstructor manager decls sigs owner)
    (P := fun done found session => before.Extends manager session ∧
      List.Forall₂ (fun sig found => ∃ before after,
        lowerConstructor manager decls sigs owner sig before = (found, after) ∧
          after.Extends manager session) done found)
    ?step owner.constructors ⟨.refl before, .nil⟩
  case step =>
    rintro done found sig state ⟨grown, known⟩
    have more : state.Extends manager (lowerConstructor manager decls sigs owner sig state).2 :=
      lowerConstructor_extends sig state
    refine ⟨grown.trans more, List.rel_append (known.imp ?_) (.cons ?_ .nil)⟩
    · intro sig found ⟨before, after, run, later⟩
      exact ⟨before, after, run, later.trans more⟩
    · exact ⟨state, _, run_eta _ state, .refl _⟩
  rw [mapped] at all
  obtain ⟨grown, constructors⟩ := all
  refine ⟨grown, ?_, ?_⟩
  · intro image same
    obtain ⟨coded, all, same⟩ := Option.bind_eq_some_iff.mp same
    obtain ⟨fields, known, same⟩ := Option.bind_eq_some_iff.mp same
    cases same
    refine ⟨rfl, rfl, known, ?_⟩
    exact forall₂_of_mapM_id constructors all
  · intro resolved clean known
    obtain ⟨coded, all⟩ : ∃ coded, found.mapM id = some coded := by
      apply mapM_isSome
      intro answer member
      obtain ⟨sig, declared, before, after, run, later⟩ :=
        exists_of_forall₂ constructors answer member
      exact lowerConstructor_isSome run resolved (later.clean clean) known declared
    obtain ⟨fields, typed⟩ : ∃ fields, owner.fieldDecls = some fields :=
      mapM_isSome fun field declared => by simp [known.fields field declared]
    simp [all, typed]

theorem lowerAll_run {found : Option (List UnitImage)} {before after : Session σ}
    (run : lowerAll manager decls sigs before = (found, after)) :
    before.Extends manager after ∧
      (∀ images, found = some images → List.Forall₂ (fun owner image => ∃ last,
        Lowered manager decls sigs owner image last ∧ last.Extends manager after) sigs images) ∧
      (decls.Resolved → after.Clean → (∀ owner ∈ sigs, owner.Known) → found.isSome = true) := by
  obtain ⟨found, reached, mapped, run⟩ := bind_run run
  cases run
  have all := mapM_induct (f := lower manager decls sigs)
    (P := fun done found session => before.Extends manager session ∧
      List.Forall₂ (fun owner found => ∃ before after,
        lower manager decls sigs owner before = (found, after) ∧
          after.Extends manager session) done found)
    ?step sigs ⟨.refl before, .nil⟩
  case step =>
    rintro done found owner state ⟨grown, known⟩
    obtain ⟨more, -⟩ := lower_run (run_eta (lower manager decls sigs owner) state)
    refine ⟨grown.trans more, List.rel_append (known.imp ?_) (.cons ?_ .nil)⟩
    · intro owner found ⟨before, after, run, later⟩
      exact ⟨before, after, run, later.trans more⟩
    · exact ⟨state, _, run_eta _ state, .refl _⟩
  rw [mapped] at all
  obtain ⟨grown, units⟩ := all
  refine ⟨grown, ?_, ?_⟩
  · intro images same
    apply (forall₂_of_mapM_id units same).imp
    intro owner image ⟨before, after, run, later⟩
    exact ⟨after, (lower_run run).2.1 image rfl, later⟩
  · intro resolved clean known
    obtain ⟨images, all⟩ : ∃ images, found.mapM id = some images := by
      apply mapM_isSome
      intro answer member
      obtain ⟨owner, declared, before, after, run, later⟩ := exists_of_forall₂ units answer member
      exact (lower_run run).2.2 resolved (later.clean clean) (known owner declared)
    simp [all]

end UnitSig

end UnitForge
