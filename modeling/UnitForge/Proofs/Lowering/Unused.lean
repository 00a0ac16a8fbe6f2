import UnitForge.Files.Standard
import UnitForge.Proofs.Lowering.Bodies

/-! # Names that nothing refers to

A name is marked as used by the occurrences that refer to it and by no others: the scope of a
lowering is at every point that of the bindings so far, marked by the occurrences so far. The
warnings at the end of a constructor are therefore those of the bindings to which nothing in the
body refers. -/
set_option autoImplicit false
namespace UnitForge

open Source Step

variable {σ : Type}

/-! ## Slots -/

namespace Scope

theorem slot?_iff_refersTo {scope : Scope} {binders : List Binder}
    (same : scope.map Binding.name = binders.map Binder.name) {name : String} {slot : Nat} :
    scope.slot? name = some slot ↔
      (⟨name, binders.length⟩ : Occurrence).RefersTo binders slot := by
  rw [slot?_eq_some_iff, same]
  have bound {index : Nat} (found : (binders.map Binder.name)[index]? = some name) :
      index < binders.length := by
    obtain ⟨within, -⟩ := List.getElem?_eq_some_iff.mp found
    rwa [List.length_map] at within
  constructor
  · intro ⟨found, latest⟩
    exact ⟨bound found, found, fun later _ behind => latest later behind⟩
  · intro refers
    refine ⟨refers.name, ?_⟩
    intro later behind found
    exact refers.latest later (bound found) behind found

end Scope

namespace Lower

/-! ## Marks -/

def mark (binders : List Binder) (occurrences : List Occurrence) (index : Nat)
    (binder : Binder) : Binding :=
  { fresh binder with used := occurrences.any (·.RefersTo binders index) }

def marked (binders : List Binder) (occurrences : List Occurrence) : Scope :=
  binders.mapIdx (mark binders occurrences)

theorem getElem?_marked (binders : List Binder) (occurrences : List Occurrence) (index : Nat) :
    (marked binders occurrences)[index]? = binders[index]?.map (mark binders occurrences index) :=
  List.getElem?_mapIdx

theorem names_marked (binders : List Binder) (occurrences : List Occurrence) :
    (marked binders occurrences).map Binding.name = binders.map Binder.name := by
  apply List.ext_getElem?
  intro index
  rw [List.getElem?_map, List.getElem?_map, getElem?_marked, Option.map_map]
  rfl

theorem marked_nil (binders : List Binder) : marked binders [] = binders.map fresh := by
  apply List.ext_getElem?
  intro index
  rw [getElem?_marked, List.getElem?_map]
  rfl

theorem mark_concat (binders : List Binder) (occurrences : List Occurrence) (last : Occurrence)
    (index : Nat) (binder : Binder) :
    mark binders (occurrences ++ [last]) index binder =
      if last.RefersTo binders index
        then { mark binders occurrences index binder with used := true }
        else mark binders occurrences index binder := by
  unfold mark
  rw [List.any_append, List.any_cons, List.any_nil, Bool.or_false]
  by_cases refers : last.RefersTo binders index
  · rw [if_pos refers, decide_eq_true refers, Bool.or_true]
  · rw [if_neg refers, decide_eq_false refers, Bool.or_false]

theorem useName_marked (binders : List Binder) (occurrences : List Occurrence) (name : String) :
    (marked binders occurrences).useName name =
      marked binders (occurrences ++ [⟨name, binders.length⟩]) := by
  have refers {slot : Nat} : (marked binders occurrences).slot? name = some slot ↔
      (⟨name, binders.length⟩ : Occurrence).RefersTo binders slot :=
    Scope.slot?_iff_refersTo (names_marked binders occurrences)
  apply List.ext_getElem?
  intro index
  unfold Scope.useName
  cases found : (marked binders occurrences).slot? name with
  | none =>
      have nothing : ¬(⟨name, binders.length⟩ : Occurrence).RefersTo binders index := by
        intro absurd
        rw [refers.mpr absurd] at found
        cases found
      rw [getElem?_marked, getElem?_marked]
      congr 1
      funext binder
      rw [mark_concat, if_neg nothing]
  | some slot =>
      dsimp only
      rw [Scope.use, List.getElem?_modify, getElem?_marked, getElem?_marked, Option.map_eq_map,
        Option.map_map]
      congr 1
      funext binder
      rw [Function.comp_apply, mark_concat]
      by_cases here : slot = index
      · rw [if_pos here, if_pos (here ▸ refers.mp found)]
      · rw [if_neg here, if_neg]
        intro absurd
        rw [refers.mpr absurd] at found
        exact here (Option.some.inj found).symm

theorem useNames_marked (binders : List Binder) (occurrences : List Occurrence)
    (names : List String) :
    (marked binders occurrences).useNames names = marked binders
      (occurrences ++ names.map fun name => ⟨name, binders.length⟩) := by
  induction names generalizing occurrences with
  | nil => rw [List.map_nil, List.append_nil]; rfl
  | cons name rest ih =>
      rw [Scope.useNames, List.foldl_cons, useName_marked, ← Scope.useNames, ih,
        List.append_assoc]
      rfl

theorem marked_concat {binders : List Binder} {occurrences : List Occurrence}
    (before : ∀ occurrence ∈ occurrences, occurrence.visible ≤ binders.length) (last : Binder) :
    marked binders occurrences ++ [fresh last] = marked (binders ++ [last]) occurrences := by
  have same : mark (binders ++ [last]) occurrences = mark binders occurrences := by
    funext index binder
    have used : occurrences.any (·.RefersTo (binders ++ [last]) index) =
        occurrences.any (·.RefersTo binders index) := by
      rw [Bool.eq_iff_iff, List.any_eq_true, List.any_eq_true]
      apply exists_congr
      intro occurrence
      apply and_congr_right
      intro member
      rw [decide_eq_true_iff, decide_eq_true_iff]
      exact Occurrence.refersTo_append (before occurrence member) _ _
    rw [mark, mark, used]
  have unseen : mark binders occurrences binders.length last = fresh last := by
    unfold mark
    have none : (occurrences.any (·.RefersTo binders binders.length)) = false := by
      rw [List.any_eq_false]
      intro occurrence member refers
      have visible := (of_decide_eq_true refers).visible
      have := before occurrence member
      omega
    rw [none]
    rfl
  rw [marked, marked, List.mapIdx_append, same]
  simp [unseen]

/-- Statements behind bindings make theirs, and mark what their occurrences refer to. -/
theorem afterStatements_marked (trees : List StmtTree) {binders : List Binder}
    {occurrences : List Occurrence}
    (before : ∀ occurrence ∈ occurrences, occurrence.visible ≤ binders.length) :
    afterStatements trees (marked binders occurrences) =
      marked (binders ++ trees.filterMap StmtTree.binder?)
        (occurrences ++ StmtTree.occurrencesFrom binders.length trees) := by
  induction trees generalizing binders occurrences with
  | nil =>
      rw [List.filterMap_nil, StmtTree.occurrencesFrom, List.append_nil, List.append_nil]
      rfl
  | cons first rest ih =>
      have here : ∀ occurrence ∈ occurrences ++ first.occurrences.map fun name =>
          (⟨name, binders.length⟩ : Occurrence), occurrence.visible ≤ binders.length := by
        intro occurrence member
        rcases List.mem_append.mp member with old | new
        · exact before occurrence old
        · obtain ⟨name, -, rfl⟩ := List.mem_map.mp new
          exact Nat.le_refl _
      rw [afterStatements, List.foldl_cons, ← afterStatements, afterStatement, useNames_marked,
        StmtTree.occurrencesFrom, ← List.append_assoc]
      cases bound : first.binder? with
      | none =>
          rw [List.filterMap_cons_none bound]
          simpa using ih here
      | some binder =>
          rw [List.filterMap_cons_some bound, Option.map_some, Option.toList_some,
            marked_concat here]
          have others := @ih (binders ++ [binder]) _ fun occurrence member => by
            rw [List.length_append]
            exact Nat.le_add_right_of_le (here occurrence member)
          rw [List.length_append, List.append_assoc] at others
          exact others

/-! ## Whole bodies -/

def binders (sig : ConstructorSig) (function : FunctionTree) : List Binder :=
  sig.params.map paramBinder ++ (splitBody function.body).1.filterMap StmtTree.binder?

/-- The names that a body has as values. The final expression stands behind all bindings. -/
def occurrences (sig : ConstructorSig) (function : FunctionTree) : List Occurrence :=
  StmtTree.occurrencesFrom sig.params.length (splitBody function.body).1 ++
    (((splitBody function.body).2.map ExprTree.finalOccurrences).getD []).map fun name =>
      { name, visible := (binders sig function).length }

theorem afterBody_eq (sig : ConstructorSig) (function : FunctionTree) :
    afterBody sig function [] = marked (binders sig function) (occurrences sig function) := by
  have params : (sig.params.map paramBinder).length = sig.params.length := List.length_map _
  rw [afterBody, List.nil_append, ← marked_nil, afterStatements_marked _ (List.forall_mem_nil _),
    useNames_marked, List.nil_append, params]
  rfl

theorem unused_marked (binders : List Binder) (occurrences : List Occurrence) :
    (Scope.unused (marked binders occurrences)).map binderOf =
      unreferred binders occurrences := by
  rw [Scope.unused, unreferred, marked, List.mapIdx_eq_zipIdx_map, List.filter_map, List.map_map]
  congr 1
  apply List.filter_congr
  intro pair _
  rw [Bool.eq_iff_iff]
  simp [mark, fresh, and_comm]

theorem unused_untyped (scope : Scope) :
    scope.untyped.unused.map binderOf = scope.unused.map binderOf := by
  rw [Scope.unused, Scope.untyped, List.filter_map, List.map_map]
  rfl

end Lower

namespace UnitSig

open Lower

/-- A constructor that is lowered without an error is warned of the bindings to which nothing in
its body refers, once each and in their order, and of nothing else. -/
theorem lowerConstructor_unused {manager : FileManager σ} {decls : Declarations}
    {sigs : List UnitSig} {owner : UnitSig} {sig : ConstructorSig} {function : FunctionTree}
    {found : Option ConstructorDecl} {before after : Session σ}
    (given : sig.function = some function) (policy : before.policy = .default)
    (run : lowerConstructor manager decls sigs owner sig before = (found, after))
    (quiet : after.errors = before.errors) :
    after.delivered = before.delivered ++
      (unreferred (binders sig function) (occurrences sig function)).map fun binder =>
        (Problem.unusedVariable binder.name).diagnostic (some decls.uri) (some binder.pos) := by
  obtain ⟨stop, lowered, rfl⟩ := lowerConstructor_function given run
  obtain ⟨told⟩ := constructor_told lowered
  have silent := told.silent quiet
  have only : ∀ diagnostic ∈ told.told, isDepthReport decls.uri diagnostic = true := by
    rw [silent]
    exact List.forall_mem_nil _
  have scope : told.finished.scope.untyped =
      marked (binders sig function) (occurrences sig function) :=
    ((told.marks only).scope (told.shallow quiet)).trans (afterBody_eq sig function)
  rw [told.delivered, silent, List.append_nil, ← unused_untyped, scope, unused_marked]
  change before.delivered ++ (unreferred _ _).flatMap
    (fun binder => (before.policy.apply (unusedWarning decls.uri binder)).toList) = _
  rw [policy, List.map_eq_flatMap]
  simp only [WarningPolicy.default_apply, Option.toList_some]
  rfl

/-! The constructor `fn new(x: i64, y: i64) -> Self`, whose body binds both names again by
`let x = x + 1; let y = y;` and ends in `Self { v: x }`. -/

namespace Rebound

def x (column : Nat) : Ident :=
  { name := "x", raw := false, pos := ⟨1, column⟩, proper := by decide }

def y (column : Nat) : Ident :=
  { name := "y", raw := false, pos := ⟨1, column⟩, proper := by decide }

def value (ident : Ident) : ExprTree :=
  .path ident.pos false (.ofIdent ident)

def int : TypeTree :=
  .path ⟨1, 1⟩ false
    (.ofIdent { name := "i64", raw := false, pos := ⟨1, 1⟩, proper := by decide })

def function : FunctionTree where
  pos := ⟨1, 1⟩
  ident := { name := "new", raw := false, pos := ⟨1, 4⟩, proper := by decide }
  isPlain := true
  receiver := none
  params := [⟨.ident ⟨1, 8⟩ true (x 8), int⟩, ⟨.ident ⟨1, 16⟩ true (y 16), int⟩]
  output := none
  body := [
    .binding ⟨1, 34⟩ (.ident ⟨1, 38⟩ true (x 38)) none
      (some (.binary ⟨1, 42⟩ ⟨1, 44⟩ .add (value (x 42)) (.literal ⟨1, 46⟩ ⟨1, 46⟩ (.int 1 ""))))
      none,
    .binding ⟨1, 49⟩ (.ident ⟨1, 53⟩ true (y 53)) none (some (value (y 57))) none,
    .expr (.structLiteral ⟨1, 60⟩ false
      (.ofIdent { name := "Self", raw := false, pos := ⟨1, 60⟩, proper := by decide })
      [("v", ⟨1, 67⟩, value (x 70))] none) false]
  closing := ⟨1, 74⟩

def sig : ConstructorSig where
  name := "new"
  params := [⟨"x", some .int, ⟨1, 8⟩⟩, ⟨"y", some .int, ⟨1, 16⟩⟩]
  function := some function

def owner : UnitSig where
  name := "P"
  fullName := "P"
  fields := [⟨"v", some .int⟩]
  constructors := [sig]

end Rebound

/-- Each parameter is referred to by the value of the binding that takes its name, the first of
these by the final literal, and the second by nothing. -/
theorem lowerConstructor_unused_rebound :
    (lowerConstructor StandardFiles.manager
      { package := "", uri := "P.rs", structs := [], imports := [] } [Rebound.owner] Rebound.owner
      Rebound.sig (.start (.ofTree .empty))).2.delivered =
      [(Problem.unusedVariable "y").diagnostic (some "P.rs") (some ⟨1, 53⟩)] := by
  have told := lowerConstructor_unused rfl rfl
    (run_eta (lowerConstructor StandardFiles.manager
      { package := "", uri := "P.rs", structs := [], imports := [] } [Rebound.owner] Rebound.owner
      Rebound.sig) (.start (.ofTree .empty))) (by decide +kernel)
  rw [told]
  decide +kernel

end UnitSig

end UnitForge
