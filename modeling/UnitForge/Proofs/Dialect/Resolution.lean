import UnitForge.Dialect.Declarations
import UnitForge.Proofs.Dialect.Growth

/-! # What names of units stand for

The unit that a path of names leads to depends on the declarations of a source and on what the
class path was found to hold, and on nothing else. A path that leads nowhere has been reported,
provided that the imports without a unit have been. -/
set_option autoImplicit false
namespace UnitForge

variable {σ : Type}

structure ClassPathView where
  units : List (String × Option UnitImage)
  packages : List (String × List String)
  deriving Repr

namespace ClassPathView

def image? (view : ClassPathView) (name : String) : Option UnitImage :=
  (view.units.lookup name).join

end ClassPathView

namespace Session

def view (session : Session σ) : ClassPathView :=
  { units := session.units, packages := session.packages }

/-- A view that agrees with everything that a session remembers. -/
structure SeenIn (session : Session σ) (view : ClassPathView) : Prop where
  units : ∀ name answer, session.units.lookup name = some answer →
    view.units.lookup name = some answer
  packages : ∀ package names, session.packages.lookup package = some names →
    view.packages.lookup package = some names

theorem SeenIn.rfl {session : Session σ} : session.SeenIn session.view :=
  ⟨fun _ _ found => found, fun _ _ found => found⟩

theorem Extends.seenIn {manager : FileManager σ} {before after : Session σ} {view : ClassPathView}
    (grown : before.Extends manager after) (seen : after.SeenIn view) : before.SeenIn view :=
  ⟨fun _ _ found => seen.units _ _ (grown.units _ _ found),
    fun _ _ found => seen.packages _ _ (grown.packages _ _ found)⟩

end Session

namespace Declarations

open Step

def simpleUnit? (decls : Declarations) (view : ClassPathView) (name : String) : Option String :=
  match decls.struct? name, decls.import? name with
  | some struct, _ => some struct.fullName
  | none, some found => if found.resolved then some found.fullName else none
  | none, none =>
    let full := Name.qualify decls.package name
    match view.packages.lookup decls.package with
    | some names => if names.contains full then some full else none
    | none => none

def fullUnit? (decls : Declarations) (view : ClassPathView) (full : String) : Option String :=
  if decls.declaresFull full || (view.image? full).isSome then some full else none

/-- The unit that a path of names stands for inside the struct `owner`. -/
def unitOf? (decls : Declarations) (view : ClassPathView) (owner : String) :
    List String → Option String
  | [name] => decls.simpleUnit? view (if name = "Self" then owner else name)
  | names => decls.fullUnit? view (".".intercalate names)

def Resolved (decls : Declarations) : Prop :=
  ∀ found ∈ decls.imports, found.resolved = true

variable {manager : FileManager σ} {decls : Declarations}

theorem complain_extends (pos : Position) (problem : Problem) :
    Check.Extends manager (decls.complain (σ := σ) pos problem) :=
  Session.complain_extends _ _ _

theorem not_clean_complain {pos : Position} {problem : Problem}
    (grave : problem.severity = .error) (before : Session σ) :
    ¬(decls.complain pos problem before).2.Clean :=
  Session.not_clean_complain grave before

theorem not_clean_of_complain {pos : Position} {problem : Problem} {before after : Session σ}
    {value : Unit} (run : decls.complain pos problem before = (value, after))
    (grave : problem.severity = .error) : ¬after.Clean := by
  have reported : ¬(decls.complain pos problem before).2.Clean := not_clean_complain grave before
  rwa [run] at reported

theorem refuse_run {α : Type} {answer found : α} {pos : Position} {problem : Problem}
    {before after : Session σ}
    (run : (do decls.complain pos problem; return answer) before = (found, after)) :
    before.Extends manager after ∧ found = answer ∧
      (problem.severity = .error → ¬after.Clean) := by
  obtain ⟨_, middle, complained, run⟩ := bind_run run
  cases run
  exact ⟨(complain_extends _ _).of_run complained, rfl, not_clean_of_complain complained⟩

/-! ## Paths -/

theorem plainNames_extends (path : Source.NamePath) :
    Check.Extends manager (decls.plainNames path) := by
  unfold plainNames
  split
  · exact .bind (complain_extends _ _) fun _ => .pure _
  · exact .pure _

theorem plainNames_run {path : Source.NamePath} {found : Option (List String)}
    {before after : Session σ} (run : decls.plainNames path before = (found, after)) :
    (found = some path.names ∧ after = before) ∨
      (found = none ∧ ¬after.Clean) := by
  unfold plainNames at run
  cases generic : path.segments.findSome? Source.Segment.arguments with
  | some arguments =>
      simp only [generic] at run
      obtain ⟨_, middle, told, run⟩ := bind_run run
      cases run
      exact .inr ⟨rfl, not_clean_of_complain told rfl⟩
  | none =>
      simp only [generic] at run
      cases run
      exact .inl ⟨rfl, rfl⟩

/-! ## Units -/

theorem resolveSimple_extends (name : String) (pos : Position) :
    Check.Extends manager (decls.resolveSimple manager name pos) := by
  unfold resolveSimple
  split
  · exact .pure _
  · exact .pure _
  · apply (Session.packageContains_extends _ _).bind
    intro known
    refine .ite (.pure _) ?_
    exact .bind (complain_extends _ _) fun _ => .pure _

theorem resolveUnit_extends (owner : String) (names : List String) (pos : Position) :
    Check.Extends manager (decls.resolveUnit manager owner names pos) := by
  unfold resolveUnit
  split
  · exact resolveSimple_extends _ _
  · have finish (known : Bool) : Check.Extends manager (σ := σ) (if known = true then
        pure (some (".".intercalate names)) else do
          decls.complain pos (.unknownTypeIn (names.getLastD "") ("::".intercalate names.dropLast))
          return none) :=
      .ite (.pure _) (.bind (complain_extends _ _) fun _ => .pure _)
    exact .ite (.bind (.pure _) finish)
      (.bind (.map _ (Session.classPathUnit_extends _)) finish)

theorem resolveSimple_run {name : String} {pos : Position} {found : Option String}
    {before after : Session σ} {view : ClassPathView}
    (run : decls.resolveSimple manager name pos before = (found, after))
    (seen : after.SeenIn view) :
    (∀ unit, found = some unit → decls.simpleUnit? view name = some unit) ∧
      (found = none → decls.Resolved → ¬after.Clean) := by
  unfold resolveSimple at run
  unfold simpleUnit?
  cases isStruct : decls.struct? name with
  | some struct =>
      simp only [isStruct] at run ⊢
      cases run
      exact ⟨fun _ same => same, nofun⟩
  | none =>
      cases isImport : decls.import? name with
      | some found =>
          simp only [isStruct, isImport] at run ⊢
          cases run
          refine ⟨fun _ same => same, ?_⟩
          intro missing resolved
          have := resolved found (List.mem_of_find?_eq_some isImport)
          simp [this] at missing
      | none =>
          simp only [isStruct, isImport] at run ⊢
          obtain ⟨known, middle, asked, run⟩ := bind_run run
          obtain ⟨-, names, listed, rfl⟩ := Session.packageContains_run asked
          split at run
          · rename_i holds
            cases run
            simp [seen.packages _ _ listed, List.contains_iff_mem.mp holds]
          · obtain ⟨_, told, complained, run⟩ := bind_run run
            cases run
            exact ⟨nofun, fun _ _ => not_clean_of_complain complained rfl⟩

/-- A path leads where the declarations and the class path say, and the failure to lead anywhere is
an error. -/
theorem resolveUnit_run {owner : String} {names : List String} {pos : Position}
    {found : Option String} {before after : Session σ} {view : ClassPathView}
    (run : decls.resolveUnit manager owner names pos before = (found, after))
    (seen : after.SeenIn view) :
    (∀ unit, found = some unit → decls.unitOf? view owner names = some unit) ∧
      (found = none → decls.Resolved → ¬after.Clean) := by
  unfold resolveUnit at run
  split at run
  · exact resolveSimple_run run seen
  · rename_i several
    rw [unitOf?.eq_2 _ _ _ _ several]
    unfold fullUnit?
    by_cases declared : decls.declaresFull (".".intercalate names) = true
    · simp only [declared, if_true, Bool.true_or] at run ⊢
      cases run
      exact ⟨fun _ same => same, fun none => absurd none (Option.some_ne_none _)⟩
    · simp only [declared, Bool.false_or] at run ⊢
      obtain ⟨known, middle, asked, run⟩ := bind_run run
      obtain ⟨answer, reached, looked, same⟩ := map_run asked
      cases same
      obtain ⟨-, remembered⟩ := Session.classPathUnit_run looked
      split at run
      · rename_i holds
        cases run
        refine ⟨?_, fun none => absurd none (Option.some_ne_none _)⟩
        intro unit same
        have : (view.image? (".".intercalate names)).isSome := by
          simp [ClassPathView.image?, seen.units _ _ remembered, holds]
        simpa [this] using same
      · obtain ⟨_, told, complained, run⟩ := bind_run run
        cases run
        refine ⟨?_, fun _ _ => not_clean_of_complain complained rfl⟩
        intro unit same
        cases same

/-! ## Types -/

theorem resolveType_extends (owner : String) (type : Source.TypeTree) :
    Check.Extends manager (decls.resolveType manager owner type) := by
  induction type with
  | paren pos inner ih => exact ih
  | path pos qualified path =>
      cases qualified with
      | true => exact .bind (complain_extends _ _) fun _ => .pure _
      | false =>
          apply (plainNames_extends path).bind
          intro names
          cases names with
          | none => exact .pure _
          | some names =>
              have unit : Check.Extends manager (σ := σ) (do
                  return (← decls.resolveUnit manager owner names pos).map TypeRef.unit) :=
                .bind (resolveUnit_extends _ _ _) fun _ => .pure _
              dsimp only
              split
              · exact .pure _
              · exact unit
  | other pos form => exact .bind (complain_extends _ _) fun _ => .pure _

theorem resolveType_known {owner : String} {type : Source.TypeTree} {before after : Session σ}
    (run : decls.resolveType manager owner type before = (none, after))
    (resolved : decls.Resolved) : ¬after.Clean := by
  induction type with
  | paren pos inner ih => exact ih run
  | path pos qualified path =>
      cases qualified with
      | true =>
          obtain ⟨_, told, complained, run⟩ := bind_run run
          cases run
          exact not_clean_of_complain complained rfl
      | false =>
          obtain ⟨names, middle, asked, rest⟩ := bind_run run
          rcases plainNames_run asked with ⟨rfl, -⟩ | ⟨rfl, reported⟩
          · have unit (names : List String) (rest : (do
                return (← decls.resolveUnit manager owner names pos).map TypeRef.unit :
                  Check σ (Option TypeRef)) middle = (none, after)) : ¬after.Clean := by
              obtain ⟨unit, reached, looked, finish⟩ := bind_run rest
              obtain ⟨none_, rfl⟩ := Prod.mk.inj finish
              exact (resolveUnit_run looked .rfl).2 (Option.map_eq_none_iff.mp none_) resolved
            revert rest
            dsimp only
            split
            · rename_i name _
              cases Declarations.primitive? name with
              | some type => exact nofun
              | none => exact unit _
            · exact unit _
          · cases rest
            exact reported
  | other pos form =>
      obtain ⟨_, told, complained, run⟩ := bind_run run
      cases run
      exact not_clean_of_complain complained rfl

end Declarations

end UnitForge
