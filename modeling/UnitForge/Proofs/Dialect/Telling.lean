import UnitForge.Dialect.Lowering
import UnitForge.Proofs.Dialect.Policy

/-! # What questions tell

Whatever a source asks its declarations or the class path, it is told nothing but errors, and no
report that an expression nests too deeply. Such a report is known by its text. -/
set_option autoImplicit false
namespace UnitForge

open Step

variable {σ : Type} {uri : String}

/-! ## The report of the depth -/

def depthReport (uri : String) (pos : Position) : Diagnostic :=
  (Problem.tooDeep maxExprDepth).diagnostic (some uri) (some pos)

def isDepthReport (uri : String) (diagnostic : Diagnostic) : Bool :=
  match diagnostic.position with
  | some pos => diagnostic = depthReport uri pos
  | none => false

theorem isDepthReport_iff {diagnostic : Diagnostic} :
    isDepthReport uri diagnostic = true ↔ ∃ pos, diagnostic = depthReport uri pos := by
  unfold isDepthReport
  constructor
  · intro known
    split at known
    · exact ⟨_, of_decide_eq_true known⟩
    · cases known
  · rintro ⟨pos, rfl⟩
    exact decide_eq_true rfl

/-- Whether a problem is none of the depth, and none of a signature that is told by its name. -/
def Problem.isOther : Problem → Bool
  | .tooDeep _ | .specialConstructor _ | .takesSelf _ | .returnsOther _ => false
  | _ => true

theorem Problem.words_differ {problem : Problem} (other : problem.isOther = true) :
    problem.code ≠ (tooDeep maxExprDepth).code ∨
      problem.message ≠ (tooDeep maxExprDepth).message := by
  cases problem
  case tooDeep | specialConstructor | takesSelf | returnsOther =>
    exact absurd other Bool.false_ne_true
  all_goals first
    | exact .inr (by decide +kernel)
    | exact .inl (by simp [code])

theorem isDepthReport_other {problem : Problem} (other : problem.isOther = true)
    (source : Option String) (position : Option Position) :
    isDepthReport uri (problem.diagnostic source position) = false := by
  rw [← Bool.not_eq_true, isDepthReport_iff]
  rintro ⟨pos, same⟩
  rcases Problem.words_differ other with differs | differs
  · exact differs (congrArg Diagnostic.code same)
  · exact differs (congrArg Diagnostic.message same)

/-! ## Sessions that are told of other errors -/

namespace Session

def Silent (before after : Session σ) : Prop :=
  after.delivered = before.delivered

instance : IsPreorder (Session σ) Silent where
  refl _ := rfl
  trans _ _ _ h k := k.trans h

/-- What was told in between are errors, and none of them is of the depth. -/
def TellsOther (uri : String) (before after : Session σ) : Prop :=
  ∃ told, after.delivered = before.delivered ++ told ∧
    ∀ diagnostic ∈ told, diagnostic.severity = .error ∧ isDepthReport uri diagnostic = false

theorem Silent.tellsOther {before after : Session σ} (silent : before.Silent after) :
    before.TellsOther uri after :=
  ⟨[], by rw [silent, List.append_nil], nofun⟩

instance : IsPreorder (Session σ) (TellsOther uri) where
  refl session := Silent.tellsOther (Std.Refl.refl session)
  trans _ _ _ h k := by
    obtain ⟨earlier, same, each⟩ := h
    obtain ⟨later, same', each'⟩ := k
    refine ⟨earlier ++ later, by rw [same', same, List.append_assoc], ?_⟩
    intro diagnostic member
    rcases List.mem_append.mp member with old | new
    · exact each diagnostic old
    · exact each' diagnostic new

theorem delivered_report {diagnostic : Diagnostic} (grave : diagnostic.severity = .error)
    (before : Session σ) :
    (report diagnostic before).2.delivered = before.delivered ++ [diagnostic] := by
  change before.delivered ++ (before.policy.apply diagnostic).toList = _
  rw [WarningPolicy.apply_grave grave]
  rfl

theorem report_tellsOther {problem : Problem} (grave : problem.severity = .error)
    (other : problem.isOther = true) (source : Option String) (position : Option Position) :
    Within (TellsOther uri) (report (σ := σ) (problem.diagnostic source position)) := by
  intro before
  refine ⟨_, delivered_report grave before, ?_⟩
  intro diagnostic member
  rw [List.mem_singleton.mp member]
  exact ⟨grave, isDepthReport_other other source position⟩

variable {manager : FileManager σ}

theorem ask_silent {α : Type} (query : FileQuery σ α) : Within Silent (ask query) :=
  fun _ => rfl

theorem onFiles_silent {α : Type} (op : FileOp σ α) : Within Silent (onFiles op) :=
  fun _ => rfl

theorem classPathUnit_tellsOther (name : String) :
    Within (TellsOther uri) (classPathUnit manager name) := by
  have asks {α : Type} (op : FileOp σ α) : Within (TellsOther uri) (onFiles op) :=
    fun before => (onFiles_silent op before).tellsOther
  have unreadable (file : FileObject) (error : Error) :
      Within (TellsOther uri) (readUnit.unreadable (σ := σ) name file error) :=
    .bind (report_tellsOther rfl rfl _ _) fun _ => .pure _
  have reads : Within (TellsOther uri) (readUnit manager name) := by
    apply (asks _).bind
    intro found
    split
    · apply (asks _).bind
      intro bytes
      split
      · split
        · exact .pure _
        · exact unreadable _ _
      · exact unreadable _ _
    · exact .pure _
  refine .bind .get ?_
  intro session
  split
  · exact .pure _
  · exact .bind reads fun _ => .bind (fun _ => Silent.tellsOther rfl) fun _ => .pure _

theorem packageContains_silent (package simple : String) :
    Within Silent (packageContains manager package simple) := by
  have lists : Within Silent (listPackage manager package) := by
    apply (onFiles_silent _).bind
    intro found
    split
    · exact .filterMapM (fun file => ask_silent _) _
    · exact .pure _
  refine .bind .get ?_
  intro session
  split
  · exact .pure _
  · exact .bind lists fun _ => .bind (fun _ => rfl) fun _ => .pure _

end Session

/-! ## Names and types -/

namespace Declarations

variable {manager : FileManager σ} {decls : Declarations}

open Session

theorem complain_tellsOther (pos : Position) {problem : Problem}
    (grave : problem.severity = .error) (other : problem.isOther = true) :
    Within (TellsOther uri) (decls.complain (σ := σ) pos problem) :=
  report_tellsOther grave other _ _

theorem refuse_tellsOther {α : Type} (answer : α) (pos : Position) {problem : Problem}
    (grave : problem.severity = .error) (other : problem.isOther = true) :
    Within (TellsOther uri) (do decls.complain pos problem; return answer : Check σ α) :=
  .bind (complain_tellsOther pos grave other) fun _ => .pure _

theorem plainNames_tellsOther (path : Source.NamePath) :
    Within (TellsOther uri) (decls.plainNames (σ := σ) path) := by
  unfold plainNames
  split
  · exact refuse_tellsOther _ _ rfl rfl
  · exact .pure _

theorem resolveUnit_tellsOther (owner : String) (names : List String) (pos : Position) :
    Within (TellsOther uri) (decls.resolveUnit manager owner names pos) := by
  have simple (name : String) :
      Within (TellsOther uri) (decls.resolveSimple manager name pos) := by
    unfold resolveSimple
    split
    · exact .pure _
    · exact .pure _
    · refine .bind (fun before => (packageContains_silent _ _ before).tellsOther) ?_
      intro known
      exact .ite (.pure _) (refuse_tellsOther _ _ rfl rfl)
  unfold resolveUnit
  split
  · exact simple _
  · have finish (known : Bool) : Within (TellsOther uri) (if known = true then
        pure (some (".".intercalate names)) else do
          decls.complain pos (.unknownTypeIn (names.getLastD "") ("::".intercalate names.dropLast))
          return none : Check σ (Option String)) :=
      .ite (.pure _) (refuse_tellsOther _ _ rfl rfl)
    exact .ite (.bind (.pure _) finish)
      (.bind (.map _ (classPathUnit_tellsOther _)) finish)

theorem resolveType_tellsOther (owner : String) (type : Source.TypeTree) :
    Within (TellsOther uri) (decls.resolveType manager owner type) := by
  induction type with
  | paren pos inner ih => exact ih
  | path pos qualified path =>
      cases qualified with
      | true => exact refuse_tellsOther _ _ rfl rfl
      | false =>
          apply (plainNames_tellsOther path).bind
          intro names
          cases names with
          | none => exact .pure _
          | some names =>
              have unit : Within (TellsOther uri) (do
                  return (← decls.resolveUnit manager owner names pos).map TypeRef.unit :
                    Check σ (Option TypeRef)) :=
                .bind (resolveUnit_tellsOther _ _ _) fun _ => .pure _
              dsimp only
              split
              · exact .pure _
              · exact unit
  | other pos form => exact refuse_tellsOther _ _ rfl rfl

end Declarations

theorem Lower.constructorsOf_tellsOther (context : LoweringContext σ) (unit : String) :
    Within (Session.TellsOther uri) (constructorsOf context unit) := by
  unfold constructorsOf
  split
  · exact .pure _
  · exact .bind (Session.classPathUnit_tellsOther _) fun _ => .pure _

end UnitForge
