import Mathlib.Logic.Function.Basic
import UnitForge.Dialect.Signature
import UnitForge.Proofs.Dialect.Collection

/-! # What a compilation is made of

A compilation asks its session for units and packages of the class path. Its other steps see nothing
of what is known of the class path: they report, count errors, change the policy, and hand options
and outputs to the file manager. Declarations and signatures are found by sequences of such steps,
so what holds of each of them and of sequences holds of the whole. -/
set_option autoImplicit false
namespace UnitForge

open Source

variable {σ : Type}

def Problem.isOfUnitFile : Problem → Bool
  | .invalidUnitFile .. => true
  | _ => false

theorem Problem.code_ne_of_other {problem : Problem} (other : problem.isOfUnitFile = false) :
    problem.code ≠ "E0786" := by
  cases problem
  case invalidUnitFile => cases other
  all_goals simp [code]

/-- A step that neither asks about the class path nor sees what is known of it. -/
inductive Check.Plain (manager : FileManager σ) : {α : Type} → Check σ α → Prop
  | pure {α : Type} (value : α) : Plain manager (Pure.pure value)
  | errors : Plain manager (Session.errors <$> get)
  | arity (option : String) : Plain manager (Session.ask (manager.arityOf option))
  | policy (change : WarningPolicy → WarningPolicy) : Plain manager (modify fun session =>
      { session with policy := change session.policy })
  | report {problem : Problem} (other : problem.isOfUnitFile = false) (source : Option String)
      (position : Option Position) :
      Plain manager (Session.report (problem.diagnostic source position))
  | option (option : String) (values : List String) :
      Plain manager (Session.onFiles (manager.handleOption option values))
  | write (name : String) (source : SourceUnit) (bytes : Bytes) :
      Plain manager (Session.onFiles do
        let sink ← manager.output .classOutput name .unit (some source)
        sink.writeAll bytes
        sink.flush)
  | flush : Plain manager (Session.onFiles manager.flush)

/-- Steps that are put together from plain ones and questions about the class path. -/
inductive Check.Composed (manager : FileManager σ) : {α : Type} → Check σ α → Prop
  | plain {α : Type} {step : Check σ α} (plain : Plain manager step) : Composed manager step
  | unit (name : String) : Composed manager (Session.classPathUnit manager name)
  | member (package simple : String) :
      Composed manager (Session.packageContains manager package simple)
  | bind {α β : Type} {step : Check σ β} {next : β → Check σ α} (first : Composed manager step)
      (rest : ∀ value, Composed manager (next value)) : Composed manager (step >>= next)

namespace Check.Composed

variable {manager : FileManager σ} {α β : Type}

theorem pure (value : α) : Composed manager (Pure.pure value : Check σ α) :=
  .plain (.pure value)

theorem complain (uri : String) (pos : Position) {problem : Problem}
    (other : problem.isOfUnitFile = false) :
    Composed manager (Session.complain uri pos problem) :=
  .plain (.report other _ _)

theorem map {step : Check σ α} (f : α → β) (composed : Composed manager step) :
    Composed manager (f <$> step) :=
  composed.bind fun value => .pure (f value)

theorem ite {condition : Prop} [Decidable condition] {yes no : Check σ α}
    (whenTrue : Composed manager yes) (whenFalse : Composed manager no) :
    Composed manager (if condition then yes else no) := by
  split <;> assumption

theorem forM {f : α → Check σ PUnit} (each : ∀ item, Composed manager (f item))
    (items : List α) : Composed manager (items.forM f) := by
  induction items with
  | nil => exact .pure PUnit.unit
  | cons first rest ih => exact .bind (each first) fun _ => ih

theorem mapM {f : α → Check σ β} (each : ∀ item, Composed manager (f item)) (items : List α) :
    Composed manager (items.mapM f) := by
  induction items with
  | nil => exact .pure []
  | cons first rest ih =>
      rw [List.mapM_cons]
      exact .bind (each first) fun _ => .bind ih fun _ => .pure _

theorem filterMapM {f : α → Check σ (Option β)} (each : ∀ item, Composed manager (f item))
    (items : List α) : Composed manager (items.filterMapM f) := by
  induction items with
  | nil => exact .pure []
  | cons first rest ih =>
      rw [List.filterMapM_cons]
      apply (each first).bind
      intro found
      cases found with
      | none => exact ih
      | some value => exact .bind ih fun _ => .pure _

theorem foldlM {f : β → α → Check σ β} (each : ∀ known item, Composed manager (f known item))
    (items : List α) (start : β) : Composed manager (items.foldlM f start) := by
  induction items generalizing start with
  | nil => exact .pure start
  | cons first rest ih => exact .bind (each start first) fun known => ih known

/-- What is seen of a session decides what follows. -/
theorem look [Nonempty σ] {view : Session σ → β} {next : Session σ → Check σ α}
    (plain : Plain manager (view <$> get))
    (blind : ∀ session other, view session = view other → next session = next other)
    (rest : ∀ session, Composed manager (next session)) : Composed manager (get >>= next) := by
  have : Nonempty (Session σ) := ‹Nonempty σ›.map .start
  -- What follows is the same for all sessions with one view, so any of them stands for the view.
  have same : get >>= next =
      (view <$> get >>= fun value => next (Function.invFun view value) : Check σ α) := by
    funext session
    change next session session = next (Function.invFun view (view session)) session
    rw [blind _ session (Function.invFun_eq ⟨session, rfl⟩)]
  rw [same]
  exact .bind (.plain plain) fun _ => rest _

end Check.Composed

open Check

/-! ## Declarations -/

namespace Declarations

variable {manager : FileManager σ} (decls : Declarations)

theorem complain_composed (pos : Position) {problem : Problem}
    (other : problem.isOfUnitFile = false) : Composed manager (decls.complain pos problem) :=
  .complain decls.uri pos other

theorem refuse_composed {α : Type} (answer : α) (pos : Position) {problem : Problem}
    (other : problem.isOfUnitFile = false) :
    Composed manager (do decls.complain pos problem; return answer) :=
  .bind (decls.complain_composed pos other) fun _ => .pure answer

theorem declare_composed (tree : StructTree) : Composed manager (decls.declare tree) :=
  .ite (decls.refuse_composed _ _ rfl) (.pure _)

theorem addStruct_composed (tree : StructTree) : Composed manager (decls.addStruct tree) := by
  have declared : Composed manager (decls.declare tree) := decls.declare_composed tree
  have told (pos : Position) {problem : Problem} (other : problem.isOfUnitFile = false)
      {next : Check σ Declarations} (rest : Composed manager next) :
      Composed manager (do decls.complain pos problem; next) :=
    .bind (decls.complain_composed pos other) fun _ => rest
  obtain ⟨isPublic, ident, generics, fields⟩ := tree
  cases generics with
  | none =>
      cases fields with
      | unnamed pos => exact told pos rfl declared
      | _ => exact declared
  | some start =>
      cases fields with
      | unnamed pos => exact told start rfl (told pos rfl declared)
      | _ => exact told start rfl declared

theorem addImport_composed (found : Import) : Composed manager (decls.addImport found) :=
  .ite (decls.refuse_composed _ _ rfl) (.pure _)

theorem importsOf_other :
    (∀ path tree, ∀ report ∈ (importsOf path tree).2, report.2.isOfUnitFile = false) ∧
    ∀ path trees, ∀ report ∈ (importsOfAll path trees).2, report.2.isOfUnitFile = false := by
  apply importsOf.mutual_induct
  case case1 =>
    intro path ident tree relative
    rw [importsOf, if_pos relative]
    rintro _ ⟨⟩
    rfl
  case case2 =>
    intro path ident tree absolute ih
    rw [importsOf, if_neg absolute]
    exact ih
  case case3 | case4 =>
    intros
    contradiction
  case case5 =>
    intro path pos
    rintro _ ⟨⟩
    rfl
  case case6 =>
    intro path trees ih
    exact ih
  case case7 =>
    intro path
    exact nofun
  case case8 =>
    intro path first rest found problem same ih
    rw [importsOfAll, same]
    rw [same] at ih
    exact ih
  case case9 =>
    intro path first rest found same others problem same' ih ih'
    rw [importsOfAll, same]
    exact ih'

theorem addUse_composed (tree : UseTree) : Composed manager (decls.addUse tree) := by
  have adds (found : List Import) : Composed manager (found.foldlM addImport decls) :=
    .foldlM (fun decls found => decls.addImport_composed found) found decls
  have other := importsOf_other.1 [] tree
  unfold addUse
  rcases used : importsOf [] tree with ⟨found, problem⟩
  rw [used] at other
  cases problem with
  | none => exact adds found
  | some report =>
      exact .bind (decls.complain_composed _ (other report rfl)) fun _ => adds found

theorem addItem_composed (item : Item) : Composed manager (decls.addItem item) := by
  cases item with
  | struct tree => exact decls.addStruct_composed tree
  | use tree => exact decls.addUse_composed tree
  | impl tree => exact .pure _
  | other pos => exact decls.refuse_composed _ _ rfl

theorem resolveImport_composed (found : Import) :
    Composed manager (decls.resolveImport manager found) := by
  have finish (resolved : Bool) : Composed manager (do
      if !resolved then
        let path := Text.replaceChar '.' "::" found.fullName
        decls.complain found.pos (.unresolvedImport path)
      return { found with resolved } : Check σ Import) :=
    .ite (.bind (decls.complain_composed _ rfl) fun _ => .pure _) (.pure _)
  exact .ite (.bind (.pure _) finish) (.bind (.map _ (.unit _)) finish)

theorem resolveImports_composed : Composed manager (decls.resolveImports manager) :=
  .bind (.mapM decls.resolveImport_composed _) fun _ => .pure _

theorem checkPublic_composed (unit : SourceUnit) :
    Composed manager (decls.checkPublic unit) :=
  .forM (fun _ => .ite (decls.complain_composed _ rfl) (.pure _)) _

theorem addImplItem_composed (isDefault : Bool) (target : String) (item : ImplItem) :
    Composed manager (addImplItem isDefault target decls item) := by
  cases item with
  | other pos => exact decls.refuse_composed _ _ rfl
  | function function =>
      exact .ite (decls.refuse_composed _ _ rfl)
        (.ite (decls.refuse_composed _ _ rfl) (.pure _))

theorem addImpl_composed (tree : ImplTree) : Composed manager (decls.addImpl tree) := by
  have addTo (isDefault : Bool) : Composed manager (addImpl.addTo decls tree isDefault) := by
    unfold addImpl.addTo
    split
    · exact .foldlM (fun decls item => decls.addImplItem_composed isDefault _ item) _ _
    · exact decls.refuse_composed _ _ rfl
  unfold addImpl
  refine .ite (decls.refuse_composed _ _ rfl) ?_
  cases tree.ofTrait with
  | none => exact addTo false
  | some header => exact .ite (addTo true) (decls.refuse_composed _ _ rfl)

theorem collect_composed (file : File) (unit : SourceUnit) :
    Composed manager (collect manager file unit) := by
  refine .bind (.foldlM addItem_composed _ _) ?_
  intro declared
  apply declared.resolveImports_composed.bind
  intro resolved
  apply (resolved.checkPublic_composed unit).bind
  intro _
  refine .foldlM ?_ _ _
  intro decls item
  cases item with
  | impl tree => exact decls.addImpl_composed tree
  | _ => exact .pure _

/-! ## Types -/

theorem plainNames_composed (path : NamePath) : Composed manager (decls.plainNames path) := by
  unfold plainNames
  split
  · exact decls.refuse_composed _ _ rfl
  · exact .pure _

theorem resolveSimple_composed (name : String) (pos : Position) :
    Composed manager (decls.resolveSimple manager name pos) := by
  unfold resolveSimple
  split
  · exact .pure _
  · exact .pure _
  · exact .bind (.member _ _) fun known => .ite (.pure _) (decls.refuse_composed _ _ rfl)

theorem resolveUnit_composed (owner : String) (names : List String) (pos : Position) :
    Composed manager (decls.resolveUnit manager owner names pos) := by
  unfold resolveUnit
  split
  · exact decls.resolveSimple_composed _ _
  · have finish (known : Bool) : Composed manager (if known = true then
        pure (some (".".intercalate names)) else do
          decls.complain pos (.unknownTypeIn (names.getLastD "") ("::".intercalate names.dropLast))
          return none : Check σ (Option String)) :=
      .ite (.pure _) (decls.refuse_composed _ _ rfl)
    exact .ite (.bind (.pure _) finish) (.bind (.map _ (.unit _)) finish)

theorem resolveType_composed (owner : String) (type : TypeTree) :
    Composed manager (decls.resolveType manager owner type) := by
  induction type with
  | paren pos inner ih => exact ih
  | path pos qualified path =>
      cases qualified with
      | true => exact decls.refuse_composed _ _ rfl
      | false =>
          apply (decls.plainNames_composed path).bind
          intro names
          cases names with
          | none => exact .pure _
          | some names =>
              have unit : Composed manager (do
                  return (← decls.resolveUnit manager owner names pos).map TypeRef.unit) :=
                .bind (decls.resolveUnit_composed _ _ _) fun _ => .pure _
              dsimp only
              split
              · exact .pure _
              · exact unit
  | other pos form => exact decls.refuse_composed _ _ rfl

end Declarations

/-! ## Signatures -/

namespace UnitSig

variable {manager : FileManager σ} (decls : Declarations)

theorem fieldSigs_composed (owner : String) (known : List FieldSig) (fields : List FieldTree) :
    Composed manager (fieldSigs manager decls owner known fields) := by
  induction fields generalizing known with
  | nil => exact .pure _
  | cons field rest ih =>
      exact .ite (.bind (decls.complain_composed _ rfl) fun _ => ih _)
        (.bind (decls.resolveType_composed _ _) fun _ => ih _)

theorem paramSigs_composed (owner : String) (known : List ParamSig) (params : List ParamTree) :
    Composed manager (paramSigs manager decls owner known params) := by
  induction params generalizing known with
  | nil => exact .pure _
  | cons param rest ih =>
      obtain ⟨pattern, type⟩ := param
      cases pattern with
      | ident pos isPlain ident =>
          cases isPlain with
          | false => exact decls.refuse_composed _ _ rfl
          | true =>
              exact .ite (.bind (decls.complain_composed _ rfl) fun _ => ih _)
                (.bind (decls.resolveType_composed _ _) fun _ => ih _)
      | openRange | other => exact decls.refuse_composed _ _ rfl

theorem constructorSig_composed (owner : String) (function : FunctionTree) :
    Composed manager (constructorSig manager decls owner function) := by
  unfold constructorSig
  refine .ite (decls.refuse_composed _ _ rfl) ?_
  split
  · exact decls.refuse_composed _ _ rfl
  · refine .ite (decls.refuse_composed _ _ rfl) ?_
    exact .bind (paramSigs_composed decls _ _ _) fun _ => .pure _

theorem warnOfTwins_composed (earlier later : List ConstructorSig) :
    Composed manager (warnOfTwins decls earlier later) := by
  induction later generalizing earlier with
  | nil => exact .pure _
  | cons next rest ih =>
      unfold warnOfTwins
      dsimp only
      split
      · exact .bind (decls.complain_composed _ rfl) fun _ => ih _
      · exact ih _

theorem ofStruct_composed (struct : DeclaredStruct) :
    Composed manager (ofStruct manager decls struct) := by
  apply (fieldSigs_composed decls _ _ _).bind
  intro fields
  refine .bind (.filterMapM (constructorSig_composed decls _) _) ?_
  intro found
  exact .bind (warnOfTwins_composed decls _ _) fun _ => .pure _

theorem ofDeclarations_composed : Composed manager (ofDeclarations manager decls) :=
  .mapM (ofStruct_composed decls) _

end UnitSig

end UnitForge
