import UnitForge.Proofs.Dialect.Resolution
import UnitForge.Proofs.Dialect.Telling

/-! # Questions asked twice

Two sessions that remember nothing of the class path but what one view holds are given the same
answers. Where one of them is told of no error, the other one is told nothing at all: whatever there
is to report follows from the answers, save that the file of a unit could not be read, and then
there is no answer. -/
set_option autoImplicit false
namespace UnitForge

open Step

variable {σ : Type} {view : ClassPathView} {manager : FileManager σ}

/-- If the question is asked in two sessions and no error is reported in the second one, nothing is
reported in the first one and both answers are the same. -/
structure Repeats (manager : FileManager σ) (view : ClassPathView) {α : Type} (step : Check σ α) :
    Prop where
  grows : Check.Extends manager step
  again : ∀ first second : Session σ, (step first).2.SeenIn view → (step second).2.SeenIn view →
    (step second).2.errors = second.errors →
      first.Silent (step first).2 ∧ (step first).1 = (step second).1

namespace Session

theorem classPathUnit_found {name : String} {image : UnitImage} {before after : Session σ}
    (run : classPathUnit manager name before = (some image, after)) : before.Silent after := by
  obtain ⟨current, same, state, run⟩ := bind_run run
  cases state
  cases known : before.units.lookup name with
  | some answer =>
      simp only [known] at run
      cases run
      rfl
  | none =>
      simp only [known] at run
      obtain ⟨found, middle, read, run⟩ := bind_run run
      cases run
      obtain ⟨opened, middle', asked, read⟩ := bind_run read
      have silent : before.delivered = middle'.delivered :=
        ((onFiles_silent _).of_run asked).symm
      rcases opened with fault | _ | file
      · cases read
      · cases read
      · obtain ⟨bytes, closed, reading, read⟩ := bind_run read
        have silent' : middle'.delivered = closed.delivered :=
          ((onFiles_silent _).of_run reading).symm
        rcases bytes with fault | bytes
        · cases read
        · cases decoded : UnitImage.decode name bytes with
          | error fault =>
              simp only [decoded] at read
              cases read
          | ok image =>
              simp only [decoded] at read
              cases read
              exact (silent.trans silent').symm

theorem packageContains_repeats (package simple : String) :
    Repeats manager view (packageContains manager package simple) where
  grows := packageContains_extends package simple
  again first second seen seen' _ := by
    obtain ⟨-, names, known, answer⟩ := packageContains_run
      (run_eta (packageContains manager package simple) first)
    obtain ⟨-, names', known', answer'⟩ := packageContains_run
      (run_eta (packageContains manager package simple) second)
    have same : some names = some names' :=
      (seen.packages _ _ known).symm.trans (seen'.packages _ _ known')
    refine ⟨packageContains_silent package simple first, ?_⟩
    rw [answer, answer', Option.some.inj same]

end Session

namespace Repeats

variable {α β : Type}

theorem pure (answer : α) : Repeats manager view (Pure.pure answer : Check σ α) :=
  ⟨.pure _, fun _ _ _ _ _ => ⟨rfl, rfl⟩⟩

theorem ite {condition : Prop} [Decidable condition] {yes no : Check σ α}
    (whenTrue : Repeats manager view yes) (whenFalse : Repeats manager view no) :
    Repeats manager view (if condition then yes else no) := by
  split <;> assumption

theorem bind {step : Check σ β} {next : β → Check σ α} (first : Repeats manager view step)
    (rest : ∀ answer, Repeats manager view (next answer)) :
    Repeats manager view (step >>= next) where
  grows := .bind first.grows fun answer => (rest answer).grows
  again s t seen seen' quiet := by
    rcases ran : step s with ⟨answer, middle⟩
    rcases ran' : step t with ⟨answer', middle'⟩
    rw [bind_of_run ran] at seen ⊢
    rw [bind_of_run ran'] at seen' quiet ⊢
    have later := (rest answer).grows middle
    have later' := (rest answer').grows middle'
    have started := (first.grows.of_run ran').errors_le
    have ended := later'.errors_le
    have told := first.again s t
    rw [ran, ran'] at told
    obtain ⟨silent, same⟩ := told (later.seenIn seen) (later'.seenIn seen') (by dsimp only; omega)
    cases same
    obtain ⟨silent', same⟩ := (rest answer).again middle middle' seen seen' (by omega)
    exact ⟨silent'.trans silent, same⟩

theorem unit {name : String} {next : Option UnitImage → Check σ α}
    (goesOn : Check.Extends manager (next none))
    (refuses : ∀ session, session.errors < (next none session).2.errors)
    (rest : ∀ image, Repeats manager view (next (some image))) :
    Repeats manager view (Session.classPathUnit manager name >>= next) := by
  have grows (answer : Option UnitImage) : Check.Extends manager (next answer) := by
    cases answer with
    | none => exact goesOn
    | some image => exact (rest image).grows
  refine ⟨.bind (Session.classPathUnit_extends name) grows, ?_⟩
  intro s t seen seen' quiet
  rcases asked : Session.classPathUnit manager name s with ⟨answer, middle⟩
  rcases asked' : Session.classPathUnit manager name t with ⟨answer', middle'⟩
  rw [bind_of_run asked] at seen ⊢
  rw [bind_of_run asked'] at seen' quiet ⊢
  obtain ⟨-, known⟩ := Session.classPathUnit_run asked
  obtain ⟨grown, known'⟩ := Session.classPathUnit_run asked'
  have started := grown.errors_le
  have same : some answer = some answer' :=
    (((grows answer middle).seenIn seen).units _ _ known).symm.trans
      (((grows answer' middle').seenIn seen').units _ _ known')
  cases same
  cases answer with
  | none =>
      have refused := refuses middle'
      omega
  | some image =>
      have ended := (grows (some image) middle').errors_le
      obtain ⟨silent, same⟩ := (rest image).again middle middle' seen seen' (by omega)
      exact ⟨silent.trans (Session.classPathUnit_found asked), same⟩

variable {decls : Declarations}

theorem refuse {pos : Position} {problem : Problem} (grave : problem.severity = .error)
    (answer : α) :
    Repeats manager view (do decls.complain pos problem; return answer : Check σ α) where
  grows := .bind (Declarations.complain_extends _ _) fun _ => .pure _
  again s t _ _ quiet := by
    have told : (decls.complain pos problem t).2.errors = t.errors + 1 :=
      Session.errors_report grave t
    change (decls.complain pos problem t).2.errors = t.errors at quiet
    omega

end Repeats

/-! ## Names and types -/

namespace Declarations

variable {decls : Declarations}

theorem plainNames_repeats (path : Source.NamePath) :
    Repeats manager view (decls.plainNames path) := by
  unfold plainNames
  split
  · exact .refuse rfl _
  · exact .pure _

theorem resolveSimple_repeats (name : String) (pos : Position) :
    Repeats manager view (decls.resolveSimple manager name pos) := by
  unfold resolveSimple
  split
  · exact .pure _
  · exact .pure _
  · exact .bind (Session.packageContains_repeats _ _) fun known => .ite (.pure _) (.refuse rfl _)

theorem resolveUnit_repeats (owner : String) (names : List String) (pos : Position) :
    Repeats manager view (decls.resolveUnit manager owner names pos) := by
  unfold resolveUnit
  split
  · exact resolveSimple_repeats _ _
  · dsimp only
    refine .ite (.pure _) ?_
    rw [bind_map_left]
    refine .unit (.bind (complain_extends _ _) fun _ => .pure _) ?_ fun image => .pure _
    intro session
    exact Nat.lt_of_lt_of_eq (Nat.lt_succ_self _) (Session.errors_report rfl session).symm

theorem resolveType_repeats (owner : String) (type : Source.TypeTree) :
    Repeats manager view (decls.resolveType manager owner type) := by
  induction type with
  | paren pos inner ih => exact ih
  | path pos qualified path =>
      cases qualified with
      | true => exact .refuse rfl _
      | false =>
          apply (plainNames_repeats path).bind
          intro names
          cases names with
          | none => exact .pure _
          | some names =>
              have unit : Repeats manager view (do
                  return (← decls.resolveUnit manager owner names pos).map TypeRef.unit) :=
                .bind (resolveUnit_repeats _ _ _) fun _ => .pure _
              dsimp only
              split
              · exact .pure _
              · exact unit
  | other pos form => exact .refuse rfl _

end Declarations

end UnitForge
