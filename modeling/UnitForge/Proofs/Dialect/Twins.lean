import UnitForge.Proofs.Dialect.Signatures
import Mathlib.Data.List.Forall2

/-! # Twins

Two constructors of a struct are twins if they take the same types. Whatever a struct is like, each
of its constructors that has a twin before it was reported, at the place of the function that it is
made from. -/
set_option autoImplicit false
namespace UnitForge

open Source Step

variable {σ : Type} {manager : FileManager σ}

namespace Session

/-- What the policy of a session makes of a diagnostic has been delivered. -/
def Told (session : Session σ) (diagnostic : Diagnostic) : Prop :=
  ∀ passed, session.policy.apply diagnostic = some passed → passed ∈ session.delivered

variable {before after : Session σ} {diagnostic : Diagnostic}

theorem Told.later (told : before.Told diagnostic) (grown : before.Extends manager after) :
    after.Told diagnostic := by
  intro passed passes
  rw [grown.policy] at passes
  exact grown.delivered.subset (told passed passes)

theorem not_clean_of_mem {session : Session σ} (member : diagnostic ∈ session.delivered)
    (grave : diagnostic.severity = .error) : ¬session.Clean := by
  intro clean
  have none := List.countP_eq_zero.mp clean diagnostic member
  exact none (decide_eq_true grave)

theorem Told.mem (told : before.Told diagnostic) (warns : diagnostic.severity = .warning)
    (keeps : before.policy.suppress = false) (clean : before.Clean) :
    diagnostic ∈ before.delivered := by
  cases denies : before.policy.deny with
  | false => exact told diagnostic (by simp [WarningPolicy.apply, warns, keeps, denies])
  | true =>
      have denied := told { diagnostic with severity := .error }
        (by simp [WarningPolicy.apply, warns, keeps, denies])
      exact absurd clean (not_clean_of_mem denied rfl)

end Session

namespace UnitSig

variable {decls : Declarations}

def twinWarning (uri : String) (twin : String) (function : FunctionTree) : Diagnostic :=
  (Problem.identicalConstructors twin function.ident.name).diagnostic (some uri)
    (some function.ident.pos)

/-- Each constructor with a twin before it is made from a function of the struct, and there was a
warning of it. -/
def TwinsTold (uri : String) (struct : DeclaredStruct) (sig : UnitSig) (session : Session σ) :
    Prop :=
  ∀ earlier later rest, sig.constructors = earlier ++ later :: rest →
    (∃ twin ∈ earlier, twin.sameTypes later = true) →
      ∃ function ∈ struct.functions, function.ident.name = later.name ∧
        ∃ twin ∈ earlier, twin.sameTypes later = true ∧
          session.Told (twinWarning uri twin.name function)

theorem TwinsTold.later {uri : String} {struct : DeclaredStruct} {sig : UnitSig}
    {before after : Session σ} (told : sig.TwinsTold uri struct before)
    (grown : before.Extends manager after) : sig.TwinsTold uri struct after := by
  intro earlier later rest same twins
  obtain ⟨function, member, named, twin, known, alike, warned⟩ := told earlier later rest same twins
  exact ⟨function, member, named, twin, known, alike, warned.later grown⟩

theorem constructorSig_made {owner : String} {function : FunctionTree} {ctor : ConstructorSig}
    {before after : Session σ}
    (run : constructorSig manager decls owner function before = (some ctor, after)) :
    ctor.function = some function ∧ ctor.name = function.ident.name := by
  unfold constructorSig at run
  split at run
  · cases run
  · cases receiver : function.receiver with
    | some pos =>
        simp only [receiver] at run
        cases run
    | none =>
        simp only [receiver] at run
        split at run
        · cases run
        · obtain ⟨params, middle, resolved, run⟩ := bind_run run
          obtain ⟨made, -⟩ := Prod.mk.inj run
          obtain ⟨params, rfl, rfl⟩ := Option.map_eq_some_iff.mp made
          exact ⟨rfl, rfl⟩

end UnitSig

end UnitForge
