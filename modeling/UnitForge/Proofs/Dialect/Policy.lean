import UnitForge.Proofs.Dialect.Lockstep

/-! # Sessions under another policy

A policy acts on nothing but what is delivered. A session under a policy therefore goes on like one
in which warnings stay warnings, with every diagnostic replaced by what the policy makes of it. -/
set_option autoImplicit false
namespace UnitForge

open Step

variable {σ : Type} {policy : WarningPolicy}

theorem WarningPolicy.default_apply (diagnostic : Diagnostic) :
    default.apply diagnostic = some diagnostic := by
  by_cases warns : diagnostic.severity = .warning
  · rw [apply, if_pos warns]
    rfl
  · rw [apply, if_neg warns]

theorem WarningPolicy.apply_grave {diagnostic : Diagnostic}
    (grave : diagnostic.severity = .error) : policy.apply diagnostic = some diagnostic := by
  rw [apply, if_neg]
  rw [grave]
  decide

namespace Session

/-- What the second session delivered is what the policy makes of what the first one delivered, and
there is no other difference. -/
structure Under (policy : WarningPolicy) (session other : Session σ) : Prop where
  plain : session.policy = .default
  same : other = { session with policy, delivered := session.delivered.filterMap policy.apply }

theorem report_under (diagnostic : Diagnostic) :
    Alike (Under policy) (report (σ := σ) diagnostic) (report diagnostic) := by
  intro s t under
  have kept : s.policy.apply diagnostic = some diagnostic := by
    rw [under.plain, WarningPolicy.default_apply]
  refine ⟨rfl, under.plain, ?_⟩
  rw [under.same]
  change { s with policy, delivered := s.delivered.filterMap policy.apply ++
      (policy.apply diagnostic).toList } =
    { s with policy, delivered := (s.delivered ++
      (s.policy.apply diagnostic).toList).filterMap policy.apply }
  rw [kept, List.filterMap_append]
  cases made : policy.apply diagnostic with
  | none => simp [made]
  | some found => simp [made]

theorem ask_under {α : Type} (query : FileQuery σ α) :
    Alike (Under policy) (ask query) (ask query) := by
  intro s t under
  rw [under.same]
  exact ⟨rfl, under.plain, rfl⟩

theorem onFiles_under {α : Type} (op : FileOp σ α) :
    Alike (Under policy) (onFiles op) (onFiles op) :=
  ask_under op

theorem lockstep_under (policy : WarningPolicy) (manager : FileManager σ) :
    Lockstep id (Under policy) manager manager where
  nowhere := rfl
  report diagnostic := by
    rw [Diagnostic.relocate_id]
    exact report_under diagnostic
  list _ _ _ _ := onFiles_under _
  input _ _ _ := onFiles_under _
  read _ := onFiles_under _
  nameOf _ _ := ask_under _
  units under := by rw [under.same]
  packages under := by rw [under.same]
  learnUnit _ _ _ under := ⟨rfl, under.plain, by rw [under.same]; rfl⟩
  learnPackage _ _ _ under := ⟨rfl, under.plain, by rw [under.same]; rfl⟩

theorem agreement_under (policy : WarningPolicy) (manager : FileManager σ) :
    Agreement id (Under policy) manager manager :=
  (lockstep_under policy manager).agreement

/-! ## Errors -/

/-- No warning of a session becomes an error under a policy. -/
def Mild (policy : WarningPolicy) (session : Session σ) : Prop :=
  ∀ diagnostic ∈ session.delivered, diagnostic.severity = .warning →
    policy.suppress = true ∨ policy.deny = false

theorem Under.errors {s t : Session σ} (under : Under policy s t) (mild : s.Mild policy) :
    t.errors = s.errors := by
  rw [under.same]
  change (s.delivered.filterMap policy.apply).countP _ = s.delivered.countP _
  rw [List.countP_filterMap]
  apply List.countP_congr
  intro diagnostic member
  by_cases warns : diagnostic.severity = .warning
  · rcases mild diagnostic member warns with dropped | kept
    · simp [WarningPolicy.apply, warns, dropped]
    · cases suppressed : policy.suppress <;> simp [WarningPolicy.apply, warns, kept, suppressed]
  · simp [WarningPolicy.apply, warns]

theorem Under.not_clean {s t : Session σ} (under : Under policy s t) (grave : ¬s.Mild policy) :
    ¬t.Clean := by
  simp only [Mild, not_forall, not_or, Bool.not_eq_true, Bool.not_eq_false] at grave
  obtain ⟨diagnostic, member, warns, kept, denied⟩ := grave
  have made : policy.apply diagnostic = some { diagnostic with severity := .error } := by
    simp [WarningPolicy.apply, warns, kept, denied]
  have delivered : { diagnostic with severity := .error } ∈ t.delivered := by
    rw [under.same]
    exact List.mem_filterMap.mpr ⟨diagnostic, member, made⟩
  intro clean
  have harmless := List.countP_eq_zero.mp clean _ delivered
  simp at harmless

end Session

end UnitForge
