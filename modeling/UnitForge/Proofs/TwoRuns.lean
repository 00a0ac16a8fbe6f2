import UnitForge.Proofs.Steps

/-! # Two runs

Two steps are alike if they agree on what they give and lead from related states to related ones.
Sequences whose members are alike are alike, so two runs of a program are compared by comparing the
few steps in which they can differ. Runs on different inputs may also give different values; then
what one gives is carried over to what the other gives by a function. -/
set_option autoImplicit false
namespace UnitForge.Step

variable {S T α α' β β' γ γ' : Type}

/-- From related states, two steps give related values and lead to related states. -/
def Related (R : S → T → Prop) (Q : α → β → Prop) (step : StateM S α) (other : StateM T β) :
    Prop :=
  ∀ s t, R s t → Q (step s).1 (other t).1 ∧ R (step s).2 (other t).2

abbrev Alike (R : S → T → Prop) (step : StateM S α) (other : StateM T α) : Prop :=
  Related R Eq step other

/-- From related states, the second step gives what the first one gives, carried over, and both lead
to related states. -/
abbrev Along (R : S → T → Prop) (carry : α → β) (step : StateM S α) (other : StateM T β) : Prop :=
  Related R (fun value image => carry value = image) step other

namespace Related

variable {R : S → T → Prop} {Q : α → β → Prop}

theorem pure {value : α} {image : β} (holds : Q value image) :
    Related R Q (Pure.pure value : StateM S α) (Pure.pure image : StateM T β) :=
  fun _ _ related => ⟨holds, related⟩

theorem ite {condition : Prop} [Decidable condition] {yes no : StateM S α}
    {yes' no' : StateM T β} (whenTrue : Related R Q yes yes') (whenFalse : Related R Q no no') :
    Related R Q (if condition then yes else no) (if condition then yes' else no') := by
  by_cases holds : condition
  · rw [if_pos holds, if_pos holds]
    exact whenTrue
  · rw [if_neg holds, if_neg holds]
    exact whenFalse

theorem get_bind {next : S → StateM S α} {next' : T → StateM T β}
    (rest : ∀ s t, R s t → Related R Q (next s) (next' t)) :
    Related R Q (get >>= next) (get >>= next') :=
  fun s t related => rest s t related s t related

theorem bind_related {Q' : γ → γ' → Prop} {step : StateM S γ} {other : StateM T γ'}
    {next : γ → StateM S α} {next' : γ' → StateM T β} (first : Related R Q' step other)
    (rest : ∀ value image, Q' value image → Related R Q (next value) (next' image)) :
    Related R Q (step >>= next) (other >>= next') := by
  intro s t related
  have ⟨holds, after⟩ := first s t related
  exact rest _ _ holds _ _ after

theorem bind {carry : γ → γ'} {step : StateM S γ} {other : StateM T γ'} {next : γ → StateM S α}
    {next' : γ' → StateM T β} (first : Along R carry step other)
    (rest : ∀ value, Related R Q (next value) (next' (carry value))) :
    Related R Q (step >>= next) (other >>= next') :=
  bind_related first fun value _ same => same ▸ rest value

theorem and_run {P : α → Prop} {step : StateM S α} {other : StateM T β}
    (alike : Related R Q step other) (runs : ∀ s, P (step s).1) :
    Related R (fun value image => P value ∧ Q value image) step other :=
  fun s t related => ⟨⟨runs s, (alike s t related).1⟩, (alike s t related).2⟩

end Related

namespace Along

variable {R : S → T → Prop} {carry : α → β}

variable {move : γ → γ'}

theorem mapM {f : γ → StateM S α} {f' : γ' → StateM T β}
    (items : List γ) (each : ∀ item ∈ items, Along R carry (f item) (f' (move item))) :
    Along R (List.map carry) (items.mapM f) ((items.map move).mapM f') := by
  induction items with
  | nil => exact .pure rfl
  | cons first rest ih =>
      rw [List.map_cons, List.mapM_cons, List.mapM_cons]
      have others := ih fun item member => each item (List.mem_cons_of_mem _ member)
      exact .bind (each first List.mem_cons_self) fun _ => .bind others fun _ => .pure rfl

theorem filterMapM {f : γ → StateM S (Option α)} {f' : γ' → StateM T (Option β)}
    (each : ∀ item, Along R (Option.map carry) (f item) (f' (move item))) (items : List γ) :
    Along R (List.map carry) (items.filterMapM f) ((items.map move).filterMapM f') := by
  induction items with
  | nil => exact .pure rfl
  | cons first rest ih =>
      rw [List.map_cons, List.filterMapM_cons, List.filterMapM_cons]
      apply (each first).bind
      intro found
      cases found with
      | none => exact ih
      | some value => exact .bind ih fun _ => .pure rfl

theorem foldlM {f : α → γ → StateM S α} {f' : β → γ' → StateM T β}
    (each : ∀ known item, Along R carry (f known item) (f' (carry known) (move item)))
    (items : List γ) (start : α) :
    Along R carry (items.foldlM f start) ((items.map move).foldlM f' (carry start)) := by
  induction items generalizing start with
  | nil => exact .pure rfl
  | cons first rest ih => exact .bind (each start first) fun known => ih known

end Along

namespace Alike

variable {R : S → T → Prop}

theorem map {step : StateM S α} {other : StateM T α} (f : α → β) (alike : Alike R step other) :
    Alike R (f <$> step) (f <$> other) := by
  intro s t related
  have ⟨same, after⟩ := alike s t related
  exact ⟨congrArg f same, after⟩

section Lists
variable {move : γ → γ'}

theorem forM_map {f : γ → StateM S PUnit} {f' : γ' → StateM T PUnit}
    (each : ∀ item, Alike R (f item) (f' (move item))) (items : List γ) :
    Alike R (items.forM f) ((items.map move).forM f') := by
  induction items with
  | nil => exact .pure rfl
  | cons first rest ih => exact .bind (each first) fun _ => ih

theorem mapM_map {f : γ → StateM S α} {f' : γ' → StateM T α}
    (each : ∀ item, Alike R (f item) (f' (move item))) (items : List γ) :
    Alike R (items.mapM f) ((items.map move).mapM f') := by
  have all : Along R (List.map id) (items.mapM f) ((items.map move).mapM f') :=
    Along.mapM items fun item _ => each item
  rwa [List.map_id_fun] at all

theorem filterMapM_map {f : γ → StateM S (Option α)} {f' : γ' → StateM T (Option α)}
    (each : ∀ item, Alike R (f item) (f' (move item))) (items : List γ) :
    Alike R (items.filterMapM f) ((items.map move).filterMapM f') := by
  have all : Along R (List.map id) (items.filterMapM f) ((items.map move).filterMapM f') :=
    Along.filterMapM (fun item => by rw [Option.map_id]; exact each item) items
  rwa [List.map_id_fun] at all

end Lists

theorem forM {f : γ → StateM S PUnit} {f' : γ → StateM T PUnit}
    (each : ∀ item, Alike R (f item) (f' item)) (items : List γ) :
    Alike R (items.forM f) (items.forM f') := by
  have all : Alike R (items.forM f) ((items.map id).forM f') := forM_map each items
  rwa [List.map_id] at all

theorem filterMapM {f : γ → StateM S (Option α)} {f' : γ → StateM T (Option α)}
    (each : ∀ item, Alike R (f item) (f' item)) (items : List γ) :
    Alike R (items.filterMapM f) (items.filterMapM f') := by
  have all : Alike R (items.filterMapM f) ((items.map id).filterMapM f') :=
    filterMapM_map each items
  rwa [List.map_id] at all

end Alike

end UnitForge.Step
