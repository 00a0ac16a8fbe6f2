import Mathlib.Order.Defs.Unbundled

/-! # Steps

Steps over a state, as the compiler and the loaders are made of them. A run of a sequence of steps
is taken apart into the runs of its members, and a relation between states that holds around every
member holds around the whole. -/
set_option autoImplicit false
namespace UnitForge.Step

variable {S α β γ : Type}

theorem run_eta (step : StateM S α) (before : S) :
    step before = ((step before).1, (step before).2) :=
  rfl

theorem bind_run {step : StateM S α} {next : α → StateM S β} {before : S} {out : β × S}
    (run : (step >>= next) before = out) :
    ∃ value middle, step before = (value, middle) ∧ next value middle = out :=
  ⟨(step before).1, (step before).2, rfl, run⟩

theorem bind_of_run {step : StateM S α} {next : α → StateM S β} {before middle : S} {value : α}
    (first : step before = (value, middle)) : (step >>= next) before = next value middle := by
  change next (step before).1 (step before).2 = _
  rw [first]

theorem map_run {step : StateM S α} {f : α → β} {before : S} {out : β × S}
    (run : (f <$> step) before = out) :
    ∃ value after, step before = (value, after) ∧ out = (f value, after) :=
  ⟨(step before).1, (step before).2, rfl, run.symm⟩

/-! ## Steps that may fail -/

section Except
variable {ε : Type} {step : ExceptT ε (StateM S) α} {next : α → ExceptT ε (StateM S) β} {before : S}

theorem except_bind_ok {value : α} {middle : S} (first : step before = (.ok value, middle)) :
    (step >>= next : ExceptT ε (StateM S) β) before = next value middle := by
  change ExceptT.bindCont next (step before).1 (step before).2 = _
  rw [first]
  rfl

theorem except_bind_error {fault : ε} {after : S} (first : step before = (.error fault, after)) :
    (step >>= next : ExceptT ε (StateM S) β) before = (.error fault, after) := by
  change ExceptT.bindCont next (step before).1 (step before).2 = _
  rw [first]
  rfl

theorem except_bind_run {out : Except ε β × S}
    (run : (step >>= next : ExceptT ε (StateM S) β) before = out) :
    (∃ fault after, step before = (.error fault, after) ∧ out = (.error fault, after)) ∨
      ∃ value middle, step before = (.ok value, middle) ∧ next value middle = out := by
  rcases first : step before with ⟨fault | value, middle⟩
  · rw [except_bind_error first] at run
    exact .inl ⟨fault, middle, rfl, run.symm⟩
  · rw [except_bind_ok first] at run
    exact .inr ⟨value, middle, rfl, run⟩

theorem except_bind_congr {other : ExceptT ε (StateM S) α} (same : step before = other before) :
    (step >>= next : ExceptT ε (StateM S) β) before = (other >>= next) before := by
  change ExceptT.bindCont next (step before).1 (step before).2 = _
  rw [same]
  rfl

theorem except_get_run (next : S → ExceptT ε (StateM S) α) (before : S) :
    (get >>= next : ExceptT ε (StateM S) α) before = next before before :=
  rfl

theorem except_map_run {f : α → β} {out : Except ε β × S}
    (run : (f <$> step : ExceptT ε (StateM S) β) before = out) :
    (∃ fault after, step before = (.error fault, after) ∧ out = (.error fault, after)) ∨
      ∃ value after, step before = (.ok value, after) ∧ out = (.ok (f value), after) := by
  rw [← bind_pure_comp] at run
  rcases except_bind_run run with failed | ⟨value, after, done, run⟩
  · exact .inl failed
  · exact .inr ⟨value, after, done, run.symm⟩

section Catch
variable {handler : ε → ExceptT ε (StateM S) α}

theorem except_catch_ok {value : α} {after : S} (first : step before = (.ok value, after)) :
    (tryCatch step handler : ExceptT ε (StateM S) α) before = (.ok value, after) := by
  simp only [tryCatch, tryCatchThe, MonadExceptOf.tryCatch, ExceptT.tryCatch, ExceptT.mk]
  simp only [bind, StateT.bind, first]
  rfl

theorem except_catch_error {fault : ε} {middle : S} (first : step before = (.error fault, middle)) :
    (tryCatch step handler : ExceptT ε (StateM S) α) before = handler fault middle := by
  simp only [tryCatch, tryCatchThe, MonadExceptOf.tryCatch, ExceptT.tryCatch, ExceptT.mk]
  simp only [bind, StateT.bind, first]

end Catch

end Except

/-! ## Results that may be missing -/

section Result
variable {ε : Type}

theorem ok_bind_iff {first : Except ε α} {next : α → Except ε β} {result : β} :
    (first >>= next) = .ok result ↔ ∃ value, first = .ok value ∧ next value = .ok result := by
  cases first with
  | error fault => simp [bind, Except.bind]
  | ok value => simp [bind, Except.bind]

variable {f : α → Except ε β} {items : List α} {results : List β}

/-- What comes of a list stems from its items, and every item has something come of it. -/
theorem mapM_ok (run : items.mapM f = .ok results) :
    (∀ result ∈ results, ∃ item ∈ items, f item = .ok result) ∧
      ∀ item ∈ items, ∃ result ∈ results, f item = .ok result := by
  induction items generalizing results with
  | nil =>
      cases run
      exact ⟨nofun, nofun⟩
  | cons item rest ih =>
      rw [List.mapM_cons] at run
      obtain ⟨result, here, run⟩ := ok_bind_iff.mp run
      obtain ⟨others, later, run⟩ := ok_bind_iff.mp run
      cases run
      obtain ⟨sources, targets⟩ := ih later
      constructor
      · intro found member
        rcases List.mem_cons.mp member with rfl | member
        · exact ⟨item, List.mem_cons_self, here⟩
        · obtain ⟨other, known, same⟩ := sources found member
          exact ⟨other, List.mem_cons_of_mem _ known, same⟩
      · intro other member
        rcases List.mem_cons.mp member with rfl | member
        · exact ⟨result, List.mem_cons_self, here⟩
        · obtain ⟨found, known, same⟩ := targets other member
          exact ⟨found, List.mem_cons_of_mem _ known, same⟩

theorem exists_mapM_ok (all : ∀ item ∈ items, ∃ result, f item = .ok result) :
    ∃ results, items.mapM f = .ok results := by
  induction items with
  | nil => exact ⟨[], rfl⟩
  | cons item rest ih =>
      obtain ⟨result, here⟩ := all item List.mem_cons_self
      obtain ⟨results, later⟩ := ih fun other member => all other (List.mem_cons_of_mem _ member)
      refine ⟨result :: results, ?_⟩
      rw [List.mapM_cons, here, later]
      rfl

end Result

theorem filterMapM_cons_run (f : α → StateM S (Option β)) (item : α) (rest : List α) (before : S) :
    List.filterMapM f (item :: rest) before =
      ((f item before).1.toList ++ (rest.filterMapM f (f item before).2).1,
        (rest.filterMapM f (f item before).2).2) := by
  rw [List.filterMapM_cons]
  change (match (f item before).1 with
    | none => rest.filterMapM f
    | some found => do return found :: (← rest.filterMapM f)) (f item before).2 = _
  cases (f item before).1 with
  | none => rfl
  | some found => rfl

/-! ## Relations around steps -/

def Within (R : S → S → Prop) (step : StateM S α) : Prop :=
  ∀ before, R before (step before).2

namespace Within

variable {R : S → S → Prop}

theorem of_run {step : StateM S α} (within : Within R step) {before after : S} {value : α}
    (run : step before = (value, after)) : R before after := by
  have := within before
  rwa [run] at this

section Reflexive
variable [Std.Refl R]

theorem pure (value : α) : Within R (Pure.pure value : StateM S α) :=
  fun before => Std.Refl.refl before

theorem get : Within R (MonadState.get : StateM S S) :=
  fun before => Std.Refl.refl before

end Reflexive

theorem map {step : StateM S α} (f : α → β) (within : Within R step) : Within R (f <$> step) :=
  within

theorem ite {condition : Prop} [Decidable condition] {yes no : StateM S α}
    (whenTrue : Within R yes) (whenFalse : Within R no) :
    Within R (if condition then yes else no) := by
  split <;> assumption

section Transitive
variable [IsTrans S R]

theorem bind {step : StateM S α} {next : α → StateM S β} (first : Within R step)
    (rest : ∀ value, Within R (next value)) : Within R (step >>= next) :=
  fun before => IsTrans.trans _ _ _ (first before) (rest _ _)

end Transitive

section Preorder
variable [IsPreorder S R]

theorem forM {f : α → StateM S PUnit} (each : ∀ item, Within R (f item)) (items : List α) :
    Within R (items.forM f) := by
  induction items with
  | nil => exact pure PUnit.unit
  | cons first rest ih => exact bind (each first) fun _ => ih

theorem filterMapM {f : α → StateM S (Option β)} (each : ∀ item, Within R (f item))
    (items : List α) : Within R (items.filterMapM f) := by
  induction items with
  | nil => exact pure []
  | cons first rest ih =>
      rw [List.filterMapM_cons]
      apply bind (each first)
      intro found
      cases found with
      | none => exact ih
      | some value => exact bind ih fun _ => pure _

theorem foldlM {f : β → α → StateM S β} (each : ∀ known item, Within R (f known item))
    (items : List α) (start : β) : Within R (items.foldlM f start) := by
  induction items generalizing start with
  | nil => exact pure start
  | cons first rest ih => exact bind (each start first) fun known => ih known

end Preorder

end Within

/-! ## Induction along a list

What holds of no item in the state before, and goes on to hold with one item more, holds of all
items in the state after. -/

section Induction

theorem foldlM_induct {f : β → α → StateM S β} {P : List α → β → S → Prop}
    (step : ∀ done item known state, P done known state →
      P (done ++ [item]) (f known item state).1 (f known item state).2)
    (items : List α) {start : β} {before : S} (first : P [] start before) :
    P items (items.foldlM f start before).1 (items.foldlM f start before).2 := by
  suffices general : ∀ done (items : List α) known state, P done known state →
      P (done ++ items) (items.foldlM f known state).1 (items.foldlM f known state).2 from
    general [] items start before first
  intro done items
  induction items generalizing done with
  | nil =>
      intro known state holds
      rw [List.append_nil]
      exact holds
  | cons item rest ih =>
      intro known state holds
      have next := ih (done ++ [item]) _ _ (step done item known state holds)
      rw [List.append_assoc] at next
      exact next

theorem forM_induct {f : α → StateM S PUnit} {P : List α → S → Prop}
    (step : ∀ done item state, P done state → P (done ++ [item]) (f item state).2)
    (items : List α) {before : S} (first : P [] before) : P items (items.forM f before).2 := by
  suffices general : ∀ done (items : List α) state, P done state →
      P (done ++ items) (items.forM f state).2 from general [] items before first
  intro done items
  induction items generalizing done with
  | nil =>
      intro state holds
      rw [List.append_nil]
      exact holds
  | cons item rest ih =>
      intro state holds
      have next := ih (done ++ [item]) _ (step done item state holds)
      rw [List.append_assoc] at next
      exact next

theorem mapM_induct {f : α → StateM S β} {P : List α → List β → S → Prop}
    (step : ∀ done results item state, P done results state →
      P (done ++ [item]) (results ++ [(f item state).1]) (f item state).2)
    (items : List α) {before : S} (first : P [] [] before) :
    P items (items.mapM f before).1 (items.mapM f before).2 := by
  suffices general : ∀ done results (items : List α) state, P done results state →
      P (done ++ items) (results ++ (items.mapM f state).1) (items.mapM f state).2 from
    general [] [] items before first
  intro done results items
  induction items generalizing done results with
  | nil =>
      intro state holds
      have same : (List.mapM f [] : StateM S (List β)) state = ([], state) := rfl
      rw [List.append_nil, same, List.append_nil]
      exact holds
  | cons item rest ih =>
      intro state holds
      have next := ih (done ++ [item]) _ _ (step done results item state holds)
      rw [List.append_assoc, List.append_assoc] at next
      rw [List.mapM_cons]
      exact next

theorem filterMapM_induct {f : α → StateM S (Option β)} {P : List α → List β → S → Prop}
    (step : ∀ done results item state, P done results state →
      P (done ++ [item]) (results ++ (f item state).1.toList) (f item state).2)
    (items : List α) {before : S} (first : P [] [] before) :
    P items (items.filterMapM f before).1 (items.filterMapM f before).2 := by
  suffices general : ∀ done results (items : List α) state, P done results state →
      P (done ++ items) (results ++ (items.filterMapM f state).1)
        (items.filterMapM f state).2 from
    general [] [] items before first
  intro done results items
  induction items generalizing done results with
  | nil =>
      intro state holds
      have same : (List.filterMapM f [] : StateM S (List β)) state = ([], state) := rfl
      rw [List.append_nil, same, List.append_nil]
      exact holds
  | cons item rest ih =>
      intro state holds
      have next := ih (done ++ [item]) _ _ (step done results item state holds)
      rw [List.append_assoc, List.append_assoc] at next
      rw [filterMapM_cons_run]
      exact next

end Induction

end UnitForge.Step
