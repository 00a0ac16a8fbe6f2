import UnitForge.Proofs.Lowering.Numbers

/-! # Literals in range

A literal out of range is reported. What is lowered completely therefore has none, and its code has
the numbers that are written. -/
set_option autoImplicit false
namespace UnitForge

open Source Step

variable {σ : Type}

theorem signed_infinity (negated : Bool) :
    (if negated = true then (Binary64.infinity false).neg else .infinity false) =
      .infinity negated := by
  cases negated with
  | false => rw [if_neg Bool.false_ne_true]
  | true => rw [if_pos rfl, Binary64.neg_infinity]

namespace Lower

variable {context : LoweringContext σ} {α β : Type} {P Q : Prop}

/-- What holds wherever a step is complete at its end. -/
def Needs (step : Lower σ α) (P : Prop) : Prop :=
  ∀ (before after : Lowering σ) (value : α), step before = (value, after) →
    after.complete = true → P

namespace Needs

theorem of_holds {step : Lower σ α} (holds : P) : Needs step P :=
  fun _ _ _ _ _ => holds

theorem imp {step : Lower σ α} (needs : Needs step P) (weaker : P → Q) : Needs step Q :=
  fun before after value run complete => weaker (needs before after value run complete)

theorem complain (context : LoweringContext σ) (pos : Position) (problem : Problem) :
    Needs (Lower.complain context pos problem) P := by
  intro before after value run complete
  rw [not_complete_of_complain run] at complete
  cases complete

theorem fail (context : LoweringContext σ) (pos : Position) (problem : Problem) :
    Needs (Lower.fail context pos problem) P := by
  intro before after value run complete
  obtain ⟨_, middle, told, run⟩ := bind_run run
  cases run
  rw [not_complete_of_complain told] at complete
  cases complete

theorem bind (context : LoweringContext σ) {step : Lower σ α} {next : α → Lower σ β} (first : Needs step P)
    (onward : ∀ value, Onward context (next value)) (rest : ∀ value, Needs (next value) Q) :
    Needs (step >>= next) (P ∧ Q) := by
  intro before after value run complete
  obtain ⟨found, middle, ran, run⟩ := bind_run run
  have later := (onward found).of_run run
  exact ⟨first _ _ _ ran (later.complete complete), rest found _ _ _ run complete⟩

theorem of_first (context : LoweringContext σ) {step : Lower σ α} {next : α → Lower σ β}
    (first : Needs step P) (onward : ∀ value, Onward context (next value)) :
    Needs (step >>= next) P :=
  (bind context first onward fun _ => of_holds trivial).imp And.left

theorem filterMapM {f : α → Lower σ (Option β)} {R : α → Prop}
    (onward : ∀ item, Onward context (f item)) (each : ∀ item, Needs (f item) (R item))
    (items : List α) : Needs (items.filterMapM f) (∀ item ∈ items, R item) := by
  induction items with
  | nil => exact of_holds (List.forall_mem_nil _)
  | cons first rest ih =>
      rw [List.filterMapM_cons]
      refine (bind context (each first) ?_ ?_).imp List.forall_mem_cons.mpr
      · intro found
        cases found with
        | none => exact .filterMapM onward rest
        | some value => exact .bind (.filterMapM onward rest) fun _ => .pure _
      · intro found
        cases found with
        | none => exact ih
        | some value => exact of_first context ih fun _ => .pure _

end Needs

/-! ## Expressions -/

/-- What a literal of a struct says of its fields: each is one of the struct, none is named twice,
and all values are in range. -/
def FieldsInRange (owner : UnitSig) (done : List (Nat × Expr))
    (values : List (String × Position × ExprTree)) : Prop :=
  ∀ entry ∈ values, entry.2.2.InRange ∧ literalField? values entry.1 = some entry.2.2 ∧
    ∃ index, owner.fields.findIdx? (·.name = entry.1) = some index ∧ done.lookup index = none

/-- What a final expression gives to fields is in range, and each value is given to the field of a
name. -/
def FinalInRange (owner : UnitSig) (tree : ExprTree) : Prop :=
  ∀ value ∈ tree.inits, value.InRange ∧
    (value = tree ∨ ∃ field ∈ owner.fields, tree.fieldValue? field.name = some value)

theorem FieldsInRange.final {owner : UnitSig} {done : List (Nat × Expr)}
    {values : List (String × Position × ExprTree)} (holds : FieldsInRange owner done values)
    (pos : Position) (qualified : Bool) (names : NamePath) (base : Option ExprTree) :
    FinalInRange owner (.structLiteral pos qualified names values base) := by
  intro value member
  obtain ⟨entry, inside, rfl⟩ := List.mem_map.mp member
  obtain ⟨inRange, given, index, place, -⟩ := holds entry inside
  obtain ⟨bound, named, -⟩ := List.findIdx?_eq_some_iff_getElem.mp place
  refine ⟨inRange, .inr ⟨owner.fields[index], List.getElem_mem bound, ?_⟩⟩
  rw [of_decide_eq_true named]
  exact given

end Lower

/-! ## Constructors -/

/-- What the code of a constructor has of the numbers of a function. -/
structure FunctionNumbers (owner : UnitSig) (function : FunctionTree) (ctor : ConstructorDecl) :
    Prop where
  inRange : ∀ value ∈ Lower.initialisers function, value.InRange
  body : List.Forall₂ (fun value step => step.value.numbers = value.numbers)
    ((Lower.splitBody function.body).1.filterMap StmtTree.init?) ctor.body
  fields : ∃ tree, (Lower.splitBody function.body).2 = some tree ∧
    List.Forall₂ (fun field code => ∃ value, tree.fieldValue? field.name = some value ∧
      code.numbers = value.numbers) owner.fields ctor.init
  /-- No number gets lost. -/
  placed : ∀ value ∈ Lower.initialisers function, value.numbers ≠ [] →
    ∃ code ∈ ctor.exprs, code.numbers = value.numbers
  /-- A number that is not finite is an integer literal that is too large for the float that it is
  said to be. -/
  floats : ∀ code ∈ ctor.exprs, ∀ x, .float x ∈ code.numbers → x.isFinite = true ∨
    ∃ value ∈ Lower.initialisers function, ∃ negated whole suffix,
      ⟨negated, .int whole suffix⟩ ∈ value.literals ∧ (suffix = "f32" ∨ suffix = "f64") ∧
        Binary64.tooLarge ≤ whole ∧ x = .infinity negated

theorem isFinite_signed (negated : Bool) {x : Binary64} (finite : x.isFinite = true) :
    (if negated = true then x.neg else x).isFinite = true := by
  cases negated with
  | false =>
      rw [if_neg Bool.false_ne_true]
      exact finite
  | true =>
      rw [if_pos rfl, Binary64.isFinite_neg]
      exact finite

/-- A float that is written in range is finite, unless it is written as an integer. -/
theorem float_cases {literal : SignedLiteral} {x : Binary64} (inRange : literal.inRange = true)
    (written : literal.number? = some (.float x)) :
    x.isFinite = true ∨ ∃ negated whole suffix, literal = ⟨negated, .int whole suffix⟩ ∧
      (suffix = "f32" ∨ suffix = "f64") ∧ Binary64.tooLarge ≤ whole ∧ x = .infinity negated := by
  obtain ⟨negated, value⟩ := literal
  cases value with
  | int whole suffix =>
      simp only [SignedLiteral.number?] at written
      by_cases isFloat : (suffix = "f32" || suffix = "f64") = true
      · rw [if_pos isFloat, Option.some.injEq, Number.float.injEq] at written
        rw [← written]
        rcases Binary64.ofDecimal_split whole with ⟨-, finite⟩ | ⟨large, infinite⟩
        · exact .inl (isFinite_signed negated finite)
        · right
          rw [infinite, signed_infinity]
          exact ⟨negated, whole, suffix, rfl, by simpa using isFloat, large, rfl⟩
      · rw [if_neg isFloat] at written
        cases written
  | float digits suffix =>
      simp only [SignedLiteral.number?, Option.some.injEq, Number.float.injEq] at written
      rw [← written]
      exact .inl (isFinite_signed negated inRange)
  | bool | str | other => cases written

theorem Lower.initialisers_eq {function : FunctionTree} {tree : ExprTree}
    (ends : (Lower.splitBody function.body).2 = some tree) :
    Lower.initialisers function =
      (Lower.splitBody function.body).1.filterMap StmtTree.init? ++ tree.inits := by
  rw [Lower.initialisers, ends]
  rfl

theorem ElabFunction.numbers {refs : References} {owner : UnitSig} {sig : ConstructorSig}
    {function : FunctionTree} {ctor : ConstructorDecl} {tree : ExprTree}
    (elab_ : ElabFunction refs owner sig function ctor)
    (ends : (Lower.splitBody function.body).2 = some tree)
    (statements : ∀ value ∈ (Lower.splitBody function.body).1.filterMap StmtTree.init?,
      value.InRange)
    (final : Lower.FinalInRange owner tree) : FunctionNumbers owner function ctor := by
  obtain ⟨_, last, same, body, fields, -⟩ := elab_.parts
  cases ends.symm.trans same
  have all := Lower.initialisers_eq ends
  have inRange : ∀ value ∈ Lower.initialisers function, value.InRange := by
    rw [all, List.forall_mem_append]
    exact ⟨statements, fun value member => (final value member).1⟩
  have steps := body.numbers_eq statements
  have inits := fields.numbers_eq fun value member => (final value member).1
  have origin : ∀ code ∈ ctor.exprs, ∃ value ∈ Lower.initialisers function,
      code.numbers = value.numbers := by
    intro code member
    rw [all]
    rcases List.mem_append.mp member with early | late
    · obtain ⟨step, given, rfl⟩ := List.mem_map.mp early
      obtain ⟨value, initial, same⟩ := exists_of_forall₂ steps step given
      exact ⟨value, List.mem_append_left _ initial, same⟩
    · obtain ⟨field, -, value, given, same⟩ := exists_of_forall₂ inits code late
      exact ⟨value, List.mem_append_right _ (fieldValue?_mem given), same⟩
  refine ⟨inRange, steps, ⟨tree, ends, inits⟩, ?_, ?_⟩
  · intro value member some_number
    rw [all] at member
    rcases List.mem_append.mp member with early | late
    · obtain ⟨step, given, same⟩ := exists_of_forall₂ (List.Forall₂.flip steps) value early
      exact ⟨step.value, List.mem_append_left _ (List.mem_map_of_mem given), same⟩
    · rcases (final value late).2 with rfl | ⟨field, declared, given⟩
      · exact absurd fields.numbers_nil some_number
      · obtain ⟨code, here, other, given', same⟩ :=
          exists_of_forall₂ (List.Forall₂.flip inits) field declared
        cases given.symm.trans given'
        exact ⟨code, List.mem_append_right _ here, same⟩
  · intro code member x inside
    obtain ⟨value, initial, same⟩ := origin code member
    rw [same] at inside
    obtain ⟨literal, written, number⟩ := List.mem_filterMap.mp inside
    rcases float_cases (inRange value initial literal written) number with finite | infinite
    · exact .inl finite
    · obtain ⟨negated, whole, suffix, rfl, isFloat, large, infinite⟩ := infinite
      exact .inr ⟨value, initial, negated, whole, suffix, written, isFloat, large, infinite⟩

end UnitForge
