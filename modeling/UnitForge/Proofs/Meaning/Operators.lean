import UnitForge.Proofs.Evaluation.Arithmetic
import UnitForge.Proofs.Lowering.Elaboration
import UnitForge.Proofs.Meaning.Direct
import UnitForge.Proofs.Typing.Values

/-! # Operators of sources and of code

Between values of the types that a source without errors has, an operator means what the operator
that it is lowered to does. The same holds of literals, casts and methods. -/
set_option autoImplicit false
namespace UnitForge.Direct

open Source

variable {P : UnitType → List Value → Prop} {a b : Value} {type : TypeRef}

theorem yield_eq : yield = Evaluation.lift := by
  funext outcome
  cases outcome with
  | error fault => rfl
  | ok value => rfl

/-! ## Literals -/

theorem decimal_eq (digits : String) : decimal digits = Lower.floatOfDigits digits := by
  unfold decimal Lower.floatOfDigits decimal.scaled
  generalize digits.splitOn "e" = parts
  match parts with
  | [significand, power] =>
      dsimp only
      generalize significand.splitOn "." = places
      match places with
      | [whole, fraction] => rfl
      | [] | [_] | _ :: _ :: _ :: _ => simp
  | [] | [_] | _ :: _ :: _ :: _ =>
      dsimp only
      generalize digits.splitOn "." = places
      match places with
      | [whole, fraction] => rfl
      | [] | [_] | _ :: _ :: _ :: _ => simp

theorem literal_eq (negated : Bool) (value : Literal) :
    literal negated value = literalValue negated value := by
  cases value with
  | int value suffix =>
      simp only [literal, literalValue, literal.signed, Bool.or_eq_true, decide_eq_true_eq]
  | float digits suffix => simp only [literal, literalValue, literal.signed, decimal_eq]
  | bool value => rfl
  | str value => rfl
  | other => rfl

/-! ## Integers -/

theorem fits_iff {result : Int} :
    Fits result ↔ -(2 ^ 63 : Int) ≤ result ∧ result < (2 ^ 63 : Int) := by
  unfold Fits
  omega

theorem checked_eq (operation : CheckedOperation) (result : Int) :
    checked operation result = Evaluation.checked operation result :=
  if_congr fits_iff rfl rfl

/-- The one quotient that has no 64 bits. -/
theorem fits_tdiv {a b : Int} (left : Fits a) (nonzero : b ≠ 0) :
    Fits (a.tdiv b) ↔ ¬(b = -1 ∧ a = -(2 ^ 63 : Int)) := by
  unfold Fits at left ⊢
  by_cases one : b = -1
  · rw [one, Int.tdiv_neg, Int.tdiv_one]
    omega
  · refine iff_of_true ?_ fun least => one least.1
    have bounded := Int.natAbs_tdiv_le_natAbs a b
    by_cases positive : b = 1
    · rwa [positive, Int.tdiv_one]
    · have halved : (a.tdiv b).natAbs ≤ a.natAbs / 2 := by
        rw [Int.natAbs_tdiv]
        exact Nat.div_le_div_left (by omega) (by decide)
      omega

theorem fits_tmod {a b : Int} (right : Fits b) (nonzero : b ≠ 0) : Fits (a.tmod b) := by
  have size := Int.natAbs_tmod a b
  have small : a.natAbs % b.natAbs < b.natAbs := Nat.mod_lt _ (Int.natAbs_pos.mpr nonzero)
  unfold Fits at right ⊢
  omega

theorem fits_toInt (value : Int64) : Fits value.toInt :=
  fits_iff.mpr (Evaluation.fits_toInt value)

theorem toInt_eq_zero {value : Int64} : value.toInt = 0 ↔ value = 0 :=
  ⟨fun zero => Int64.toInt_inj.mp zero, fun zero => by rw [zero]; rfl⟩

theorem divide_eq (a b : Int64) : onIntegers .div a.toInt b.toInt = Evaluation.divide a b := by
  simp only [onIntegers, Evaluation.divide, toInt_eq_zero, checked_eq]

theorem remainder_eq (a b : Int64) :
    onIntegers .rem a.toInt b.toInt = Evaluation.remainder a b := by
  simp only [onIntegers, Evaluation.remainder, toInt_eq_zero]
  by_cases zero : b = 0
  · rw [if_pos zero, if_pos zero]
  · have nonzero : b.toInt ≠ 0 := fun same => zero (toInt_eq_zero.mp same)
    have minus : b = -1 ↔ b.toInt = -1 := Int64.toInt_inj.symm
    rw [if_neg zero, if_neg zero, ← checked_eq, checked, if_pos (fits_tmod (fits_toInt b) nonzero)]
    by_cases least : b = -1 ∧ a.toInt = -(2 ^ 63 : Int)
    · have wide : ¬Fits (a.toInt.tdiv b.toInt) := by
        rw [fits_tdiv (fits_toInt a) nonzero, ← minus]
        exact not_not_intro least
      rw [if_neg wide, if_pos least]
    · have fits : Fits (a.toInt.tdiv b.toInt) := by
        rw [fits_tdiv (fits_toInt a) nonzero, ← minus]
        exact least
      rw [if_pos fits, if_neg least]

/-! ## Operators -/

section Between
variable {operator : BinaryOperator} {op : BinaryOp} {symbol : String}

theorem operate_arithmetic (known : Lower.operator? operator = some (op, symbol))
    (isArithmetic : op.isArithmetic = true) (numeric : Lower.isNumeric type = true)
    (l : a.HasType P type) (r : b.HasType P type) :
    operate operator a b = Evaluation.binary op a b := by
  cases l with
  | int =>
      cases r
      cases operator with
      | add | sub | mul => cases known; exact checked_eq _ _
      | div => cases known; exact divide_eq _ _
      | rem => cases known; exact remainder_eq _ _
      | _ => cases known <;> cases isArithmetic
  | float =>
      cases r
      cases operator with
      | add | sub | mul | div | rem => cases known; rfl
      | _ => cases known <;> cases isArithmetic
  | _ => cases numeric

theorem operate_concat (known : Lower.operator? operator = some (.add, symbol))
    (l : a.HasType P .str) (r : b.HasType P .str) :
    operate operator a b = Evaluation.binary .concat a b := by
  cases l
  cases r
  cases operator <;> cases known
  rfl

theorem ordered_eq (primitive : type.isPrimitive = true) (l : a.HasType P type)
    (r : b.HasType P type) (op : BinaryOp) :
    ordered a b (Evaluation.admits op) = Evaluation.compareBy op a b := by
  obtain ⟨order, known⟩ := Evaluation.order?_isSome primitive l r
  rw [ordered, Evaluation.compareBy, known]
  cases order with
  | none => rfl
  | some order => rfl

theorem operate_comparison (known : Lower.operator? operator = some (op, symbol))
    (isComparison : op.isComparison = true) (primitive : type.isPrimitive = true)
    (l : a.HasType P type) (r : b.HasType P type) :
    operate operator a b = Evaluation.binary op a b := by
  cases operator with
  | eq | ne => cases known; rfl
  | lt => cases known; exact ordered_eq primitive l r .lt
  | le => cases known; exact ordered_eq primitive l r .le
  | gt => cases known; exact ordered_eq primitive l r .gt
  | ge => cases known; exact ordered_eq primitive l r .ge
  | _ => cases known <;> cases isComparison

end Between

theorem negate_eq (numeric : Lower.isNumeric type = true) (typed : a.HasType P type) :
    negate a = Evaluation.unary .neg a := by
  cases typed with
  | int => exact checked_eq _ _
  | float => rfl
  | _ => cases numeric

theorem invert_eq (admitted : type = .bool ∨ type = .int) (typed : a.HasType P type) :
    invert a = Evaluation.unary .not a := by
  rcases admitted with rfl | rfl
  · cases typed
    rfl
  · cases typed
    rfl

/-! ## Casts and methods -/

theorem primitive?_int {written : String} (known : Declarations.primitive? written = some .int) :
    written ∈ integerTypes := by
  unfold Declarations.primitive? at known
  split at known
  · exact List.contains_iff_mem.mp ‹_›
  · split_ifs at known <;> cases known

theorem primitive?_float {written : String}
    (known : Declarations.primitive? written = some .float) :
    written ∉ integerTypes ∧ written ∈ floatTypes := by
  unfold Declarations.primitive? at known
  split_ifs at known with integer float
  · cases known
  · exact ⟨fun listed => integer (List.contains_iff_mem.mpr listed), List.contains_iff_mem.mp float⟩
  all_goals cases known

theorem castTo_int {written : TypeTree} (names : castTarget? written = some .int) :
    castTo written = toInteger := by
  funext value
  unfold castTarget? at names
  split at names
  · obtain ⟨ident, single, known⟩ := Option.bind_eq_some_iff.mp names
    simp only [castTo, single, if_pos (primitive?_int known)]
  · cases names

theorem castTo_float {written : TypeTree} (names : castTarget? written = some .float) :
    castTo written = toFloat := by
  funext value
  unfold castTarget? at names
  split at names
  · obtain ⟨ident, single, known⟩ := Option.bind_eq_some_iff.mp names
    obtain ⟨notInteger, float⟩ := primitive?_float known
    simp only [castTo, single, if_neg notInteger, if_pos float]
  · cases names

theorem castTo_eq {written : TypeTree} {target : TypeRef}
    (names : castTarget? written = some target) (casts : type.castsTo target = true)
    (typed : a.HasType P type) : castTo written a = Evaluation.cast a target := by
  cases typed with
  | int =>
      rcases Evaluation.numeric_iff.mp casts with rfl | rfl
      · rw [castTo_int names]
        rfl
      · rw [castTo_float names]
        rfl
  | float =>
      rcases Evaluation.numeric_iff.mp casts with rfl | rfl
      · rw [castTo_int names]
        rfl
      · rw [castTo_float names]
        rfl
  | bool =>
      cases of_decide_eq_true casts
      rw [castTo_int names]
      rfl
  | _ => cases casts

theorem method_text (receiver : Value) :
    method "to_string" receiver = Evaluation.toText receiver :=
  if_pos rfl

theorem method_length (typed : a.HasType P .str) : method "len" a = Evaluation.length a := by
  cases typed
  rfl

theorem method_identity {name : String} (named : isIdentity name type = true) :
    method name = .ok := by
  funext receiver
  simp only [isIdentity, Bool.or_eq_true, Bool.and_eq_true, decide_eq_true_eq] at named
  rcases named with ⟨rfl | rfl, -⟩ | ⟨rfl, -⟩ <;> rfl

end UnitForge.Direct
