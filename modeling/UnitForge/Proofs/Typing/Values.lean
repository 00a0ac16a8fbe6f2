import UnitForge.Evaluation.Operators
import UnitForge.Proofs.Typing.Code

/-! # Types of values

A value has a primitive type by its kind; a unit type is that of null and of the instances of units
of the name. Operators on values of the types that the typing of code admits give values, but for
results that have no 64 bits and divisors that are zero. -/
set_option autoImplicit false
namespace UnitForge

/-! ## Conforming values -/

mutual

/-- Whether a value has a type, and so do the values of its fields, all the way down. -/
def Value.conforms : Value → TypeRef → Bool
  | .null, .unit _ => true
  | .int _, .int => true
  | .float _, .float => true
  | .bool _, .bool => true
  | .str _, .str => true
  | .object _ unit fields, .unit name => unit.name = name && Value.allConform fields unit.fields
  | _, _ => false

def Value.allConform : List Value → List FieldDecl → Bool
  | [], [] => true
  | value :: values, field :: fields => value.conforms field.type && Value.allConform values fields
  | _, _ => false

end

def Value.isConforming : Value → Bool
  | .object _ unit fields => allConform fields unit.fields
  | _ => true

/-- A value of a type, where the fields of objects have a property. -/
inductive Value.HasType (P : UnitType → List Value → Prop) : Value → TypeRef → Prop
  | null {name : String} : HasType P .null (.unit name)
  | int {value : Int64} : HasType P (.int value) .int
  | float {value : Binary64} : HasType P (.float value) .float
  | bool {value : Bool} : HasType P (.bool value) .bool
  | str {value : String} : HasType P (.str value) .str
  | object {id : Nat} {unit : UnitType} {fields : List Value} : P unit fields →
      HasType P (.object id unit fields) (.unit unit.name)

def FieldsConform (unit : UnitType) (fields : List Value) : Prop :=
  Value.allConform fields unit.fields = true

theorem hasType_iff_conforms (value : Value) (type : TypeRef) :
    value.HasType FieldsConform type ↔ value.conforms type = true := by
  constructor
  · intro typed
    cases typed with
    | object conform =>
        rw [Value.conforms, decide_eq_true rfl, Bool.true_and]
        exact conform
    | _ => rfl
  · intro conforms
    cases value with
    | null => cases type <;> first | exact .null | cases conforms
    | int value => cases type <;> first | exact .int | cases conforms
    | float value => cases type <;> first | exact .float | cases conforms
    | bool value => cases type <;> first | exact .bool | cases conforms
    | str value => cases type <;> first | exact .str | cases conforms
    | object id unit fields =>
        cases type with
        | unit name =>
            simp only [Value.conforms, Bool.and_eq_true, decide_eq_true_eq] at conforms
            obtain ⟨rfl, conform⟩ := conforms
            exact .object conform
        | _ => cases conforms

theorem allConform_iff {values : List Value} {fields : List FieldDecl} :
    Value.allConform values fields = true ↔
      List.Forall₂ (fun value field => value.HasType FieldsConform field.type) values fields := by
  induction values generalizing fields with
  | nil =>
      cases fields with
      | nil => exact ⟨fun _ => .nil, fun _ => rfl⟩
      | cons field rest => exact ⟨nofun, nofun⟩
  | cons value values ih =>
      cases fields with
      | nil => exact ⟨nofun, nofun⟩
      | cons field rest =>
          rw [Value.allConform, Bool.and_eq_true, List.forall₂_cons, hasType_iff_conforms, ih]

theorem hasType_of_type? {value : Value} {type : TypeRef} (known : value.type? = some type)
    (conforming : value.isConforming = true) : value.HasType FieldsConform type := by
  cases value with
  | null => cases known
  | int value => cases known; exact .int
  | float value => cases known; exact .float
  | bool value => cases known; exact .bool
  | str value => cases known; exact .str
  | object id unit fields => cases known; exact .object conforming

/-! ## Expected faults -/

/-- Whether a fault is one that well-typed code can have. -/
def ExecutionFault.isExpected : ExecutionFault → Bool
  | .overflow _ | .divisionByZero | .remainderByZero | .nestedTooDeeply .. => true
  | _ => false

def Error.isExpected : Error → Bool
  | .execution fault => fault.isExpected
  | _ => false

namespace Evaluation

variable {P : UnitType → List Value → Prop}

def Outcome.Sound (P : UnitType → List Value → Prop) (type : TypeRef) : Outcome → Prop
  | .ok value => value.HasType P type
  | .error fault => fault.isExpected = true

theorem checked_sound (operation : CheckedOperation) (result : Int) :
    Outcome.Sound P .int (checked operation result) := by
  unfold checked
  split
  · exact .int
  · rfl

theorem divide_sound (a b : Int64) : Outcome.Sound P .int (divide a b) := by
  unfold divide
  split
  · rfl
  · exact checked_sound _ _

theorem remainder_sound (a b : Int64) : Outcome.Sound P .int (remainder a b) := by
  unfold remainder
  split
  · rfl
  split
  · rfl
  · exact checked_sound _ _

theorem numeric_iff {type : TypeRef} :
    Lower.isNumeric type = true ↔ type = .int ∨ type = .float := by
  simp [Lower.isNumeric]

theorem neg_sound {value : Value} {type : TypeRef} (numeric : Lower.isNumeric type = true)
    (typed : value.HasType P type) : Outcome.Sound P type (unary .neg value) := by
  rcases numeric_iff.mp numeric with rfl | rfl
  · cases typed
    exact checked_sound _ _
  · cases typed
    exact .float

theorem not_sound {value : Value} {type : TypeRef} (admitted : type = .bool ∨ type = .int)
    (typed : value.HasType P type) : Outcome.Sound P type (unary .not value) := by
  rcases admitted with rfl | rfl
  · cases typed
    exact .bool
  · cases typed
    exact .int

theorem arithmetic_sound {op : BinaryOp} {left right : Value} {type : TypeRef}
    (isArithmetic : op.isArithmetic = true) (numeric : Lower.isNumeric type = true)
    (l : left.HasType P type) (r : right.HasType P type) :
    Outcome.Sound P type (binary op left right) := by
  rcases numeric_iff.mp numeric with rfl | rfl
  · cases l
    cases r
    cases op with
    | add | sub | mul => exact checked_sound _ _
    | div => exact divide_sound _ _
    | rem => exact remainder_sound _ _
    | _ => cases isArithmetic
  · cases l
    cases r
    cases op with
    | add | sub | mul | div | rem => exact .float
    | _ => cases isArithmetic

theorem order?_isSome {left right : Value} {type : TypeRef} (primitive : type.isPrimitive = true)
    (l : left.HasType P type) (r : right.HasType P type) : ∃ order, order? left right = some order := by
  cases l with
  | null => cases primitive
  | object conform => cases primitive
  | _ =>
      cases r
      exact ⟨_, rfl⟩

theorem compareBy_sound (op : BinaryOp) {left right : Value} {type : TypeRef}
    (primitive : type.isPrimitive = true) (l : left.HasType P type) (r : right.HasType P type) :
    Outcome.Sound P .bool (compareBy op left right) := by
  obtain ⟨order, known⟩ := order?_isSome primitive l r
  unfold compareBy
  rw [known]
  cases order with
  | none => exact .bool
  | some order => exact .bool

theorem comparison_sound {op : BinaryOp} {left right : Value} {type : TypeRef}
    (isComparison : op.isComparison = true) (primitive : type.isPrimitive = true)
    (l : left.HasType P type) (r : right.HasType P type) :
    Outcome.Sound P .bool (binary op left right) := by
  cases op with
  | eq | ne => exact .bool
  | lt | le | gt | ge => exact compareBy_sound _ primitive l r
  | _ => cases isComparison

theorem concat_sound {left right : Value} (l : left.HasType P .str) (r : right.HasType P .str) :
    Outcome.Sound P .str (binary .concat left right) := by
  cases l
  cases r
  exact .str

theorem cast_sound {value : Value} {type target : TypeRef} (casts : type.castsTo target = true)
    (typed : value.HasType P type) : Outcome.Sound P target (cast value target) := by
  cases typed with
  | int =>
      rcases numeric_iff.mp casts with rfl | rfl
      · exact .int
      · exact .float
  | float =>
      rcases numeric_iff.mp casts with rfl | rfl
      · exact .int
      · exact .float
  | bool =>
      cases of_decide_eq_true casts
      exact .int
  | _ => cases casts

theorem toText_sound {value : Value} {type : TypeRef} (primitive : type.isPrimitive = true)
    (typed : value.HasType P type) : Outcome.Sound P .str (toText value) := by
  cases typed with
  | null => cases primitive
  | _ => exact .str

theorem length_sound {value : Value} (typed : value.HasType P .str) :
    Outcome.Sound P .int (length value) := by
  cases typed
  exact .int

end Evaluation

end UnitForge
