import UnitForge.Text.Utf8

/-! # Faults of image bytes

Why bytes are no image of the wanted name, each with its message. -/
set_option autoImplicit false
namespace UnitForge

inductive WireInteger where
  | u32
  | u64
  | u128
  | i32
  | i64
  | i128
  | reserved
  deriving DecidableEq, Repr

namespace WireInteger

def label : WireInteger → String
  | u32 => "U32"
  | u64 => "U64"
  | u128 => "U128"
  | i32 => "I32"
  | i64 => "I64"
  | i128 => "I128"
  | reserved => "Reserved"

end WireInteger

inductive WireFault where
  | unexpectedEnd (additional : Nat)
  | invalidInteger (expected found : WireInteger)
  | unexpectedVariant (typeName : String) (greatest found : Nat)
  | invalidBool (found : Nat)
  | invalidText (fault : Text.Utf8Fault)
  deriving DecidableEq, Repr

namespace WireFault

def message : WireFault → String
  | unexpectedEnd additional => s!"UnexpectedEnd \x7b additional: {additional} \x7d"
  | invalidInteger expected found =>
    s!"InvalidIntegerType \x7b expected: {expected.label}, found: {found.label} \x7d"
  | unexpectedVariant typeName greatest found =>
    s!"UnexpectedVariant \x7b type_name: \"{typeName}\", allowed: Range \x7b min: 0, max: {greatest} \x7d, found: {found} \x7d"
  | invalidBool found => s!"InvalidBooleanValue({found})"
  | invalidText fault =>
    let length := match fault.length with
      | none => "None"
      | some n => s!"Some({n})"
    s!"Utf8 \x7b inner: Utf8Error \x7b valid_up_to: {fault.validUpTo}, error_len: {length} \x7d \x7d"

end WireFault

/-- Why an artifact does not define a unit, or a unit's code does not fit its fields. -/
inductive Malformation where
  | missingHeader
  | unsupportedVersion (found supported : Nat)
  | unreadable (fault : WireFault)
  | trailingBytes (count : Nat)
  | otherName (declared : String)
  | notUnitKind (kind : String)
  | missingInit (constructor : String) (supplied fields : Nat)
  deriving DecidableEq, Repr

namespace Malformation

def message : Malformation → String
  | missingHeader => "missing unit image header"
  | unsupportedVersion found supported =>
    s!"unsupported format version {found} (expected {supported})"
  | unreadable fault => fault.message
  | trailingBytes count => s!"{count} trailing bytes after image"
  | otherName declared => s!"image declares unit `{declared}`"
  | notUnitKind kind => s!"artifact of kind {kind} cannot be defined"
  | missingInit constructor supplied fields =>
    s!"constructor `{constructor}` initialises {supplied} of {fields} fields"

end Malformation

end UnitForge
