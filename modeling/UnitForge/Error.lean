import UnitForge.Diagnostic
import UnitForge.Files.Manager
import UnitForge.Image
import UnitForge.Image.Fault

/-! # Errors

Why compiling, loading or constructing a unit fails. An error keeps its causes; the wording of each
is that of `message`. -/
set_option autoImplicit false
namespace UnitForge

inductive CheckedOperation where
  | negate
  | add
  | subtract
  | multiply
  | divide
  | remainder
  deriving DecidableEq, Repr

def CheckedOperation.verb : CheckedOperation → String
  | negate => "negate"
  | add => "add"
  | subtract => "subtract"
  | multiply => "multiply"
  | divide => "divide"
  | remainder => "calculate the remainder"

def typeText (type : Option TypeRef) : String :=
  (type.map TypeRef.text).getD "null"

inductive ExecutionFault where
  | overflow (operation : CheckedOperation)
  | divisionByZero
  | remainderByZero
  | operandType (operator : String) (found : Option TypeRef)
  | castType (found : Option TypeRef) (target : TypeRef)
  | textOfNull
  | slotOutOfRange (slot : UInt32)
  | unknownConstructor (unit constructor : String)
  | argumentCount (unit constructor : String) (expected given : Nat)
  | nestedTooDeeply (limit : Nat) (unit constructor : String)
  deriving DecidableEq, Repr

def ExecutionFault.message : ExecutionFault → String
  | overflow operation => s!"attempt to {operation.verb} with overflow"
  | divisionByZero => "attempt to divide by zero"
  | remainderByZero => "attempt to calculate the remainder with a divisor of zero"
  | operandType operator found =>
    s!"`{operator}` cannot be applied to a value of type {typeText found}"
  | castType found target => s!"cannot cast {typeText found} as {target.text}"
  | textOfNull => "cannot convert null to a string"
  | slotOutOfRange slot => s!"local slot {slot.toNat} out of range"
  | unknownConstructor unit constructor => s!"`{unit}` has no constructor `{constructor}`"
  | argumentCount unit constructor expected given =>
    s!"`{unit}::{constructor}` takes {expected} arguments but {given} were supplied"
  | nestedTooDeeply limit unit constructor =>
    s!"constructor nesting exceeded {limit} levels in {unit}::{constructor}"

inductive ArgumentFault where
  | nullArgument (index : Nat)
  | malformedName (name : String)
  | noOrigin (unit : String)
  deriving DecidableEq, Repr

/-- The fault in words; arguments count from one. -/
def ArgumentFault.message : ArgumentFault → String
  | nullArgument index =>
    s!"argument {index + 1} is null; a constructor cannot be selected from a null value"
  | malformedName name => s!"`{name}` is not a dotted identifier"
  | noOrigin unit =>
    s!"dependency `{unit}` has no origin; " ++
      "only units loaded from a directory can extend the class path"

/-- Why an operation fails. The call of an error about constructors is the one that was tried, as
in `i64, String` or `new(i64)`. -/
inductive Error where
  | toolchainUnavailable (reason : String)
  | compilationFailed (unit : String) (diagnostics : List Diagnostic)
  | typeNotFound (name : String)
  | noMatchingConstructor (unit call : String)
  | ambiguousConstructor (unit call : String) (candidates : List String)
  | invalidArgument (fault : ArgumentFault)
  | malformedArtifact (name : String) (fault : Malformation)
  | execution (fault : ExecutionFault)
  | file (fault : FileError)
  deriving DecidableEq, Repr

def Error.message : Error → String
  | toolchainUnavailable reason => s!"toolchain unavailable: {reason}"
  | compilationFailed unit diagnostics =>
    s!"compilation of `{unit}` failed:\n{Diagnostic.report diagnostics}"
  | typeNotFound name => s!"unit not found: {name}"
  | noMatchingConstructor unit call => s!"no constructor of `{unit}` matches ({call})"
  | ambiguousConstructor unit call candidates =>
    let names := ", ".intercalate candidates
    s!"ambiguous constructor call on `{unit}` for ({call}): candidates are {names}"
  | invalidArgument fault => s!"invalid argument: {fault.message}"
  | malformedArtifact name fault => s!"malformed artifact `{name}`: {fault.message}"
  | execution fault => s!"execution error: {fault.message}"
  | file fault => s!"IO error: {fault.message}"

end UnitForge
