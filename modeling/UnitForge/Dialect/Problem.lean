import UnitForge.Diagnostic
import UnitForge.Image

/-! # Problems

Everything that the unit compiler can have to say, with the code and the wording of each. -/
set_option autoImplicit false
namespace UnitForge

inductive Problem where
  | malformedSource
  -- the declarations of a source
  | unsupportedItem
  | genericStruct
  | tupleStruct
  | duplicateItem (name : String)
  | relativeImport
  | globImport
  | unresolvedImport (path : String)
  | misplacedPublic (name fullName : String)
  | unsupportedImpl
  | unsupportedTrait
  | foreignTarget
  | unsupportedImplItem
  | notInDefault (name : String)
  | duplicateFunction (name : String)
  -- types
  | unsupportedType
  | genericArguments
  | unknownType (name : String)
  | unknownTypeIn (name module : String)
  -- signatures
  | duplicateField (name : String)
  | specialConstructor (name : String)
  | takesSelf (name : String)
  | returnsOther (name : String)
  | parameterPattern
  | duplicateParameter (name : String)
  | identicalConstructors (earlier later : String)
  -- statements and the final literal
  | nestedItem
  | macroCall
  | onlyBindings
  | bindingPattern
  | bindingWithoutValue
  | bindingElse
  | finalLiteral
  | otherLiteral (owner : String)
  | updateSyntax
  | unknownField (owner name : String)
  | repeatedField (name : String)
  | missingFields (owner : String) (names : List String)
  | unusedVariable (name : String)
  -- expressions
  | mismatch (expected found : String)
  | tooDeep (limit : Nat)
  | unsupportedReference
  | nestedStructLiteral
  | unsupportedExpr
  | unsupportedLiteral
  | outOfRange (type digits : String)
  | unaryOperand (op type : String)
  | binaryOperand (op type : String)
  | dereference
  | unsupportedOperator
  | unknownValue (name : String)
  | unknownPath
  | castTarget
  | impossibleCast (source target : String)
  | invalidCast (source target : String)
  | nonPrimitiveCast (source target : String)
  | methodArguments (given : Nat)
  | unknownMethod (method : String) (receiver : TypeRef)
  | unsupportedCall
  | qualifiedCall
  | unknownFunction (name : String)
  | unknownTextFunction (name : String)
  | unknownConstructor (name unit : String)
  | argumentCount (expected given : Nat)
  -- options, class path and outputs
  | unknownOption (option : String)
  | missingValues (option : String) (count : Nat)
  | refusedOption (option : String)
  | invalidValue (option reason : String)
  | invalidUnitFile (name reason : String)
  | unwritten (name reason : String)
  | unflushed (reason : String)
  deriving DecidableEq, Repr

namespace Problem

def severity : Problem → Severity
  | identicalConstructors .. | unusedVariable .. => .warning
  | _ => .error

def code : Problem → String
  | malformedSource => "syntax"
  | duplicateItem .. => "E0428"
  | unresolvedImport .. => "E0432"
  | misplacedPublic .. => "unit-name-mismatch"
  | notInDefault .. => "E0407"
  | duplicateFunction .. => "E0201"
  | unknownType .. | unknownTypeIn .. => "E0412"
  | duplicateField .. => "E0124"
  | duplicateParameter .. => "E0415"
  | identicalConstructors .. => "identical_constructors"
  | otherLiteral .. | mismatch .. => "E0308"
  | unknownField .. => "E0560"
  | repeatedField .. => "E0062"
  | missingFields .. => "E0063"
  | unusedVariable .. => "unused_variables"
  | outOfRange .. => "literal-out-of-range"
  | unaryOperand .. => "E0600"
  | binaryOperand .. => "E0369"
  | unknownValue .. | unknownPath | unknownFunction .. => "E0425"
  | castTarget | impossibleCast .. | invalidCast .. | nonPrimitiveCast .. => "E0605"
  | methodArguments .. | argumentCount .. => "E0061"
  | unknownMethod .. | unknownTextFunction .. | unknownConstructor .. => "E0599"
  | unknownOption .. | missingValues .. | refusedOption .. | invalidValue .. => "invalid-flag"
  | invalidUnitFile .. => "E0786"
  | unwritten .. | unflushed .. => "output"
  | _ => "unsupported"

def argumentsWere (count : Nat) : String :=
  if count = 1 then s!"{count} argument was" else s!"{count} arguments were"

def argumentsText (count : Nat) : String :=
  if count = 1 then s!"{count} argument" else s!"{count} arguments"

def listed (names : List String) : String :=
  ", ".intercalate (names.map fun name => s!"`{name}`")

def message : Problem → String
  | malformedSource => "<syntax>"
  | unsupportedItem =>
    "only structs, impl blocks and `use` declarations are supported in a unit"
  | genericStruct => "generic structs are not supported"
  | tupleStruct => "tuple structs are not supported; use named fields"
  | duplicateItem name => s!"the name `{name}` is defined multiple times"
  | relativeImport => "relative imports are not supported"
  | globImport => "glob imports are not supported"
  | unresolvedImport path => s!"unresolved import `{path}`"
  | misplacedPublic name fullName =>
    s!"public struct `{name}` must be declared in a unit named `{fullName}`"
  | unsupportedImpl => "generic and unsafe impl blocks are not supported"
  | unsupportedTrait => "only inherent impls and `impl Default` are supported"
  | foreignTarget => "impl blocks must target a struct declared in this unit"
  | unsupportedImplItem => "only associated functions are supported in impl blocks"
  | notInDefault name => s!"method `{name}` is not a member of trait `Default`"
  | duplicateFunction name => s!"duplicate definitions with name `{name}`"
  | unsupportedType =>
    "unsupported type; expected an integer, float, `bool`, `String` or a unit type"
  | genericArguments => "generic arguments are not supported"
  | unknownType name => s!"cannot find type `{name}` in this scope"
  | unknownTypeIn name module => s!"cannot find type `{name}` in module `{module}`"
  | duplicateField name => s!"field `{name}` is already declared"
  | specialConstructor name => s!"constructor `{name}` must be a plain, non-generic function"
  | takesSelf name => s!"`{name}` takes `self`; only constructors are supported"
  | returnsOther name => s!"associated function `{name}` must return `Self`"
  | parameterPattern => "parameters must be plain identifiers"
  | duplicateParameter name =>
    s!"identifier `{name}` is bound more than once in this parameter list"
  | identicalConstructors earlier later =>
    s!"constructors `{earlier}` and `{later}` take the same parameter types; " ++
      "selecting one by argument types will be ambiguous"
  | nestedItem => "nested items are not supported"
  | macroCall => "macros are not supported"
  | onlyBindings => "only `let` statements may precede the struct literal"
  | bindingPattern => "`let` patterns must be plain identifiers"
  | bindingWithoutValue => "`let` without an initializer is not supported"
  | bindingElse => "`let ... else` is not supported"
  | finalLiteral => "constructors must end in a `Self \x7b .. \x7d` literal"
  | otherLiteral owner => s!"mismatched types: expected `{owner}`"
  | updateSyntax => "functional update syntax is not supported"
  | unknownField owner name => s!"struct `{owner}` has no field named `{name}`"
  | repeatedField name => s!"field `{name}` specified more than once"
  | missingFields owner names =>
    let noun := if names.length = 1 then "field" else "fields"
    s!"missing {noun} {listed names} in initializer of `{owner}`"
  | unusedVariable name => s!"unused variable: `{name}`"
  | mismatch expected found => s!"mismatched types: expected `{expected}`, found `{found}`"
  | tooDeep limit => s!"expression nests too deeply; at most {limit} levels are supported"
  | unsupportedReference => "references are only supported to `String` values"
  | nestedStructLiteral =>
    "struct literals are only supported as the final expression of a constructor"
  | unsupportedExpr => "unsupported expression in constructor body"
  | unsupportedLiteral => "only integer, float, bool and string literals are supported"
  | outOfRange type digits => s!"literal out of range for `{type}`: {digits}"
  | unaryOperand op type => s!"cannot apply unary operator `{op}` to type `{type}`"
  | binaryOperand op type => s!"binary operation `{op}` cannot be applied to type `{type}`"
  | dereference => "dereferencing is not supported"
  | unsupportedOperator => "bitwise, shift and assignment operators are not supported"
  | unknownValue name => s!"cannot find value `{name}` in this scope"
  | unknownPath =>
    "cannot find value in this scope; only parameters and locals can be referenced"
  | castTarget => "casts are only supported to integer and float types"
  | impossibleCast source target => s!"cannot cast `{source}` as `{target}`"
  | invalidCast source target => s!"casting `{source}` as `{target}` is invalid"
  | nonPrimitiveCast source target => s!"non-primitive cast: `{source}` as `{target}`"
  | methodArguments given =>
    s!"this method takes 0 arguments but {argumentsWere given} supplied"
  | unknownMethod method receiver =>
    let kind := if receiver.isPrimitive then "type" else "struct"
    s!"no method named `{method}` found for {kind} `{receiver.text}` in the current scope"
  | unsupportedCall => "only constructor calls are supported"
  | qualifiedCall => "qualified paths are not supported"
  | unknownFunction name => s!"cannot find function `{name}` in this scope"
  | unknownTextFunction name =>
    s!"no function or associated item named `{name}` found for struct `{TypeRef.str.text}`"
  | unknownConstructor name unit =>
    s!"no function or associated item named `{name}` found for struct `{unit}` " ++
      "in the current scope"
  | argumentCount expected given =>
    s!"this function takes {argumentsText expected} but {argumentsWere given} supplied"
  | unknownOption option => s!"unrecognized option `{option}`"
  | missingValues option count => s!"option `{option}` requires {count} value(s)"
  | refusedOption option => s!"option `{option}` was not accepted"
  | invalidValue option reason => s!"invalid value for `{option}`: {reason}"
  | invalidUnitFile name reason => s!"found invalid unit file for `{name}`: {reason}"
  | unwritten name reason => s!"failed to write `{name}`: {reason}"
  | unflushed reason => s!"failed to flush outputs: {reason}"

def diagnostic (problem : Problem) (source : Option String) (position : Option Position) :
    Diagnostic :=
  { severity := problem.severity, code := problem.code, message := problem.message, source,
    position }

end Problem

end UnitForge
