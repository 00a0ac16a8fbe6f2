/-! # Diagnostics

The messages of a compilation, and the two ways of writing them: one line for a log, and the
numbered blocks of a failed attempt. -/
set_option autoImplicit false
namespace UnitForge

inductive Severity where
  | error
  | warning
  | note
  deriving DecidableEq, Repr, Inhabited

namespace Severity

def label : Severity → String
  | error => "error"
  | warning => "warning"
  | note => "note"

end Severity

/-- A place in a text; lines and columns count from one. -/
structure Position where
  line : Nat
  column : Nat
  deriving DecidableEq, Repr, Inhabited

structure Diagnostic where
  severity : Severity
  code : String
  message : String
  source : Option String
  position : Option Position
  deriving DecidableEq, Repr

namespace Diagnostic

def isError (d : Diagnostic) : Bool :=
  d.severity = .error

def place? (d : Diagnostic) : Option String :=
  match d.source, d.position with
  | some source, some pos => some s!"{source}:{pos.line}:{pos.column}"
  | some source, none => some source
  | none, _ => none

def line (d : Diagnostic) : String :=
  let head := s!"{d.severity.label}[{d.code}]: {d.message}"
  match d.place? with
  | some place => s!"{head} ({place})"
  | none => head

def block (number : Nat) (d : Diagnostic) : String :=
  let head := s!"Diagnostic #{number}\n[code: {d.code}, kind: {d.severity.label}]\nmessage: {d.message}\n"
  match d.place? with
  | some place => s!"{head}at: {place}\n"
  | none => head

def report (diagnostics : List Diagnostic) : String :=
  String.join (diagnostics.mapIdx fun i d => d.block (i + 1))

def count (severity : Severity) (diagnostics : List Diagnostic) : Nat :=
  diagnostics.countP (·.severity = severity)

def anyError (diagnostics : List Diagnostic) : Bool :=
  diagnostics.any isError

end Diagnostic

end UnitForge
