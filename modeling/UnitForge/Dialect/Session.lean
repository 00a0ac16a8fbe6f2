import UnitForge.Dialect.Problem
import UnitForge.Error
import UnitForge.Image.Codec

/-! # Sessions

What one run of the unit compiler keeps: the state of its file manager, the diagnostics delivered
so far, and what the class path was found to hold. Every unit and every package is asked for once,
whatever the answer. -/
set_option autoImplicit false
namespace UnitForge

/-- What becomes of warnings: they may be dropped, and those that are not may count as errors. -/
structure WarningPolicy where
  suppress : Bool
  deny : Bool
  deriving DecidableEq, Repr

namespace WarningPolicy

def default : WarningPolicy := { suppress := false, deny := false }

def apply (policy : WarningPolicy) (diagnostic : Diagnostic) : Option Diagnostic :=
  if diagnostic.severity = .warning then
    if policy.suppress then none
    else if policy.deny then some { diagnostic with severity := .error }
    else some diagnostic
  else some diagnostic

end WarningPolicy

structure Session (σ : Type) where
  files : σ
  policy : WarningPolicy
  delivered : List Diagnostic
  units : List (String × Option UnitImage)
  packages : List (String × List String)

abbrev Check (σ : Type) := StateM (Session σ)

namespace Session

variable {σ : Type}

def start (files : σ) : Session σ :=
  { files, policy := .default, delivered := [], units := [], packages := [] }

def errors (session : Session σ) : Nat :=
  Diagnostic.count .error session.delivered

def report (diagnostic : Diagnostic) : Check σ Unit :=
  modify fun session =>
    { session with delivered := session.delivered ++ (session.policy.apply diagnostic).toList }

def complain (uri : String) (pos : Position) (problem : Problem) : Check σ Unit :=
  report (problem.diagnostic (some uri) (some pos))

def onFiles {α : Type} (op : FileOp σ α) : Check σ (Except FileError α) := fun session =>
  let (result, files) := op session.files
  (result, { session with files })

def ask {α : Type} (query : FileQuery σ α) : Check σ α := fun session =>
  let (answer, files) := query session.files
  (answer, { session with files })

variable (manager : FileManager σ)

/-- Reads the file of a unit on the class path. A file that is no image of that unit is
reported. -/
def readUnit (name : String) : Check σ (Option UnitImage) := do
  match ← onFiles (manager.input .classPath name .unit) with
  | .ok (some file) =>
    match ← onFiles (manager.read file) with
    | .ok bytes =>
      match UnitImage.decode name bytes with
      | .ok image => return some image
      | .error fault => unreadable file (.malformedArtifact name fault)
    | .error fault => unreadable file (.file fault)
  | _ => return none
where
  /-- Reports why the file gives no image. -/
  unreadable (file : FileObject) (error : Error) : Check σ (Option UnitImage) := do
    let problem := Problem.invalidUnitFile name error.message
    report (problem.diagnostic (some file.uri) none)
    return none

def classPathUnit (name : String) : Check σ (Option UnitImage) := do
  match (← get).units.lookup name with
  | some known => return known
  | none =>
    let found ← readUnit manager name
    modify fun session => { session with units := session.units ++ [(name, found)] }
    return found

def listPackage (package : String) : Check σ (List String) := do
  match ← onFiles (manager.list .classPath package [.unit] false) with
  | .ok found => found.filterMapM fun file => ask (manager.nameOf .classPath file)
  | .error _ => return []

def packageContains (package simple : String) : Check σ Bool := do
  let full := Name.qualify package simple
  match (← get).packages.lookup package with
  | some known => return known.contains full
  | none =>
    let names ← listPackage manager package
    modify fun session => { session with packages := session.packages ++ [(package, names)] }
    return names.contains full

end Session

end UnitForge
