import UnitForge.ClassPath

/-! # Compiler configuration

The options of every compilation and whether the diagnostics of successful ones are logged. -/
set_option autoImplicit false
namespace UnitForge

def optionsVariable : String := "MEMOC_OPTIONS"

def denyWarningsFlag : String := "-Werror"

def noWarningsFlag : String := "-nowarn"

structure CompilerConfig where
  options : List String
  logDiagnostics : Bool
  deriving DecidableEq, Repr

namespace CompilerConfig

def default : CompilerConfig := { options := [], logDiagnostics := true }

def withOptions (options : List String) : CompilerConfig :=
  { default with options }

def ofVariable (value : Option String) : CompilerConfig :=
  match value with
  | some text => withOptions (Text.words text)
  | none => default

def option (config : CompilerConfig) (option : String) : CompilerConfig :=
  { config with options := config.options ++ [option] }

def classPath (config : CompilerConfig) (entries : List String) : CompilerConfig :=
  (config.option ClassPath.flag).option (ClassPath.join entries)

def denyWarnings (config : CompilerConfig) : CompilerConfig :=
  config.option denyWarningsFlag

def quiet (config : CompilerConfig) : CompilerConfig :=
  { config.option noWarningsFlag with logDiagnostics := false }

end CompilerConfig

end UnitForge
