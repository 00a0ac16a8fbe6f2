import UnitForge.Text.Split

/-! # Class path options

The class path is a list of directories written as one option value. Merging adds directories to
the value that an option list already has, or to a new one at its end. -/
set_option autoImplicit false
namespace UnitForge.ClassPath

def flag : String := "-cp"

/-- The spellings of the flag; an earlier one is looked for first. -/
def flags : List String := ["-cp", "-classpath", "--class-path"]

def separator : Char := ':'

/-- The entries of a value; empty ones do not count. -/
def entries (value : String) : List String :=
  (Text.splitOn separator value).filter (!·.isEmpty)

def join (entries : List String) : String :=
  (String.singleton separator).intercalate entries

def addPaths (entries : List String) (paths : List String) : List String :=
  paths.foldl (fun known path => if path ∈ known then known else known ++ [path]) entries

/-- Where the value to extend stands: behind the first occurrence of the first spelling that
occurs, unless that flag is the last option. -/
def valueIndex? (options : List String) : Option Nat :=
  match flags.findSome? (options.idxOf? ·) with
  | some i => if i + 1 < options.length then some (i + 1) else none
  | none => none

def merge (options paths : List String) : List String :=
  if paths.isEmpty then options
  else match valueIndex? options with
    | some i => options.modify i fun value => join (addPaths (entries value) paths)
    | none => options ++ [flag, join (addPaths [] paths)]

end UnitForge.ClassPath
