import UnitForge.Text.Split

/-! # Dotted names

Units are named by dotted names such as `demo.shapes.Circle`: the last segment is the simple name,
what stands before the last dot is the package. -/
set_option autoImplicit false
namespace UnitForge.Name

def segments (name : String) : List String :=
  Text.splitOn '.' name

def simple (name : String) : String :=
  (segments name).getLastD ""

def package (name : String) : String :=
  ".".intercalate (segments name).dropLast

def qualify (package simple : String) : String :=
  if package.isEmpty then simple else package ++ "." ++ simple

def toPathText (name : String) : String :=
  Text.replaceChar '.' "/" name

def isSegmentStart (c : Char) : Bool :=
  c.isAlpha || c = '_'

def isSegmentContinue (c : Char) : Bool :=
  c.isAlphanum || c = '_'

def isSegment (segment : String) : Bool :=
  match segment.toList with
  | [] => false
  | c :: rest => isSegmentStart c && rest.all isSegmentContinue && segment != "_"

def isLogical (name : String) : Bool :=
  (segments name).all isSegment

end UnitForge.Name
