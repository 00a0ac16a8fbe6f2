import UnitForge.Text.Split

/-! # Paths

A path is a text; what it names is decided by its components. Two paths are the same, and one lies
under another, by their components, so that `lib`, `lib/` and `lib//.` do not differ, while the
text stays as it was written. -/
set_option autoImplicit false
namespace UnitForge

/-- A path as written, with `/` between its pieces. -/
structure Path where
  text : String
  deriving DecidableEq, Repr, Inhabited

namespace Path

/-- One step of a path. The order of the constructors is the order of paths. -/
inductive Component where
  | root
  | here
  | up
  | name (text : String)
  deriving DecidableEq, Repr

namespace Component

def isBefore : Component → Component → Bool
  | .name a, .name b => a < b
  | a, b => rank a < rank b
where
  rank : Component → Nat
    | .root => 0
    | .here => 1
    | .up => 2
    | .name _ => 3

/-- The component that a piece of a path stands for, apart from its first piece. -/
def ofPiece? (piece : String) : Option Component :=
  if piece = "" ∨ piece = "." then none
  else if piece = ".." then some .up
  else some (.name piece)

end Component

def pieces (path : Path) : List String :=
  Text.splitOn '/' path.text

def isAbsolute (path : Path) : Bool :=
  path.text.toList.head? = some '/'

/-- The pieces, each with its component if it has one. A leading slash stands for the root and a
leading `.` for the working directory; further on, empty pieces and `.` mean nothing. -/
def marked (path : Path) : List (String × Option Component) :=
  match path.pieces with
  | [] => []
  | first :: rest =>
    let head :=
      if path.isAbsolute then some .root
      else if first = "." then some .here
      else Component.ofPiece? first
    (first, head) :: rest.map fun piece => (piece, Component.ofPiece? piece)

def components (path : Path) : List Component :=
  path.marked.filterMap (·.2)

def same (a b : Path) : Bool :=
  a.components = b.components

/-- The order of component lists: an earlier first difference, or a shorter list. -/
def componentsBefore : List Component → List Component → Bool
  | [], [] => false
  | [], _ :: _ => true
  | _ :: _, [] => false
  | a :: as, b :: bs => if a = b then componentsBefore as bs else a.isBefore b

def isAtMost (a b : Path) : Bool :=
  !componentsBefore b.components a.components

/-- The path reached from `base` by following `path`; an absolute path stays itself. -/
def join (base path : Path) : Path :=
  if path.isAbsolute then path
  else if base.text.isEmpty ∨ base.text.toList.getLast? = some '/' then ⟨base.text ++ path.text⟩
  else ⟨base.text ++ "/" ++ path.text⟩

def fileName? (path : Path) : Option String :=
  match path.components.getLast? with
  | some (.name text) => some text
  | _ => none

def dropComponents :
    List (String × Option Component) → List Component → Option (List (String × Option Component))
  | pieces, [] => some pieces
  | [], _ :: _ => none
  | (_, none) :: rest, expected => dropComponents rest expected
  | (_, some c) :: rest, e :: expected => if c = e then dropComponents rest expected else none

/-- Marked pieces without those at either end that mean nothing. -/
def trimMarked (pieces : List (String × Option Component)) : List (String × Option Component) :=
  let trimmed := pieces.dropWhile (·.2.isNone)
  (trimmed.reverse.dropWhile (·.2.isNone)).reverse

def textOfMarked (pieces : List (String × Option Component)) : String :=
  match pieces with
  | [(_, some .root)] => "/"
  | _ => "/".intercalate (pieces.map (·.1))

def stripBase? (path base : Path) : Option String :=
  (dropComponents path.marked base.components).map fun rest => textOfMarked (trimMarked rest)

def liesUnder (path base : Path) : Bool :=
  base.components.isPrefixOf path.components

end Path

end UnitForge
