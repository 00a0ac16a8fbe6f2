import UnitForge.Source.Token

/-! # Syntax trees

What a source file declares. The parts of the language that units can be made of are kept in full;
everything else keeps the place where it starts, by which it is reported. -/
set_option autoImplicit false
namespace UnitForge.Source

/-- Generic arguments: where they start, and whether there is none between the brackets. -/
structure GenericArguments where
  pos : Position
  isEmpty : Bool
  deriving DecidableEq, Repr

structure Segment where
  ident : Ident
  arguments : Option GenericArguments
  deriving DecidableEq, Repr

/-- A path of names, such as `geom::Point`. -/
structure NamePath where
  pos : Position
  leadingColons : Bool
  segments : List Segment
  deriving DecidableEq, Repr

namespace NamePath

def ofIdent (ident : Ident) : NamePath :=
  { pos := ident.pos, leadingColons := false, segments := [⟨ident, none⟩] }

def ident? (path : NamePath) : Option Ident :=
  match path.leadingColons, path.segments with
  | false, [⟨ident, none⟩] => some ident
  | _, _ => none

def names (path : NamePath) : List String :=
  path.segments.map (·.ident.name)

def isPlain (path : NamePath) : Bool :=
  path.segments.all (·.arguments.isNone)

end NamePath

/-- What parsing has to know about a type that no unit can use: whether it is a single trait bound
that stands for a type, and whether it ends in a brace. -/
structure TypeForm where
  isBound : Bool
  endsInBrace : Bool
  deriving DecidableEq, Repr

/-- A type. A path may be qualified, as in `<T as Trait>::Name`. -/
inductive TypeTree where
  | path (pos : Position) (qualified : Bool) (names : NamePath)
  | paren (pos : Position) (inner : TypeTree)
  | other (pos : Position) (form : TypeForm)
  deriving Repr

namespace TypeTree

def pos : TypeTree → Position
  | path pos _ _ => pos
  | paren pos _ => pos
  | other pos _ => pos

def unusable (pos : Position) : TypeTree :=
  other pos { isBound := false, endsInBrace := false }

/-- A type that no unit can use and that ends as its last part does. -/
def endingIn (pos : Position) (endsInBrace : Bool) : TypeTree :=
  other pos { isBound := false, endsInBrace }

def endsInBrace : TypeTree → Bool
  | other _ form => form.endsInBrace
  | _ => false

/-- Whether a type in parentheses can be the first of several bounds. -/
def canBeBound : TypeTree → Bool
  | path _ qualified _ => !qualified
  | other _ form => form.isBound
  | paren .. => false

end TypeTree

/-- A pattern. A plain one just binds its identifier. An open range lacks one of its bounds; it is
also known by the place of its dots. -/
inductive Pattern where
  | ident (pos : Position) (plain : Bool) (ident : Ident)
  | openRange (pos dots : Position)
  | other (pos : Position)
  deriving Repr

def Pattern.pos : Pattern → Position
  | ident pos _ _ => pos
  | openRange pos _ => pos
  | other pos => pos

inductive UnaryOperator where
  | neg
  | not
  | deref
  deriving DecidableEq, Repr

/-- Operators between operands. Those on bits and those that assign are not told apart further
than parsing needs it. -/
inductive BinaryOperator where
  | add
  | sub
  | mul
  | div
  | rem
  | and
  | or
  | eq
  | ne
  | lt
  | le
  | gt
  | ge
  | bitOr
  | bitXor
  | bitAnd
  | shift
  | assign
  deriving DecidableEq, Repr

/-- What parsing has to know about an expression that no unit can use. A special form is one that
the attributes of its statement do not belong to. -/
structure OtherForm where
  isRange : Bool
  isBlockLike : Bool
  isCall : Bool
  isSpecial : Bool
  endsInBrace : Bool
  deriving DecidableEq, Repr

/-- An expression. `pos` is where it starts, with its attributes; an operator, an opening
parenthesis and a literal also have places of their own. A macro call is an `other` expression
with `isCall`. -/
inductive ExprTree where
  | literal (pos : Position) (place : Position) (value : Literal)
  | paren (pos opening : Position) (inner : ExprTree)
  | path (pos : Position) (qualified : Bool) (names : NamePath)
  | unary (pos place : Position) (op : UnaryOperator) (operand : ExprTree)
  | binary (pos place : Position) (op : BinaryOperator) (left right : ExprTree)
  | cast (pos place : Position) (operand : ExprTree) (type : TypeTree)
  | methodCall (pos : Position) (receiver : ExprTree) (method : Ident) (generic : Bool)
      (args : List ExprTree)
  | call (pos opening : Position) (function : ExprTree) (args : List ExprTree)
  | reference (pos place : Position) (isMutable : Bool) (operand : ExprTree)
  | structLiteral (pos : Position) (qualified : Bool) (names : NamePath)
      (fields : List (String × Position × ExprTree)) (base : Option ExprTree)
  | other (pos : Position) (form : OtherForm)
  deriving Repr

namespace ExprTree

def pos : ExprTree → Position
  | literal pos _ _ => pos
  | paren pos _ _ => pos
  | path pos _ _ => pos
  | unary pos _ _ _ => pos
  | binary pos _ _ _ _ => pos
  | cast pos _ _ _ => pos
  | methodCall pos _ _ _ _ => pos
  | call pos _ _ _ => pos
  | reference pos _ _ _ => pos
  | structLiteral pos _ _ _ _ => pos
  | other pos _ => pos

/-- The expression with another start, that of its attributes. What stands at the left end of an
operator starts there too. -/
def startingAt (start : Position) : ExprTree → ExprTree
  | literal _ place value => literal start place value
  | paren _ opening inner => paren start opening inner
  | path _ qualified names => path start qualified names
  | unary _ place op operand => unary start place op operand
  | binary _ place op left right => binary start place op (left.startingAt start) right
  | cast _ place operand type => cast start place (operand.startingAt start) type
  | methodCall _ receiver method generic args => methodCall start receiver method generic args
  | call _ opening function args => call start opening function args
  | reference _ place isMutable operand => reference start place isMutable operand
  | structLiteral _ qualified names fields base => structLiteral start qualified names fields base
  | other _ form => other start form

def startsSpecial : ExprTree → Bool
  | binary _ _ _ left _ => left.startsSpecial
  | cast _ _ operand _ => operand.startsSpecial
  | other _ form => form.isSpecial
  | _ => false

/-- Whether the last token is a brace that closes a block or a struct literal. -/
def endsInBrace : ExprTree → Bool
  | unary _ _ _ operand => operand.endsInBrace
  | binary _ _ _ _ right => right.endsInBrace
  | cast _ _ _ type => type.endsInBrace
  | reference _ _ _ operand => operand.endsInBrace
  | structLiteral .. => true
  | other _ form => form.endsInBrace
  | _ => false

end ExprTree

/-- A statement. A `let ... else` is known by the place of its block. -/
inductive StmtTree where
  | binding (pos : Position) (pattern : Pattern) (type : Option TypeTree) (init : Option ExprTree)
      (otherwise : Option Position)
  | item (pos : Position)
  | macroCall (pos : Position)
  | expr (value : ExprTree) (semicolon : Bool)
  | empty
  deriving Repr

structure ParamTree where
  pattern : Pattern
  type : TypeTree
  deriving Repr

/-- A function with a body. `pos` is the place of its signature, a plain one has neither
qualifiers nor generic or variable parameters. -/
structure FunctionTree where
  pos : Position
  ident : Ident
  isPlain : Bool
  receiver : Option Position
  params : List ParamTree
  output : Option TypeTree
  body : List StmtTree
  closing : Position
  deriving Repr

inductive ImplItem where
  | function (function : FunctionTree)
  | other (pos : Position)
  deriving Repr

/-- An impl block. `pos` is the place of its keyword; `negated` belongs to the trait. -/
structure ImplTree where
  pos : Position
  isGeneric : Bool
  isUnsafe : Bool
  ofTrait : Option (Bool × NamePath)
  target : TypeTree
  items : List ImplItem
  deriving Repr

structure FieldTree where
  ident : Ident
  type : TypeTree
  deriving Repr

/-- The fields of a struct; those without names are known by the place of their parenthesis. -/
inductive FieldsTree where
  | named (fields : List FieldTree)
  | unnamed (pos : Position)
  | unit
  deriving Repr

/-- A struct. Its generic parameters are known by the place where they start. -/
structure StructTree where
  isPublic : Bool
  ident : Ident
  generics : Option Position
  fields : FieldsTree
  deriving Repr

inductive UseTree where
  | path (ident : Ident) (tree : UseTree)
  | name (ident : Ident)
  | rename (ident newName : Ident)
  | glob (pos : Position)
  | group (trees : List UseTree)
  deriving Repr

inductive Item where
  | struct (tree : StructTree)
  | use (tree : UseTree)
  | impl (tree : ImplTree)
  | other (pos : Position)
  deriving Repr

structure File where
  items : List Item
  deriving Repr

end UnitForge.Source
