import UnitForge.Dialect.Lowering

/-! # Sources at other places

A source is relocated by a function on positions: every part of its syntax tree stays what it is and
stands elsewhere. The types of fields can be rewritten on the way, since declarations do not look at
them. Moving everything to one place erases the positions, and sources that are the same then
differ in nothing but their layout. -/
set_option autoImplicit false
namespace UnitForge

variable (move : Position → Position)

def Diagnostic.relocate (diagnostic : Diagnostic) : Diagnostic :=
  { diagnostic with position := diagnostic.position.map move }

@[simp] theorem Diagnostic.relocate_id (diagnostic : Diagnostic) :
    diagnostic.relocate id = diagnostic := by
  simp [relocate]

@[simp] theorem Problem.relocate_diagnostic (problem : Problem) (source : Option String)
    (pos : Option Position) :
    (problem.diagnostic source pos).relocate move = problem.diagnostic source (pos.map move) :=
  rfl

namespace Source

/-! ## Names -/

def Ident.relocate (ident : Ident) : Ident :=
  { ident with pos := move ident.pos }

def GenericArguments.relocate (arguments : GenericArguments) : GenericArguments :=
  { arguments with pos := move arguments.pos }

def Segment.relocate (segment : Segment) : Segment where
  ident := segment.ident.relocate move
  arguments := segment.arguments.map (·.relocate move)

def NamePath.relocate (path : NamePath) : NamePath :=
  { path with pos := move path.pos, segments := path.segments.map (·.relocate move) }

@[simp] theorem Ident.relocate_name (ident : Ident) : (ident.relocate move).name = ident.name := rfl

@[simp] theorem Ident.relocate_pos (ident : Ident) : (ident.relocate move).pos = move ident.pos :=
  rfl

@[simp] theorem Ident.relocate_is (ident : Ident) (name : String) :
    (ident.relocate move).is name = ident.is name :=
  rfl

@[simp] theorem Ident.relocate_written (ident : Ident) :
    (ident.relocate move).written = ident.written :=
  rfl

@[simp] theorem Ident.relocate_id (ident : Ident) : ident.relocate id = ident := rfl

@[simp] theorem Segment.relocate_id (segment : Segment) : segment.relocate id = segment := by
  obtain ⟨ident, arguments⟩ := segment
  cases arguments <;> rfl

@[simp] theorem NamePath.relocate_pos (path : NamePath) :
    (path.relocate move).pos = move path.pos :=
  rfl

@[simp] theorem NamePath.relocate_id (path : NamePath) : path.relocate id = path := by
  simp [relocate]

@[simp] theorem NamePath.ident?_relocate (path : NamePath) :
    (path.relocate move).ident? = path.ident?.map (·.relocate move) := by
  obtain ⟨pos, colons, segments⟩ := path
  match colons, segments with
  | true, _ => rfl
  | false, [] | false, [⟨_, none⟩] | false, [⟨_, some _⟩] => rfl
  | false, ⟨_, none⟩ :: _ :: _ | false, ⟨_, some _⟩ :: _ :: _ => rfl

theorem NamePath.names_relocate (path : NamePath) :
    (path.relocate move).names = path.names := by
  simp [names, relocate, Segment.relocate]

theorem NamePath.arguments_relocate (path : NamePath) :
    (path.relocate move).segments.findSome? Segment.arguments =
      (path.segments.findSome? Segment.arguments).map (·.relocate move) := by
  have each (segments : List Segment) :
      (segments.map (·.relocate move)).findSome? Segment.arguments =
        (segments.findSome? Segment.arguments).map (·.relocate move) := by
    induction segments with
    | nil => rfl
    | cons first rest ih =>
        obtain ⟨ident, arguments⟩ := first
        cases arguments with
        | none => exact ih
        | some arguments => rfl
  exact each path.segments

/-! ## Types, patterns and expressions -/

def TypeTree.relocate : TypeTree → TypeTree
  | path pos qualified names => path (move pos) qualified (names.relocate move)
  | paren pos inner => paren (move pos) inner.relocate
  | other pos form => other (move pos) form

def Pattern.relocate : Pattern → Pattern
  | .ident pos plain name => .ident (move pos) plain (name.relocate move)
  | .openRange pos dots => .openRange (move pos) (move dots)
  | .other pos => .other (move pos)

mutual

def ExprTree.relocate : ExprTree → ExprTree
  | .literal pos place value => .literal (move pos) (move place) value
  | .paren pos opening inner => .paren (move pos) (move opening) inner.relocate
  | .path pos qualified names => .path (move pos) qualified (names.relocate move)
  | .unary pos place op operand => .unary (move pos) (move place) op operand.relocate
  | .binary pos place op left right =>
    .binary (move pos) (move place) op left.relocate right.relocate
  | .cast pos place operand type =>
    .cast (move pos) (move place) operand.relocate (type.relocate move)
  | .methodCall pos receiver method generic args =>
    .methodCall (move pos) receiver.relocate (method.relocate move) generic
      (ExprTree.relocateAll args)
  | .call pos opening function args =>
    .call (move pos) (move opening) function.relocate (ExprTree.relocateAll args)
  | .reference pos place isMutable operand =>
    .reference (move pos) (move place) isMutable operand.relocate
  | .structLiteral pos qualified names fields base =>
    .structLiteral (move pos) qualified (names.relocate move) (ExprTree.relocateFields fields)
      (ExprTree.relocateBase base)
  | .other pos form => .other (move pos) form

def ExprTree.relocateAll : List ExprTree → List ExprTree
  | [] => []
  | first :: rest => first.relocate :: ExprTree.relocateAll rest

def ExprTree.relocateFields :
    List (String × Position × ExprTree) → List (String × Position × ExprTree)
  | [] => []
  | (name, pos, value) :: rest =>
    (name, move pos, value.relocate) :: ExprTree.relocateFields rest

def ExprTree.relocateBase : Option ExprTree → Option ExprTree
  | none => none
  | some base => some base.relocate

end

@[simp] theorem TypeTree.relocate_pos (type : TypeTree) :
    (type.relocate move).pos = move type.pos := by
  cases type <;> rfl

@[simp] theorem TypeTree.relocate_id (type : TypeTree) : type.relocate id = type := by
  induction type with
  | path pos qualified names => simp [relocate]
  | paren pos inner ih => simp [relocate, ih]
  | other pos form => rfl

@[simp] theorem Pattern.relocate_pos (pattern : Pattern) :
    (pattern.relocate move).pos = move pattern.pos := by
  cases pattern <;> rfl

@[simp] theorem Pattern.relocate_id (pattern : Pattern) : pattern.relocate id = pattern := by
  cases pattern <;> rfl

@[simp] theorem ExprTree.relocate_pos (tree : ExprTree) :
    (tree.relocate move).pos = move tree.pos := by
  cases tree <;> rfl

theorem ExprTree.headPos_relocate (tree : ExprTree) :
    Lower.headPos (tree.relocate move) = move (Lower.headPos tree) := by
  cases tree <;> rfl

@[simp] theorem ExprTree.length_relocateAll (trees : List ExprTree) :
    (ExprTree.relocateAll move trees).length = trees.length := by
  induction trees with
  | nil => rfl
  | cons first rest ih => exact congrArg Nat.succ ih

theorem ExprTree.relocate_all_id :
    (∀ tree, relocate id tree = tree) ∧ (∀ base, relocateBase id base = base) ∧
      (∀ fields, relocateFields id fields = fields) ∧ ∀ trees, relocateAll id trees = trees := by
  apply ExprTree.relocate.mutual_induct <;>
    simp_all [ExprTree.relocate, relocateAll, relocateFields, relocateBase]

@[simp] theorem ExprTree.relocate_id (tree : ExprTree) : tree.relocate id = tree :=
  relocate_all_id.1 tree

/-! ## Statements and functions -/

def StmtTree.relocate : StmtTree → StmtTree
  | binding pos pattern type init otherwise =>
    binding (move pos) (pattern.relocate move) (type.map (·.relocate move))
      (init.map (·.relocate move)) (otherwise.map move)
  | item pos => item (move pos)
  | macroCall pos => macroCall (move pos)
  | expr value semicolon => expr (value.relocate move) semicolon
  | empty => empty

def ParamTree.relocate (param : ParamTree) : ParamTree where
  pattern := param.pattern.relocate move
  type := param.type.relocate move

def FunctionTree.relocate (function : FunctionTree) : FunctionTree where
  pos := move function.pos
  ident := function.ident.relocate move
  isPlain := function.isPlain
  receiver := function.receiver.map move
  params := function.params.map (·.relocate move)
  output := function.output.map (·.relocate move)
  body := function.body.map (·.relocate move)
  closing := move function.closing

@[simp] theorem StmtTree.relocate_id (tree : StmtTree) : tree.relocate id = tree := by
  cases tree <;> simp [relocate]

@[simp] theorem FunctionTree.relocate_id (function : FunctionTree) :
    function.relocate id = function := by
  have params (param : ParamTree) : param.relocate id = param := by simp [ParamTree.relocate]
  simp [relocate, List.map_id'' params]

/-! ## Items -/

def ImplItem.relocate : ImplItem → ImplItem
  | function tree => function (tree.relocate move)
  | other pos => other (move pos)

def ImplTree.relocate (tree : ImplTree) : ImplTree where
  pos := move tree.pos
  isGeneric := tree.isGeneric
  isUnsafe := tree.isUnsafe
  ofTrait := tree.ofTrait.map fun (negated, names) => (negated, names.relocate move)
  target := tree.target.relocate move
  items := tree.items.map (·.relocate move)

mutual

def UseTree.relocate : UseTree → UseTree
  | .path ident tree => .path (ident.relocate move) tree.relocate
  | .name ident => .name (ident.relocate move)
  | .rename ident newName => .rename (ident.relocate move) (newName.relocate move)
  | .glob pos => .glob (move pos)
  | .group trees => .group (UseTree.relocateAll trees)

def UseTree.relocateAll : List UseTree → List UseTree
  | [] => []
  | first :: rest => first.relocate :: UseTree.relocateAll rest

end

@[simp] theorem ImplItem.relocate_id (item : ImplItem) : item.relocate id = item := by
  cases item <;> simp [relocate]

@[simp] theorem ImplTree.relocate_id (tree : ImplTree) : tree.relocate id = tree := by
  simp [relocate]

theorem UseTree.relocate_all_id :
    (∀ tree, relocate id tree = tree) ∧ ∀ trees, relocateAll id trees = trees := by
  apply UseTree.relocate.mutual_induct <;> simp_all [UseTree.relocate, relocateAll]

section Fields
variable (rewrite : TypeTree → TypeTree)

def FieldTree.relocate (field : FieldTree) : FieldTree where
  ident := field.ident.relocate move
  type := rewrite field.type

def FieldsTree.relocate : FieldsTree → FieldsTree
  | named fields => named (fields.map (·.relocate move rewrite))
  | unnamed pos => unnamed (move pos)
  | unit => unit

def StructTree.relocate (tree : StructTree) : StructTree where
  isPublic := tree.isPublic
  ident := tree.ident.relocate move
  generics := tree.generics.map move
  fields := tree.fields.relocate move rewrite

def Item.relocate : Item → Item
  | struct tree => struct (tree.relocate move rewrite)
  | use tree => use (tree.relocate move)
  | impl tree => impl (tree.relocate move)
  | other pos => other (move pos)

/-- A file elsewhere, with the types of its fields rewritten. -/
def File.relocate (file : File) : File where
  items := file.items.map (·.relocate move rewrite)

end Fields

@[simp] theorem StructTree.relocate_id (tree : StructTree) : tree.relocate id id = tree := by
  have same (field : FieldTree) : field.relocate id id = field := rfl
  have fields (fields : FieldsTree) : fields.relocate id id = fields := by
    cases fields <;> simp [FieldsTree.relocate, List.map_id'' same]
  simp [relocate, fields]

@[simp] theorem Item.relocate_id (item : Item) : item.relocate id id = item := by
  cases item <;> simp [relocate, UseTree.relocate_all_id.1]

@[simp] theorem File.relocate_id (file : File) : file.relocate id id = file := by
  simp [relocate]

end Source

end UnitForge
