import UnitForge.Proofs.Source.Relocation

/-! # Comparing sources

Whether two syntax trees are the same is decided part by part, so that sources with known texts can
be compared by evaluation. -/
set_option autoImplicit false
namespace UnitForge.Source

deriving instance DecidableEq for TypeTree, Pattern

/-! ## Expressions -/

mutual

def ExprTree.same : ExprTree → ExprTree → Bool
  | .literal pos place value, .literal pos' place' value' =>
    pos = pos' && place = place' && value = value'
  | .paren pos opening inner, .paren pos' opening' inner' =>
    pos = pos' && opening = opening' && inner.same inner'
  | .path pos qualified names, .path pos' qualified' names' =>
    pos = pos' && qualified = qualified' && names = names'
  | .unary pos place op operand, .unary pos' place' op' operand' =>
    pos = pos' && place = place' && op = op' && operand.same operand'
  | .binary pos place op left right, .binary pos' place' op' left' right' =>
    pos = pos' && place = place' && op = op' && left.same left' && right.same right'
  | .cast pos place operand type, .cast pos' place' operand' type' =>
    pos = pos' && place = place' && operand.same operand' && type = type'
  | .methodCall pos receiver method generic args,
      .methodCall pos' receiver' method' generic' args' =>
    pos = pos' && receiver.same receiver' && method = method' && generic = generic' &&
      ExprTree.sameAll args args'
  | .call pos opening function args, .call pos' opening' function' args' =>
    pos = pos' && opening = opening' && function.same function' && ExprTree.sameAll args args'
  | .reference pos place isMutable operand, .reference pos' place' isMutable' operand' =>
    pos = pos' && place = place' && isMutable = isMutable' && operand.same operand'
  | .structLiteral pos qualified names fields base,
      .structLiteral pos' qualified' names' fields' base' =>
    pos = pos' && qualified = qualified' && names = names' &&
      ExprTree.sameFields fields fields' && ExprTree.sameBase base base'
  | .other pos form, .other pos' form' => pos = pos' && form = form'
  | _, _ => false

def ExprTree.sameAll : List ExprTree → List ExprTree → Bool
  | [], [] => true
  | first :: rest, first' :: rest' => first.same first' && ExprTree.sameAll rest rest'
  | _, _ => false

def ExprTree.sameFields :
    List (String × Position × ExprTree) → List (String × Position × ExprTree) → Bool
  | [], [] => true
  | (name, pos, value) :: rest, (name', pos', value') :: rest' =>
    name = name' && pos = pos' && value.same value' && ExprTree.sameFields rest rest'
  | _, _ => false

def ExprTree.sameBase : Option ExprTree → Option ExprTree → Bool
  | none, none => true
  | some base, some base' => base.same base'
  | _, _ => false

end

theorem ExprTree.same_all_iff :
    (∀ tree other, same tree other = true ↔ tree = other) ∧
      (∀ base other, sameBase base other = true ↔ base = other) ∧
      (∀ fields others, sameFields fields others = true ↔ fields = others) ∧
      ∀ trees others, sameAll trees others = true ↔ trees = others := by
  apply ExprTree.relocate.mutual_induct
  case case15 =>
    rintro name pos value rest ih ihRest (_ | ⟨⟨name', pos', value'⟩, rest'⟩)
    · simp [sameFields]
    · simp [sameFields, ih, ihRest, and_assoc]
  all_goals
    intros
    rename_i other
    cases other <;> simp [same, sameBase, sameFields, sameAll, and_assoc, *]

instance : DecidableEq ExprTree := fun tree other =>
  decidable_of_iff _ (ExprTree.same_all_iff.1 tree other)

deriving instance DecidableEq for StmtTree, ParamTree, FunctionTree, ImplItem, ImplTree, FieldTree,
  FieldsTree, StructTree

/-! ## Imports -/

mutual

def UseTree.same : UseTree → UseTree → Bool
  | .path ident tree, .path ident' tree' => ident = ident' && tree.same tree'
  | .name ident, .name ident' => ident = ident'
  | .rename ident newName, .rename ident' newName' => ident = ident' && newName = newName'
  | .glob pos, .glob pos' => pos = pos'
  | .group trees, .group trees' => UseTree.sameAll trees trees'
  | _, _ => false

def UseTree.sameAll : List UseTree → List UseTree → Bool
  | [], [] => true
  | first :: rest, first' :: rest' => first.same first' && UseTree.sameAll rest rest'
  | _, _ => false

end

theorem UseTree.same_all_iff :
    (∀ tree other, same tree other = true ↔ tree = other) ∧
      ∀ trees others, sameAll trees others = true ↔ trees = others := by
  apply UseTree.relocate.mutual_induct
  all_goals
    intros
    rename_i other
    cases other <;> simp [same, sameAll, *]

instance : DecidableEq UseTree := fun tree other =>
  decidable_of_iff _ (UseTree.same_all_iff.1 tree other)

deriving instance DecidableEq for Item, File

end UnitForge.Source
