import UnitForge.Source.Scan
import UnitForge.Source.Grammar.Expressions

/-! # Items

The grammar of items. Structs, imports and impl blocks are kept as trees; any other item is read
to its end, so that every fault in it is found, and then known by its place alone. -/
set_option autoImplicit false
namespace UnitForge.Source.Grammar

/-! ## Visibility and signatures -/

inductive Visibility where
  | inherited
  | restricted
  | everywhere
  deriving DecidableEq

/-- The visibility of an item. Parentheses behind `pub` belong to it only if a path is in them. -/
def visibility : Parser Visibility := do
  if ← word? "pub" then
    match ← ahead with
    | .group .paren _ _ content :: _ =>
      if isWordOf ["crate", "self", "super"] content && content.length = 1 then
        advance 1
        return .restricted
      else if isWord "in" content then
        let _ ← inGroup .paren do
          let _ ← word "in"
          plainPath
        return .restricted
      else return .everywhere
    | _ => return .everywhere
  else return .inherited

def behindVisibility : Parser (List Token) := do
  match ← attempt visibility with
  | some (_, rest) => return rest
  | none => ahead

def dropWord (name : String) (tokens : List Token) : List Token :=
  if isWord name tokens then second tokens else tokens

/-- Whether qualifiers and the keyword of a function follow. Only a foreign function can be
`safe`. -/
def startsSignature (allowSafe : Bool) (tokens : List Token) : Bool :=
  let rest := dropWord "async" (dropWord "const" tokens)
  let rest :=
    if allowSafe && isWord "safe" rest then second rest else dropWord "unsafe" rest
  let rest := if isWord "extern" rest then
      let behind := second rest
      if isText behind then second behind else behind
    else rest
  isWord "fn" rest

inductive Param where
  | receiver (pos : Position)
  | typed (tree : ParamTree)
  | variadic

/-- The start of a receiver: whether it is a reference, and the place of `self`, which starts
no path there. -/
def receiverStart : Parser (Bool × Position) := do
  let isReference ← mark? "&"
  if isReference then
    let _ ← lifetime?
  let _ ← word? "mut"
  let pos ← word "self"
  if ← sees (isMark "::") then refuse
  return (isReference, pos)

/-- A parameter of a function; the place of `self` in a receiver comes with it. -/
def param (g : Knot) : Parser (Param × Position) := do
  let attributes ← outerAttributes g
  let place ← here
  if ← mark? "..." then return (.variadic, place)
  if (← attempt receiverStart).isSome then
    let (isReference, self) ← receiverStart
    if ← sees fun ts => !isReference && isMark ":" ts then
      let _ ← mark ":"
      let _ ← g.type true
    return (.receiver (attributes.getD place), self)
  else if ← sees fun ts => isName ts && isMark "<" (second ts) then
    let type ← g.type true
    return (.typed ⟨.other place, type⟩, place)
  else
    let pattern ← g.pattern
    let _ ← mark ":"
    if ← mark? "..." then return (.variadic, place)
    else return (.typed ⟨pattern, ← g.type true⟩, place)

/-- Parameters up to the end. A receiver comes first, and nothing follows a variable parameter but
a comma. -/
def params (g : Knot) : Parser (List Param) :=
  looped (loop true)
where
  loop (isFirst : Bool) : Nat → Parser (List Param)
    | 0 => return []
    | fuel + 1 => do
      if ← atEnd then return []
      let (first, self) ← param g
      match first with
      | .variadic =>
        if !(← atEnd) then
          let _ ← mark ","
        return [first]
      | .receiver _ => if !isFirst then throw self
      | .typed _ => pure ()
      if ← atEnd then return [first]
      let _ ← mark ","
      return first :: (← loop false fuel)

structure Signature where
  pos : Position
  ident : Ident
  isPlain : Bool
  receiver : Option Position
  params : List ParamTree
  output : Option TypeTree

/-- A signature. What is left over behind the parameters counts after everything else in it. -/
def signature (g : Knot) (allowSafe : Bool) : Parser Signature := do
  let pos ← here
  let isConst ← word? "const"
  let isAsync ← word? "async"
  let isUnsafe ← word? "unsafe"
  let isSafe ← if allowSafe && !isUnsafe then word? "safe" else pure false
  let isExtern ← word? "extern"
  if isExtern && (← sees isText) then advance 1
  let _ ← word "fn"
  let ident ← name
  let generics ← generics g
  let group ← openGroup .paren (params g)
  let output ← returnedType g true
  let _ ← whereClause g
  closeGroup group
  let isVariadic := group.found.any fun | .variadic => true | _ => false
  let isQualified := isConst || isAsync || isUnsafe || isSafe || isExtern
  let isPlain := !isQualified && generics.isNone && !isVariadic
  let receiver := group.found.findSome? fun | .receiver pos => some pos | _ => none
  let params := group.found.filterMap fun | .typed tree => some tree | _ => none
  return { pos, ident, isPlain, receiver, params, output }

def body (g : Knot) : Parser (List StmtTree × Position) := do
  let (_, closing, found) ← inGroup .brace do
    innerAttributes g
    g.statements
  return (found, closing)

def function? (g : Knot) (allowSafe : Bool) : Parser (Option FunctionTree) := do
  let s ← signature g allowSafe
  if ← mark? ";" then return none
  let (found, closing) ← body g
  return some { s with body := found, closing }

/-! ## Structs and other types -/

def namedField (g : Knot) : Parser FieldTree := do
  let _ ← outerAttributes g
  let _ ← visibility
  let ident ← nameOr ["_"]
  let _ ← mark ":"
  let isNested ← sees fun ts =>
    isWord "struct" ts || (isWord "union" ts && isGroup .brace (second ts))
  if ident.is "_" && isNested then
    let pos ← here
    advance 1
    let _ ← g.fields
    return ⟨ident, .unusable pos⟩
  else return ⟨ident, ← g.type true⟩

def namedFields (g : Knot) : Parser (List FieldTree) := do
  let (_, _, found) ← inGroup .brace (separated (namedField g))
  return found

def unnamedFields (g : Knot) : Parser Position := do
  let (opening, _, _) ← inGroup .paren <| separated do
    let _ ← outerAttributes g
    let _ ← visibility
    g.type true
  return opening

def structItem (g : Knot) : Parser StructTree := do
  let isPublic := (← visibility) = .everywhere
  let _ ← word "struct"
  let ident ← name
  let generics ← generics g
  let isConstrained ← sees (isWord "where")
  let _ ← whereClause g
  let fields ←
    if !isConstrained && (← sees (isGroup .paren)) then
      let pos ← unnamedFields g
      let _ ← whereClause g
      let _ ← mark ";"
      pure (.unnamed pos)
    else if ← sees (isGroup .brace) then .named <$> namedFields g
    else
      let _ ← mark ";"
      pure .unit
  return { isPublic, ident, generics, fields }

def variant (g : Knot) : Parser Unit := do
  let _ ← outerAttributes g
  let _ ← visibility
  let _ ← name
  if ← sees (isGroup .brace) then
    let _ ← namedFields g
  else if ← sees (isGroup .paren) then
    let _ ← unnamedFields g
  if ← mark? "=" then
    let _ ← g.expr true

def enumItem (g : Knot) : Parser Unit := do
  let _ ← word "enum"
  let _ ← name
  let _ ← generics g
  let _ ← whereClause g
  let _ ← inGroup .brace (separated (variant g))

def unionItem (g : Knot) : Parser Unit := do
  let _ ← word "union"
  let _ ← name
  let _ ← generics g
  let _ ← whereClause g
  let _ ← namedFields g

inductive WherePlace where
  | beforeValue
  | afterValue
  | either
  deriving DecidableEq

def typeItem (g : Knot) (place : WherePlace) : Parser Unit := do
  let stops := fun ts => isWord "where" ts || isMark "=" ts || isMark ";" ts
  let _ ← word "type"
  let _ ← name
  let _ ← generics g
  if ← mark? ":" then
    let _ ← enclosed "+" stops (g.bound false true)
  let isConstrained ← if place = .afterValue then pure false else whereClause g
  if ← mark? "=" then
    let _ ← g.type true
  if place ≠ .beforeValue && !isConstrained then
    let _ ← whereClause g
  let _ ← mark ";"

/-! ## Imports -/

/-- Imports with commas between them. A path from the root can only be read: none of the group is
kept then. -/
def importGroup (g : Knot) (allowRoot : Bool) : Parser (Option UseTree) := do
  let (_, _, trees) ← inGroup .brace <| separated do
    let fromRoot ← if allowRoot then mark? "::" else pure false
    let tree ← g.imports (allowRoot && !fromRoot)
    return if fromRoot then none else tree
  return if trees.any Option.isNone then none else some (.group (trees.filterMap id))

def importTree (g : Knot) (allowRoot : Bool) : Parser (Option UseTree) := do
  if ← sees fun ts => isName ts || isWordOf ["self", "super", "crate", "try"] ts then
    let first ← ident
    if ← mark? "::" then
      let tree ← g.imports false
      return tree.map (.path first)
    else if ← word? "as" then
      let newName ← nameOr ["_"]
      return some (.rename first newName)
    else return some (.name first)
  else if ← sees (isMark "*") then
    let pos ← mark "*"
    return some (.glob pos)
  else if ← sees (isGroup .brace) then importGroup g allowRoot
  else refuse

def useItem (g : Knot) : Parser (Option UseTree) := do
  let _ ← visibility
  let _ ← word "use"
  let fromRoot ← mark? "::"
  let tree ← g.imports (!fromRoot)
  let _ ← mark ";"
  return tree

/-! ## Values and macros -/

/-- A static value, from its keyword on. Its value may be missing, and outside of foreign blocks its
type may be missing if it has a value. -/
def staticItem (g : Knot) (isForeign : Bool) : Parser Unit := do
  let _ ← word "static"
  let _ ← word? "mut"
  let _ ← name
  let isUntyped ← if isForeign then pure false else sees (isMark "=")
  if !isUntyped then
    let _ ← mark ":"
    let _ ← g.type true
  if ← mark? "=" then
    let _ ← g.expr true
  let _ ← mark ";"

def constItem (g : Knot) : Parser Unit := do
  let _ ← word "const"
  let _ ← nameOr ["_"]
  let _ ← generics g
  let _ ← mark ":"
  let _ ← g.type true
  if ← mark? "=" then
    let _ ← g.expr true
  let _ ← whereClause g
  let _ ← mark ";"

/-- A macro call in the place of an item. Where `allowName` holds a name can stand before its
tokens. -/
def macroItem (allowName : Bool) : Parser Unit := do
  let _ ← plainPath
  let _ ← mark "!"
  if allowName && (← sees fun ts => isName ts || isWord "try" ts) then advance 1
  let delimiter ← anyGroup
  if delimiter ≠ .brace then
    let _ ← mark ";"

def macroDeclaration : Parser Unit := do
  let _ ← word "macro"
  let _ ← name
  if ← sees (isGroup .paren) then advance 1
  if ← sees (isGroup .brace) then advance 1 else refuse

def startsMacro (tokens : List Token) : Bool :=
  isName tokens || isWordOf ["self", "super", "crate"] tokens || isMark "::" tokens

/-! ## Traits and impl blocks -/

def traitItem (g : Knot) : Parser Unit := do
  let _ ← outerAttributes g
  let isInherited := (← visibility) = .inherited
  let isDefault ← word? "default"
  let tokens ← ahead
  let isQualified := isWordOf ["async", "unsafe", "extern", "fn"] (second tokens)
  if startsSignature false tokens || (isWord "const" tokens && isQualified) then
    let _ ← function? g false
  else if isWord "const" tokens then constItem g
  else if isWord "type" tokens then typeItem g .afterValue
  else if isInherited && !isDefault && startsMacro tokens then macroItem false
  else refuse

def traitDeclaration (g : Knot) : Parser Unit := do
  let isUnsafe ← word? "unsafe"
  let isAuto ← word? "auto"
  let _ ← word "trait"
  let _ ← name
  let _ ← generics g
  let stops := fun ts => isWord "where" ts || isGroup .brace ts
  if ← sees fun ts => !isUnsafe && !isAuto && isMark "=" ts then
    let _ ← mark "="
    let ends := fun ts => isWord "where" ts || isMark ";" ts
    let _ ← enclosed "+" ends (g.bound false false)
    let _ ← whereClause g
    let _ ← mark ";"
  else
    if ← mark? ":" then
      let _ ← enclosed "+" stops (g.bound false true)
    let _ ← whereClause g
    let _ ← inGroup .brace do
      innerAttributes g
      repeated (traitItem g)

def implItem (g : Knot) : Parser ImplItem := do
  let pos ← here
  let _ ← outerAttributes g
  let isInherited := (← visibility) = .inherited
  let isDefault ← sees fun ts => isWord "default" ts && !isMark "!" (second ts)
  if isDefault then advance 1
  let tokens ← ahead
  if startsSignature false tokens then
    match ← function? g false with
    | some function => return .function function
    | none => return .other pos
  else if isWord "const" tokens then
    constItem g
    return .other pos
  else if isWord "type" tokens then
    typeItem g .afterValue
    return .other pos
  else if isInherited && !isDefault && startsMacro tokens then
    macroItem false
    return .other pos
  else refuse

/-- An impl block, from its visibility on; none if it is of a form that has no meaning. Only a trait
can be negated. -/
def implBlock (g : Knot) : Parser (Option ImplTree) := do
  let hasVisibility := (← visibility) ≠ .inherited
  let _ ← word? "default"
  let isUnsafe ← word? "unsafe"
  let pos ← word "impl"
  let generics ← if ← sees startsGenerics then generics g else pure none
  let isConst ← sees fun ts =>
    isWord "const" ts || (isMark "?" ts && isWord "const" (second ts))
  if isConst then
    let _ ← mark? "?"
    let _ ← word "const"
  let place ← here
  let negated ← if ← sees fun ts => isMark "!" ts && !isGroup .brace (second ts) then mark? "!"
    else pure false
  let first ← g.type true
  let isFor ← word? "for"
  if negated && !isFor then throw place
  let ofTrait := match isFor, first with
    | true, .path _ false names => some (negated, names)
    | _, _ => none
  let target ← if isFor then g.type true else pure first
  let _ ← whereClause g
  let (_, _, items) ← inGroup .brace do
    innerAttributes g
    repeated (implItem g)
  if hasVisibility || isConst || (isFor && ofTrait.isNone) then return none
  else return some { pos, isGeneric := generics.isSome, isUnsafe, ofTrait, target, items }

/-! ## Items of files and modules -/

def foreignItem (g : Knot) : Parser Unit := do
  let _ ← outerAttributes g
  let isInherited := (← visibility) = .inherited
  let tokens ← ahead
  if startsSignature true tokens then
    let _ ← function? g true
  else if isWord "static" tokens then staticItem g true
  else if isWordOf ["unsafe", "safe"] tokens && isWord "static" (second tokens) then
    advance 1
    staticItem g true
  else if isWord "type" tokens then typeItem g .either
  else if isInherited && startsMacro tokens then macroItem false
  else refuse

def foreignBlock (g : Knot) : Parser Unit := do
  let _ ← word? "unsafe"
  let _ ← word "extern"
  if ← sees isText then advance 1
  let _ ← inGroup .brace do
    innerAttributes g
    repeated (foreignItem g)

def externCrate : Parser Unit := do
  let _ ← word "extern"
  let _ ← word "crate"
  let _ ← nameOr ["self"]
  if ← word? "as" then
    let _ ← nameOr ["_"]
  let _ ← mark ";"

def moduleItem (g : Knot) : Parser Unit := do
  let _ ← word? "unsafe"
  let _ ← word "mod"
  let _ ← nameOr ["try"]
  if ← mark? ";" then return
  let _ ← inGroup .brace do
    innerAttributes g
    repeated g.item

def startsForeignBlock (tokens : List Token) : Bool :=
  let rest := dropWord "unsafe" tokens
  let next := second rest
  isWord "extern" rest &&
    (isWord "unsafe" tokens || isGroup .brace next || (isText next && isGroup .brace (second next)))

def externItem : Parser Unit := do
  if isWord "crate" (second (← ahead)) then externCrate
  else
    advance 1
    if ← sees isText then advance 1
    refuse

def unsafeItem (g : Knot) : Parser Unit := do
  let next := second (← ahead)
  if isWord "trait" next || (isWord "auto" next && isWord "trait" (second next)) then
    traitDeclaration g
  else if isWord "mod" next then moduleItem g
  else
    advance 1
    refuse

def otherItem (g : Knot) : Parser Unit := do
  let start ← here
  let isInherited := (← visibility) = .inherited
  let tokens ← ahead
  let next := second tokens
  if startsSignature false tokens then
    let _ ← function? g false
  else if startsForeignBlock tokens then
    if isInherited then foreignBlock g else throw start
  else if isWord "extern" tokens then externItem
  else if isWord "static" tokens then staticItem g false
  else if isWord "const" tokens then constItem g
  else if isWord "unsafe" tokens then unsafeItem g
  else if isWord "mod" tokens then moduleItem g
  else if isWord "type" tokens then typeItem g .beforeValue
  else if isWord "enum" tokens then enumItem g
  else if isWord "union" tokens && isName next then unionItem g
  else if isWord "trait" tokens || (isWord "auto" tokens && isWord "trait" next) then
    traitDeclaration g
  else if isWord "macro" tokens then macroDeclaration
  else if isInherited && startsMacro tokens then macroItem true
  else refuse

def item (g : Knot) : Parser Item := do
  let pos ← here
  let _ ← outerAttributes g
  let tokens ← behindVisibility
  let next := second tokens
  if isWord "use" tokens then
    match ← useItem g with
    | some tree => return .use tree
    | none => return .other pos
  else if isWord "struct" tokens then return .struct (← structItem g)
  else if !startsSignature false tokens &&
      (isWord "impl" tokens || (isWord "unsafe" tokens && isWord "impl" next) ||
        (isWord "default" tokens && !isMark "!" next)) then
    match ← implBlock g with
    | some tree => return .impl tree
    | none => return .other pos
  else
    otherItem g
    return .other pos

/-! ## Files -/

def deeper (g : Knot) : Knot where
  type := typeTree g
  bound := typeBound g
  expr := expr g
  operand := operand g
  climb := climb g
  pattern := pattern g
  arm := statementExpr g
  statements := statements g
  fields := namedFields g
  item := item g
  imports := importTree g

def knot : Nat → Knot
  | 0 => .refusing
  | depth + 1 => deeper (knot depth)

def file (g : Knot) : Parser File := do
  innerAttributes g
  return { items := ← repeated g.item }

end Grammar

namespace File

/-- The depth that trees of a number of tokens stay below. -/
def depthBound (size : Nat) : Nat := 4 * size + 16

/-- The tree of a source text, or the place of its first fault. A text that ends too early has its
fault at its start, and tokens left over in a group count only if nothing else is wrong. -/
def parse? (text : String) : Except Position File := do
  let tokens ← tokenize text
  let grammar := Grammar.knot (depthBound (Token.sizeOfList tokens))
  let start : Grammar.Cursor := { rest := tokens, closing := ⟨1, 1⟩, leftover := none }
  let (found, stop) ← Grammar.file grammar start
  match stop.leftover with
  | some pos => throw pos
  | none => return found

end File

end UnitForge.Source
