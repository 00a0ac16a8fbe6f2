import UnitForge.Source.Grammar.Patterns

/-! # Expressions and statements

Operators are read by climbing their precedences: an operand, then operators that bind at least as
tightly as asked for, each with the operand that its own precedence gives it. Where `allowStruct`
does not hold, a brace behind a path starts a block. -/
set_option autoImplicit false
namespace UnitForge.Source

/-! ## Precedence -/

namespace Precedence

def lowest : Nat := 0
def assignment : Nat := 1
def range : Nat := 2
def comparison : Nat := 6
def cast : Nat := 13

end Precedence

def BinaryOperator.precedence : BinaryOperator → Nat
  | assign => Precedence.assignment
  | or => 3
  | and => 4
  | eq | ne | lt | le | gt | ge => Precedence.comparison
  | bitOr => 7
  | bitXor => 8
  | bitAnd => 9
  | shift => 10
  | add | sub => 11
  | mul | div | rem => 12

/-- The marks of the operators; of two that start alike the longer one comes first. -/
def BinaryOperator.marks : List (String × BinaryOperator) := [
  ("+=", assign), ("-=", assign), ("*=", assign), ("/=", assign), ("%=", assign), ("^=", assign),
  ("&=", assign), ("|=", assign), ("<<=", assign), (">>=", assign), ("&&", and), ("||", or),
  ("<<", shift), (">>", shift), ("==", eq), ("<=", le), ("!=", ne), (">=", ge), ("+", add),
  ("-", sub), ("*", mul), ("/", div), ("%", rem), ("^", bitXor), ("&", bitAnd), ("|", bitOr),
  ("<", lt), (">", gt)]

namespace OtherForm

def simple : OtherForm :=
  { isRange := false, isBlockLike := false, isCall := false, isSpecial := false,
    endsInBrace := false }

def special (endsInBrace : Bool) : OtherForm := { simple with isSpecial := true, endsInBrace }

def blockLike : OtherForm := { simple with isBlockLike := true, endsInBrace := true }

def endingIn (last : Option ExprTree) : OtherForm :=
  { simple with endsInBrace := (last.map ExprTree.endsInBrace).getD false }

def range (last : Option ExprTree) : OtherForm := { endingIn last with isRange := true }

end OtherForm

namespace ExprTree

def isRange : ExprTree → Bool
  | other _ form => form.isRange
  | _ => false

def isBlockLike : ExprTree → Bool
  | other _ form => form.isBlockLike
  | _ => false

def isBraceCall : ExprTree → Bool
  | other _ form => form.isCall && form.endsInBrace
  | _ => false

def isComparison : ExprTree → Bool
  | binary _ _ op _ _ => op.precedence = Precedence.comparison
  | _ => false

def needsSemicolon (tree : ExprTree) : Bool :=
  !tree.isBlockLike && !tree.isBraceCall

end ExprTree

namespace Grammar

def operator? (tokens : List Token) : Option (String × BinaryOperator) :=
  BinaryOperator.marks.find? fun (marks, _) => isMark marks tokens

def precedenceAhead (tokens : List Token) : Nat :=
  match operator? tokens with
  | some (_, op) => op.precedence
  | none =>
    if isMark "=" tokens && !isMark "=>" tokens then Precedence.assignment
    else if isMark ".." tokens then Precedence.range
    else if isWord "as" tokens then Precedence.cast
    else Precedence.lowest

/-! ## Blocks and lists -/

def block (g : Knot) : Parser Unit := do
  let _ ← inGroup .brace g.statements

def arguments (g : Knot) : Parser (Position × List ExprTree) := do
  let (opening, _, args) ← inGroup .paren (separated (g.expr true))
  return (opening, args)

def startsExpr (tokens : List Token) : Bool :=
  (isIdent tokens && !isWord "as" tokens) || isAnyGroup tokens || isLiteral tokens ||
    (isMark "!" tokens && !isMark "!=" tokens) ||
    (isMark "-" tokens && !isMark "-=" tokens && !isMark "->" tokens) ||
    (isMark "*" tokens && !isMark "*=" tokens) || (isMark "|" tokens && !isMark "|=" tokens) ||
    (isMark "&" tokens && !isMark "&=" tokens) || isMark ".." tokens ||
    (isMark "<" tokens && !isMark "<=" tokens && !isMark "<<=" tokens) || isMark "::" tokens ||
    isLifetime tokens || isMark "#" tokens

def expr? (g : Knot) : Parser (Option ExprTree) := do
  if ← sees startsExpr then some <$> g.expr true else return none

/-! ## Atoms -/

/-- A field of a struct literal with its name, the place of the name, and its value; the name alone
stands for the value of that name. -/
def fieldValue (g : Knot) : Parser (String × Position × ExprTree) := do
  let _ ← outerAttributes g
  let pos ← here
  if ← sees isName then
    let found ← name
    if ← mark? ":" then
      return (found.name, pos, ← g.expr true)
    else return (found.name, pos, .path pos false (.ofIdent found))
  else
    let number ← fieldNumber
    let _ ← mark ":"
    return (toString number, pos, ← g.expr true)

def fieldValues (g : Knot) : Parser (List (String × Position × ExprTree) × Option ExprTree) :=
  looped loop
where
  loop : Nat → Parser (List (String × Position × ExprTree) × Option ExprTree)
    | 0 => return ([], none)
    | fuel + 1 => do
      if ← atEnd then return ([], none)
      if ← mark? ".." then
        if ← atEnd then return ([], none)
        return ([], some (← g.expr true))
      let first ← fieldValue g
      if ← atEnd then return ([first], none)
      let _ ← mark ","
      let (others, base) ← loop fuel
      return (first :: others, base)

def pathExpr (g : Knot) (allowStruct : Bool) : Parser ExprTree := do
  let pos ← here
  let (qualified, names) ← qualifiedPath g true
  if !qualified && names.isPlain && (← sees fun ts => isMark "!" ts && !isMark "!=" ts) then
    let _ ← mark "!"
    let delimiter ← anyGroup
    let endsInBrace := delimiter = .brace
    return .other pos { OtherForm.simple with isCall := true, endsInBrace }
  else if allowStruct && (← sees (isGroup .brace)) then
    let (_, _, fields, base) ← inGroup .brace (fieldValues g)
    return .structLiteral pos qualified names fields base
  else return .path pos qualified names

def parenthesized (g : Knot) : Parser ExprTree := do
  let (pos, _, inner) ← inGroup .paren do
    if ← atEnd then return none
    let first ← g.expr true
    if ← atEnd then return some first
    let _ ← mark ","
    let _ ← separated (g.expr true)
    return none
  match inner with
  | some inner => return .paren pos pos inner
  | none => return .other pos .simple

def bracketed (g : Knot) : Parser ExprTree := do
  let (pos, _, _) ← inGroup .bracket do
    if ← atEnd then return
    let _ ← g.expr true
    if ← atEnd then return
    if ← mark? ";" then
      let _ ← g.expr true
    else
      let _ ← mark ","
      let _ ← separated (g.expr true)
  return .other pos .simple

def closure (g : Knot) (allowStruct : Bool) : Parser ExprTree := do
  let pos ← here
  let _ ← binder? g
  let _ ← word? "const"
  let _ ← word? "static"
  let _ ← word? "async"
  let _ ← word? "move"
  let _ ← mark "|"
  let _ ← enclosed "," (isMark "|") do
    let _ ← outerAttributes g
    let _ ← g.pattern
    if ← mark? ":" then
      let _ ← g.type true
  let _ ← mark "|"
  if ← mark? "->" then
    let _ ← g.type true
    block g
    return .other pos { OtherForm.simple with endsInBrace := true }
  else
    let body ← g.expr allowStruct
    return .other pos (.endingIn body)

def conditional (g : Knot) : Parser ExprTree := do
  let pos ← here
  looped loop
  return .other pos .blockLike
where
  loop : Nat → Parser Unit
    | 0 => return ()
    | fuel + 1 => do
      let _ ← word "if"
      let _ ← g.expr false
      block g
      if ← word? "else" then
        if ← sees (isWord "if") then loop fuel
        else block g

def loopExpr (g : Knot) : Parser ExprTree := do
  let pos ← here
  if ← word? "while" then
    let _ ← g.expr false
  else if ← word? "for" then
    let _ ← patterns g
    let _ ← word "in"
    let _ ← g.expr false
  else
    let _ ← word "loop"
  attributedBlock g
  return .other pos .blockLike

def matchExpr (g : Knot) : Parser ExprTree := do
  let pos ← word "match"
  let _ ← g.expr false
  let _ ← inGroup .brace do
    innerAttributes g
    repeated do
      let _ ← outerAttributes g
      let _ ← patterns g
      if ← word? "if" then
        let _ ← g.expr true
      let _ ← mark "=>"
      let body ← g.arm
      if body.isBlockLike || (← atEnd) then
        let _ ← mark? ","
      else
        let _ ← mark ","
  return .other pos .blockLike

def labeled (g : Knot) : Parser ExprTree := do
  let pos ← here
  lifetime
  let _ ← mark ":"
  if ← sees (isWordOf ["while", "for", "loop"]) then
    let _ ← loopExpr g
  else attributedBlock g
  return .other pos .blockLike

def breakExpr (g : Knot) (allowStruct : Bool) : Parser ExprTree := do
  let pos ← word "break"
  if ← sees fun ts => isLifetime ts && isMark ":" (second ts) then
    let label ← here
    let _ ← g.expr true
    throw label
  let _ ← lifetime?
  if ← sees fun ts => startsExpr ts && (allowStruct || !isGroup .brace ts) then
    let value ← g.expr allowStruct
    return .other pos (.endingIn value)
  else return .other pos .simple

def letExpr (g : Knot) (allowStruct : Bool) : Parser ExprTree := do
  let pos ← word "let"
  let _ ← patterns g
  let _ ← mark "="
  let first ← g.operand allowStruct
  let value ← g.climb first allowStruct Precedence.comparison
  return .other pos (.endingIn value)

def jump (g : Knot) : Parser ExprTree := do
  let pos ← here
  advance 1
  return .other pos (.endingIn (← expr? g))

def startsClosure (tokens : List Token) : Bool :=
  let next := second tokens
  isMark "|" tokens || isWord "move" tokens ||
    (isWord "for" tokens && startsGenerics next) ||
    (isWord "const" tokens && !isGroup .brace next) || isWord "static" tokens ||
    (isWord "async" tokens && (isMark "|" next || isWord "move" next))

def startsAsync (tokens : List Token) : Bool :=
  let next := second tokens
  isWord "async" tokens &&
    (isGroup .brace next || (isWord "move" next && isGroup .brace (second next)))

def startsPathExpr (tokens : List Token) : Bool :=
  isPath tokens || isMark "<" tokens ||
    (isWord "try" tokens && (isMark "!" (second tokens) || isMark "::" (second tokens)))

/-- What can end a range that has no upper bound. -/
def stopsRangeExpr (allowStruct : Bool) (tokens : List Token) : Bool :=
  tokens.isEmpty || (isMark "." tokens && !isMark ".." tokens) ||
    (!allowStruct && isGroup .brace tokens) || isWord "as" tokens ||
    [",", ";", "?", "=>", "=", "+", "/", "%", "^", ">", "<=", "!=", "-=", "*=", "&=", "|=",
      "<<="].any (isMark · tokens)

def rightOperand (g : Knot) (allowStruct : Bool) (precedence : Nat) : Parser ExprTree := do
  let first ← g.operand allowStruct
  looped (loop first)
where
  loop (value : ExprTree) : Nat → Parser ExprTree
    | 0 => return value
    | fuel + 1 => do
      let tokens ← ahead
      let next := precedenceAhead tokens
      if next > precedence || (next = precedence && precedence = Precedence.assignment) then
        let value ← g.climb value allowStruct next
        if (← ahead).length = tokens.length then return value
        loop value fuel
      else return value

/-- The dots of a range and its upper bound, which a range that includes it must have. -/
def restOfRangeExpr (g : Knot) (allowStruct : Bool) : Parser (Option ExprTree) := do
  let closed ← rangeDots false
  if !closed && (← sees (stopsRangeExpr allowStruct)) then return none
  else some <$> rightOperand g allowStruct Precedence.range

def atom (g : Knot) (allowStruct : Bool) : Parser ExprTree := do
  let pos ← here
  let tokens ← ahead
  let next := second tokens
  if let .literal value place :: _ := tokens then
    advance 1
    return .literal pos place value
  else if isWordOf ["true", "false"] tokens then
    advance 1
    return .literal pos pos (.bool (isWord "true" tokens))
  else if startsAsync tokens then
    let _ ← word "async"
    let _ ← word? "move"
    block g
    return .other pos { OtherForm.simple with endsInBrace := true }
  else if isWord "try" tokens && isGroup .brace next then
    advance 1
    block g
    return .other pos .blockLike
  else if startsClosure tokens then closure g allowStruct
  else if startsBuiltin tokens then
    builtin
    return .other pos (.special false)
  else if startsPathExpr tokens then pathExpr g allowStruct
  else if isGroup .paren tokens then parenthesized g
  else if isWord "break" tokens then breakExpr g allowStruct
  else if isWord "continue" tokens then
    advance 1
    let _ ← lifetime?
    return .other pos .simple
  else if isWordOf ["return", "yield"] tokens then jump g
  else if isWord "become" tokens then
    advance 1
    let _ ← g.expr true
    return .other pos (.special (endsInBrace tokens (← ahead)))
  else if isGroup .bracket tokens then bracketed g
  else if isWord "let" tokens then letExpr g allowStruct
  else if isWord "if" tokens then conditional g
  else if isWordOf ["while", "for", "loop"] tokens then loopExpr g
  else if isWord "match" tokens then matchExpr g
  else if isWordOf ["unsafe", "const"] tokens then
    advance 1
    attributedBlock g
    return .other pos .blockLike
  else if isGroup .brace tokens then
    attributedBlock g
    return .other pos .blockLike
  else if isMark ".." tokens then
    let last ← restOfRangeExpr g allowStruct
    return .other pos (.range last)
  else if isWord "_" tokens then
    advance 1
    return .other pos .simple
  else if isLifetime tokens then labeled g
  else refuse

/-! ## Trailers and operators -/

/-- Whether the digits of a number with points are those of field numbers; the last one may be
missing. -/
def areFieldNumbers (digits : String) : Bool :=
  (digits.splitOn ".").all fun part =>
    part.toList.all Numeral.isDigit && part.toNat?.getD 0 < 2 ^ 32

def afterPoint (g : Knot) (value : ExprTree) : Parser ExprTree := do
  match ← ahead with
  | .literal (.float digits suffix) _ :: _ =>
    if !suffix.isEmpty || !areFieldNumbers digits then refuse
    advance 1
    let field := ExprTree.other value.pos .simple
    if digits.endsWith "." then member field else return field
  | _ => member value
where
  member (value : ExprTree) : Parser ExprTree := do
    let pos := value.pos
    if ← word? "await" then return .other pos .simple
    else if ← sees isName then
      let method ← name
      let generic ← sees (isMark "::")
      if generic then
        let _ ← mark "::"
        if ← sees (isMark "<") then
          let _ ← angleArguments g
        else refuse
      if generic || (← sees (isGroup .paren)) then
        let (_, args) ← arguments g
        return .methodCall pos value method generic args
      else return .other pos .simple
    else
      let _ ← fieldNumber
      return .other pos .simple

def trailers (g : Knot) (value : ExprTree) : Parser ExprTree :=
  looped (loop value)
where
  loop (value : ExprTree) : Nat → Parser ExprTree
    | 0 => return value
    | fuel + 1 => do
      if ← sees (isGroup .paren) then
        let (opening, args) ← arguments g
        loop (.call value.pos opening value args) fuel
      else if !value.isRange && (← sees fun ts => isMark "." ts && !isMark ".." ts) then
        let _ ← mark "."
        let value ← afterPoint g value
        loop value fuel
      else if ← sees (isGroup .bracket) then
        let _ ← inGroup .bracket (g.expr true)
        loop (.other value.pos .simple) fuel
      else if ← sees fun ts => !value.isRange && isMark "?" ts then
        let _ ← mark "?"
        loop (.other value.pos .simple) fuel
      else return value

def primary (g : Knot) (attributes : Option Position) (allowStruct : Bool) :
    Parser ExprTree := do
  let value ← trailers g (← atom g allowStruct)
  match attributes with
  | some start => if value.isRange then throw value.pos else return value.startingAt start
  | none => return value

def operand (g : Knot) (allowStruct : Bool) : Parser ExprTree := do
  let attributes ← outerAttributes g
  let place ← here
  let pos := attributes.getD place
  if ← mark? "&" then
    if ← sees fun ts => isWord "raw" ts && isWordOf ["mut", "const"] (second ts) then
      advance 2
      let value ← g.operand allowStruct
      return .other pos (.endingIn value)
    else
      let isMutable ← word? "mut"
      let value ← g.operand allowStruct
      return .reference pos place isMutable value
  else
    let op := match ← ahead with
      | .punct '*' _ _ :: _ => some UnaryOperator.deref
      | .punct '!' _ _ :: _ => some UnaryOperator.not
      | .punct '-' _ _ :: _ => some UnaryOperator.neg
      | _ => none
    match op with
    | some op =>
      advance 1
      let value ← g.operand allowStruct
      return .unary pos place op value
    | none => primary g attributes allowStruct

def followsCast (tokens : List Token) : Bool :=
  (isMark "." tokens && !isMark ".." tokens) || isMark "?" tokens || isGroup .bracket tokens ||
    isGroup .paren tokens

/-- Reads operators that bind at least as tightly as asked for. Comparisons do not chain, and a
range is no left operand. -/
def climb (g : Knot) (value : ExprTree) (allowStruct : Bool) (lowest : Nat) : Parser ExprTree :=
  looped (loop value)
where
  loop (value : ExprTree) : Nat → Parser ExprTree
    | 0 => return value
    | fuel + 1 => do
      if value.isRange then return value
      match operator? (← ahead) with
      | some (marks, op) =>
        if op.precedence < lowest then return value
        if op.precedence = Precedence.comparison && value.isComparison then refuse
        let place ← mark marks
        let right ← rightOperand g allowStruct op.precedence
        loop (.binary value.pos place op value right) fuel
      | none =>
        if lowest ≤ Precedence.assignment &&
            (← sees fun ts => isMark "=" ts && !isMark "=>" ts) then
          let _ ← mark "="
          let right ← rightOperand g allowStruct Precedence.assignment
          let form := OtherForm.endingIn right
          loop (.other value.pos { form with isSpecial := value.startsSpecial }) fuel
        else if lowest ≤ Precedence.range && (← sees (isMark "..")) then
          let last ← restOfRangeExpr g allowStruct
          loop (.other value.pos (.range last)) fuel
        else if lowest ≤ Precedence.cast && (← sees (isWord "as")) then
          let place ← word "as"
          let type ← g.type false
          if ← sees followsCast then refuse
          loop (.cast value.pos place value type) fuel
        else return value

def startsBlockLike (tokens : List Token) : Bool :=
  let next := second tokens
  isWordOf ["if", "while", "loop", "match", "unsafe"] tokens ||
    (isWord "for" tokens && !startsGenerics next) ||
    (isWordOf ["try", "const"] tokens && isGroup .brace next) || isGroup .brace tokens ||
    isLifetime tokens

/-- An expression in the place of a statement: one that ends in a block ends there, unless a
point or a question mark goes on with it. -/
def statementExpr (g : Knot) : Parser ExprTree := do
  let attributes ← outerAttributes g
  let value ← if ← sees startsBlockLike then atom g true else operand g true
  let value := match attributes with
    | some start => value.startingAt start
    | none => value
  if !value.isBlockLike then climb g value true Precedence.lowest
  else if ← sees fun ts => (isMark "." ts && !isMark ".." ts) || isMark "?" ts then
    let value ← trailers g value
    climb g value true Precedence.lowest
  else return value

def expr (g : Knot) (allowStruct : Bool) : Parser ExprTree := do
  let first ← g.operand allowStruct
  climb g first allowStruct Precedence.lowest

/-! ## Statements -/

def binding (g : Knot) (pos : Position) : Parser StmtTree := do
  let _ ← word "let"
  let found ← g.pattern
  let type ← if ← mark? ":" then some <$> g.type true else pure none
  let mut init := none
  let mut otherwise := none
  if ← mark? "=" then
    let value ← g.expr true
    init := some value
    if ← sees fun ts => !value.endsInBrace && isWord "else" ts then
      let _ ← word "else"
      otherwise := some (← here)
      block g
  let _ ← mark ";"
  return .binding pos found type init otherwise

def startsItem (tokens : List Token) : Bool :=
  let next := second tokens
  let later := third tokens
  isWordOf ["pub", "extern", "use", "fn", "mod", "type", "struct", "enum", "trait", "impl",
    "macro"] tokens ||
  (isWord "crate" tokens && !isMark "::" next) ||
  (isWord "static" tokens && (isWord "mut" next || isName next)) ||
  (isWord "const" tokens &&
    !(isGroup .brace next || isWord "static" next ||
      (isWord "async" next && !isWordOf ["unsafe", "extern", "fn"] later) ||
      isWord "move" next || isMark "|" next)) ||
  (isWord "unsafe" tokens && !isGroup .brace next) ||
  (isWord "async" tokens && isWordOf ["unsafe", "extern", "fn"] next) ||
  (isWord "union" tokens && isName next) || (isWord "auto" tokens && isWord "trait" next) ||
  (isWord "default" tokens && isWordOf ["unsafe", "impl"] next)

def statement (g : Knot) : Parser StmtTree := do
  let start ← ahead
  let pos ← here
  let attributes ← outerAttributes g
  let afterPath := match ← attempt plainPath with
    | some (_, rest) => if isMark "!" rest then some (second rest) else none
    | none => none
  let isItemMacro := match afterPath with
    | some rest => isName rest || isWord "try" rest
    | none => false
  let isBlockMacro := match afterPath with
    | some rest =>
      let later := second rest
      isGroup .brace rest && !(isMark "." later && !isMark ".." later) && !isMark "?" later
    | none => false
  if isBlockMacro && !isItemMacro then
    let _ ← plainPath
    let _ ← mark "!"
    let _ ← anyGroup
    let _ ← mark? ";"
    return .macroCall pos
  else if ← sees (isWord "let") then binding g pos
  else if isItemMacro || (← sees startsItem) then
    modify fun cursor => { cursor with rest := start }
    let _ ← g.item
    return .item pos
  else
    let value ← statementExpr g
    let value := match attributes with
      | some start => if value.startsSpecial then value else value.startingAt start
      | none => value
    let semicolon ← mark? ";"
    match value with
    | .other _ form =>
      if form.isCall && (semicolon || form.endsInBrace) then return .macroCall pos
      else return .expr value semicolon
    | _ => return .expr value semicolon

def statements (g : Knot) : Parser (List StmtTree) :=
  looped loop
where
  loop : Nat → Parser (List StmtTree)
    | 0 => return []
    | fuel + 1 => do
      if ← mark? ";" then
        return .empty :: (← loop fuel)
      if ← atEnd then return []
      let first ← statement g
      if ← atEnd then return [first]
      match first with
      | .expr value false => if value.needsSemicolon then refuse
      | _ => pure ()
      return first :: (← loop fuel)

end Grammar

end UnitForge.Source
