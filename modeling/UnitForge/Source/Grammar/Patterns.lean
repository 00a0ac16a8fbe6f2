import UnitForge.Source.Numeral
import UnitForge.Source.Grammar.Types

/-! # Patterns

The grammar of patterns. Units use nothing but identifiers; of every other pattern only its start
is kept. -/
set_option autoImplicit false
namespace UnitForge.Source.Grammar

def stopsRange (tokens : List Token) : Bool :=
  tokens.isEmpty || isMark "|" tokens || isMark "=" tokens ||
    (isMark ":" tokens && !isMark "::" tokens) || isMark "," tokens || isMark ";" tokens ||
    isWord "if" tokens

def literalToken : Parser Unit := do
  let _ ← mark? "-"
  advance 1

/-- A bound of a range, if there is one: a literal, a path or a constant block. -/
def rangeBound (g : Knot) : Parser Bool := do
  if ← sees stopsRange then return false
  else if ← sees isLiteral then
    literalToken
    return true
  else if ← sees fun ts => isPath ts || isMark "<" ts then
    let _ ← qualifiedPath g true
    return true
  else if ← word? "const" then
    attributedBlock g
    return true
  else refuse

def rangeDots (old : Bool) : Parser Bool := do
  if ← mark? "..=" then return true
  else if ← sees (isMark "...") then
    if old then
      advance 3
      return true
    else refuse
  else
    let _ ← mark ".."
    return false

/-- The dots of a range and its upper bound, which a range that includes it must have; tells
whether there is one. -/
def restOfRange (g : Knot) (old : Bool) : Parser Bool := do
  let closed ← rangeDots old
  let bounded ← rangeBound g
  if closed && !bounded then refuse else return bounded

def restOfBounded (g : Knot) (pos : Position) : Parser Pattern := do
  let dots ← here
  if ← restOfRange g true then return .other pos else return .openRange pos dots

def isBar (tokens : List Token) : Bool :=
  isMark "|" tokens && !isMark "||" tokens && !isMark "|=" tokens

/-- Patterns with bars between them; one may come first. -/
def patterns (g : Knot) : Parser Pattern := do
  let pos ← here
  let leading ← mark? "|"
  let first ← g.pattern
  if leading || (← sees isBar) then
    whileSeen isBar do
      let _ ← mark "|"
      let _ ← g.pattern
    return .other pos
  else return first

/-- A number that stands for a field: an integer of 32 bits without a suffix. -/
def fieldNumber : Parser Nat := do
  match ← ahead with
  | .literal (.int value suffix) _ :: _ =>
    if suffix.isEmpty && value < 2 ^ 32 then
      advance 1
      return value
    else refuse
  | _ => refuse

def fieldPattern (g : Knot) : Parser Unit := do
  let boxed ← word? "box"
  let byRef ← word? "ref"
  let isMutable ← word? "mut"
  if boxed || byRef || isMutable then
    let _ ← name
  else if ← sees fun ts => isName ts && !isMark ":" (second ts) then
    let _ ← name
  else
    if ← sees isName then advance 1 else
      let _ ← fieldNumber
    let _ ← mark ":"
    let _ ← patterns g

def fieldPatterns (g : Knot) : Parser Unit :=
  looped loop
where
  loop : Nat → Parser Unit
    | 0 => return ()
    | fuel + 1 => do
      if ← atEnd then return ()
      let _ ← outerAttributes g
      if ← mark? ".." then return ()
      fieldPattern g
      if ← atEnd then return ()
      let _ ← mark ","
      loop fuel

/-- A pattern that starts with a path: a constant, a macro call, a range, or the parts of a
value. -/
def pathPattern (g : Knot) (pos : Position) : Parser Pattern := do
  let (qualified, names) ← qualifiedPath g true
  if !qualified && names.isPlain && (← sees fun ts => isMark "!" ts && !isMark "!=" ts) then
    let _ ← mark "!"
    let _ ← anyGroup
  else if ← sees (isGroup .brace) then
    let _ ← inGroup .brace (fieldPatterns g)
  else if ← sees (isGroup .paren) then
    let _ ← inGroup .paren (separated (patterns g))
  else if ← sees (isMark "..") then
    return ← restOfBounded g pos
  return .other pos

def startsPathPattern (tokens : List Token) : Bool :=
  let next := second tokens
  (isName tokens &&
    (isMark "::" next || isMark "!" next || isGroup .brace next || isGroup .paren next ||
      isMark ".." next)) ||
  (isWord "self" tokens && isMark "::" next) || isMark "::" tokens || isMark "<" tokens ||
  isWordOf ["Self", "super", "crate"] tokens

def identPattern (g : Knot) (pos : Position) : Parser Pattern := do
  let byRef ← word? "ref"
  let _ ← word? "mut"
  let found ← nameOr ["self"]
  let bound ← mark? "@"
  if bound then
    let _ ← g.pattern
  return .ident pos (!byRef && !bound) found

def element (g : Knot) : Parser Unit := do
  match ← patterns g with
  | .openRange _ dots => throw dots
  | _ => return ()

def pattern (g : Knot) : Parser Pattern := do
  let pos ← here
  if ← sees startsPathPattern then pathPattern g pos
  else if ← word? "_" then return .other pos
  else if ← word? "box" then
    let _ ← g.pattern
    return .other pos
  else if ← sees fun ts => isMark "-" ts || isLiteral ts || isWord "const" ts then
    let _ ← rangeBound g
    if ← sees (isMark "..") then restOfBounded g pos else return .other pos
  else if ← sees fun ts => isName ts || isWordOf ["ref", "mut", "self"] ts then
    identPattern g pos
  else if ← mark? "&" then
    let _ ← word? "mut"
    let _ ← g.pattern
    return .other pos
  else if ← sees (isGroup .paren) then
    let _ ← inGroup .paren (separated (patterns g))
    return .other pos
  else if ← sees (isGroup .bracket) then
    let _ ← inGroup .bracket (separated (element g))
    return .other pos
  else if ← sees fun ts => isMark ".." ts && !isMark "..." ts then
    if ← restOfRange g false then return .openRange pos pos else return .other pos
  else refuse

end UnitForge.Source.Grammar
