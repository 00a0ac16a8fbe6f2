import UnitForge.Source.Grammar.Cursor

/-! # Paths, types and generics

The grammar of paths and types, of generic parameters and arguments, of bounds and where clauses,
and of attributes, which hold paths themselves. -/
set_option autoImplicit false
namespace UnitForge.Source.Grammar

/-! ## Plain paths and attributes -/

/-- A path without arguments; keywords that start paths are allowed anywhere in it. -/
def plainPath : Parser NamePath := do
  let pos ← here
  let leadingColons ← mark? "::"
  let segments ← looped loop
  if segments.isEmpty then refuse
  else return { pos, leadingColons, segments := segments.map fun i => ⟨i, none⟩ }
where
  /-- One segment at a time; after colons there has to be one. -/
  loop : Nat → Parser (List Ident)
    | 0 => return []
    | fuel + 1 => do
      if ← sees fun ts => isName ts || isWordOf pathWords ts then
        let first ← ident
        if ← mark? "::" then
          let others ← loop fuel
          if others.isEmpty then refuse else return first :: others
        else return [first]
      else return []

def attributeContent (g : Knot) : Parser Unit := do
  if ← word? "unsafe" then pure ()
  else
    let _ ← plainPath
  if ← sees isAnyGroup then
    let _ ← anyGroup
  else if ← mark? "=" then
    let tokens ← ahead
    if isLiteral tokens && (isMark "-" tokens && tokens.length == 2 || tokens.length == 1) then
      advance tokens.length
    else if isMark "#" tokens && isGroup .bracket (second tokens) then refuse
    else
      let _ ← g.expr true

def outerAttributes (g : Knot) : Parser (Option Position) := do
  if ← sees (isMark "#") then
    let pos ← here
    whileSeen (isMark "#") do
      let _ ← mark "#"
      let _ ← inGroup .bracket (attributeContent g)
    return some pos
  else return none

def innerAttributes (g : Knot) : Parser Unit :=
  whileSeen (fun ts => isMark "#" ts && isMark "!" (second ts)) do
    let _ ← mark "#"
    let _ ← mark "!"
    let _ ← inGroup .bracket (attributeContent g)

def attributedBlock (g : Knot) : Parser Unit := do
  let _ ← inGroup .brace do
    innerAttributes g
    g.statements

/-! ## Generic parameters -/

def constArgument (g : Knot) : Parser Unit := do
  if ← sees isLiteral then
    let _ ← mark? "-"
    advance 1
  else if ← sees isName then advance 1
  else attributedBlock g

def boundsUpTo (g : Knot) (stops : List Token → Bool) : Parser Unit := do
  let _ ← joined "+" stops (g.bound false true)

/-- One generic parameter; where `allowUnnamed` holds an underscore can stand for a type. -/
def genericParam (g : Knot) (allowUnnamed : Bool) : Parser Unit := do
  let _ ← outerAttributes g
  if ← sees isLifetime then
    lifetime
    if ← mark? ":" then
      let _ ← joined "+" (fun ts => ts.isEmpty || isMark "," ts || isMark ">" ts) lifetime
  else if ← sees isName then
    let _ ← name
    if ← mark? ":" then
      boundsUpTo g fun ts => ts.isEmpty || isMark "," ts || isMark ">" ts || isMark "=" ts
    if ← mark? "=" then
      let _ ← g.type true
  else if ← sees (isWord "const") then
    let _ ← word "const"
    let _ ← name
    let _ ← mark ":"
    let _ ← g.type true
    if ← mark? "=" then constArgument g
  else if allowUnnamed && (← sees (isWord "_")) then advance 1
  else refuse

def generics (g : Knot) : Parser (Option Position) := do
  if ← sees (isMark "<") then
    let pos ← mark "<"
    let params ← enclosed "," (isMark ">") (genericParam g true)
    let _ ← mark ">"
    return if params.isEmpty then none else some pos
  else return none

/-- Whether generic parameters follow, and not a qualified path. -/
def startsGenerics (tokens : List Token) : Bool :=
  let next := second tokens
  let later := third tokens
  isMark "<" tokens &&
    (isMark ">" next || isMark "#" next || isWord "const" next ||
      ((isName next || isLifetime next) &&
        (isMark ">" later || isMark "," later || (isMark ":" later && !isMark "::" later) ||
          isMark "=" later)))

def binder? (g : Knot) : Parser Bool := do
  if ← word? "for" then
    let _ ← mark "<"
    let _ ← enclosed "," (isMark ">") (genericParam g false)
    let _ ← mark ">"
    return true
  else return false

/-! ## Paths -/

def returnedType (g : Knot) (allowPlus : Bool) : Parser (Option TypeTree) := do
  if ← mark? "->" then
    let found ← g.type allowPlus
    return some found
  else return none

def returnsBrace (output : Option TypeTree) : Bool :=
  (output.map TypeTree.endsInBrace).getD false

/-- One argument: a lifetime, a constant, a type, or a name that is given a type, a constant or
bounds. -/
def genericArgument (g : Knot) : Parser Unit := do
  if ← sees fun ts => isLifetime ts && !isMark "+" (second ts) then
    advance 1
  else if ← sees fun ts => isLiteral ts || isGroup .brace ts then
    constArgument g
  else
    let type ← g.type true
    let named := match type with
      | .path _ false names => !names.leadingColons && names.segments.length == 1
      | _ => false
    if named then
      if ← mark? "=" then
        if ← sees fun ts => isLiteral ts || isGroup .brace ts then constArgument g
        else
          let _ ← g.type true
      else if ← mark? ":" then
        boundsUpTo g fun ts => isMark "," ts || isMark ">" ts

def angleArguments (g : Knot) : Parser GenericArguments := do
  let pos ← here
  let _ ← mark? "::"
  let _ ← mark "<"
  let args ← enclosed "," (isMark ">") (genericArgument g)
  let _ ← mark ">"
  return { pos, isEmpty := args.isEmpty }

def segment (g : Knot) (inExpr : Bool) : Parser Segment := do
  if ← sees (isWordOf ["super", "self", "crate", "try"]) then
    let i ← ident
    return ⟨i, none⟩
  else
    let i ← nameOr ["Self"]
    let hasArguments ← sees fun ts =>
      (!inExpr && isMark "<" ts && !isMark "<=" ts && !isMark "<<=" ts) ||
        (isMark "::" ts && isMark "<" (third ts))
    if hasArguments then
      let arguments ← angleArguments g
      return ⟨i, some arguments⟩
    else return ⟨i, none⟩

def moreSegments (g : Knot) (inExpr : Bool) : Nat → Parser (List Segment)
  | 0 => return []
  | fuel + 1 => do
    if ← sees fun ts => isMark "::" ts && !isGroup .paren (third ts) then
      let _ ← mark "::"
      let first ← segment g inExpr
      return first :: (← moreSegments g inExpr fuel)
    else return []

def path (g : Knot) (inExpr : Bool) : Parser NamePath := do
  let pos ← here
  let leadingColons ← mark? "::"
  let first ← segment g inExpr
  let others ← looped (moreSegments g inExpr)
  return { pos, leadingColons, segments := first :: others }

/-- A path that may be qualified, as in `<T as Trait>::Name`. The names of a qualified path are
those of the trait and what follows. -/
def qualifiedPath (g : Knot) (inExpr : Bool) : Parser (Bool × NamePath) := do
  if ← mark? "<" then
    let _ ← g.type true
    let ofTrait ← if ← word? "as" then some <$> path g false else pure none
    let _ ← mark ">"
    let colons ← mark "::"
    let first ← segment g inExpr
    let rest := first :: (← looped loop)
    match ofTrait with
    | some names => return (true, { names with segments := names.segments ++ rest })
    | none => return (true, { pos := colons, leadingColons := true, segments := rest })
  else
    return (false, ← path g inExpr)
where
  /-- Further segments; nothing stops them but the lack of colons. -/
  loop : Nat → Parser (List Segment)
    | 0 => return []
    | fuel + 1 => do
      if ← mark? "::" then
        let first ← segment g inExpr
        return first :: (← loop fuel)
      else return []

/-! ## Bounds -/

/-- The word `const` before a bound, alone or in brackets, if it follows. -/
def constModifier? (allowConst : Bool) : Parser Bool := do
  let pos ← here
  let found ← if ← sees (isGroup .bracket) then
      let _ ← inGroup .bracket (word "const")
      pure true
    else word? "const"
  if found && !allowConst then throw pos else return found

/-- A path with parenthesized or angle-bracketed arguments, after a binder and modifiers. A relaxed
bound has no binder, which shows only behind it. Tells whether the word `const` stands there, and
whether what an arrow leads to ends in a brace. -/
def traitBound (g : Knot) (allowConst : Bool) : Parser (Bool × Bool) := do
  let outer ← binder? g
  let isConst ← constModifier? allowConst
  let place ← here
  let relaxed ← mark? "?"
  let inner ← if relaxed && !outer then binder? g else pure false
  let found ← path g false
  let bare := found.segments.getLast?.all fun last => last.arguments.all (·.isEmpty)
  let called ← sees fun ts => isGroup .paren ts || (isMark "::" ts && isGroup .paren (third ts))
  let output ← if bare && called then
      let _ ← mark? "::"
      let _ ← inGroup .paren (separated (g.type true))
      returnedType g false
    else pure none
  if relaxed && (outer || inner) then throw place
  return (isConst, returnsBrace output)

def captured : Parser Unit := do
  let _ ← word "use"
  let _ ← mark "<"
  let _ ← enclosed "," (isMark ">") do
    if ← sees isLifetime then advance 1 else
      let _ ← nameOr ["Self"]
  let _ ← mark ">"

def typeBound (g : Knot) (allowCapture allowConst : Bool) : Parser Bound := do
  if ← lifetime? then return { isTrait := false, endsInBrace := false }
  else if ← sees (isWord "use") then
    let pos ← here
    captured
    if allowCapture then return { isTrait := false, endsInBrace := false } else throw pos
  else
    let start ← ahead
    let (isConst, returnsBrace) ←
      if isGroup .paren start then
        let (_, _, found) ← inGroup .paren (traitBound g allowConst)
        pure found
      else traitBound g allowConst
    let stop ← ahead
    let atBrace := if isConst then endsInBrace start stop else returnsBrace
    return { isTrait := true, endsInBrace := atBrace }

def startsBound (allowConst : Bool) (tokens : List Token) : Bool :=
  isIdent tokens || isMark "::" tokens || isMark "?" tokens || isLifetime tokens ||
    isGroup .paren tokens || (allowConst && isGroup .bracket tokens)

/-- Bounds with plus signs between them; tells whether one is a trait, and how the last one ends. -/
def sumOfBounds (g : Knot) (allowPlus allowCapture allowConst : Bool) : Parser Bound :=
  looped loop
where
  loop : Nat → Parser Bound
    | 0 => refuse
    | fuel + 1 => do
      let first ← typeBound g allowCapture allowConst
      if ← sees fun ts => allowPlus && isMark "+" ts then
        let _ ← mark "+"
        if ← sees (startsBound allowConst) then
          let others ← loop fuel
          return { others with isTrait := first.isTrait || others.isTrait }
        else return first
      else return first

/-! ## Types -/

/-- The receiver of a function type; tells whether it has no type of its own. -/
def typeReceiver? : Parser (Option Bool) := do
  let isMutable ← sees fun ts => isWord "mut" ts && isWord "self" (second ts)
  if isMutable then advance 1
  let isTyped ← sees fun ts =>
    isWord "self" ts && isMark ":" (second ts) && !isMark "::" (second ts)
  if isTyped then
    advance 2
    return some false
  else if isMutable then
    advance 1
    return some true
  else return none

/-- One argument of a function type, which may have a name. The first one may be a receiver. -/
def typeArgument (g : Knot) (isFirst : Bool) : Parser Unit := do
  let receiver ← if isFirst then typeReceiver? else pure none
  if receiver = some true then return
  if receiver.isNone then
    let isNamed ← sees fun ts =>
      (isName ts || isWord "_" ts) && isMark ":" (second ts) && !isMark "::" (second ts)
    if isNamed then advance 2
    if isFirst && (← sees fun ts => isWord "mut" ts && isWord "self" (second ts)) then
      advance 2
      return
  let _ ← g.type true

def startsVariadic (tokens : List Token) : Bool :=
  isMark "..." tokens ||
    ((isName tokens || isWord "_" tokens) && isMark ":" (second tokens) &&
      isMark "..." (third tokens))

/-- The arguments of a function type. Nothing is read behind the dots but a comma. -/
def typeArguments (g : Knot) : Parser Unit :=
  looped (loop true)
where
  loop (isFirst : Bool) : Nat → Parser Unit
    | 0 => return ()
    | fuel + 1 => do
      if ← atEnd then return ()
      let _ ← outerAttributes g
      if ← sees startsVariadic then
        if !(← mark? "...") then
          advance 2
          let _ ← mark "..."
        let _ ← mark? ","
        return ()
      typeArgument g isFirst
      if ← atEnd then return ()
      let _ ← mark ","
      loop false fuel

/-- A function type, from its qualifiers on; tells whether it ends in a brace. -/
def functionType (g : Knot) : Parser Bool := do
  let _ ← word? "unsafe"
  if ← word? "extern" then
    if ← sees isText then advance 1
  let _ ← word "fn"
  let args ← openGroup .paren (typeArguments g)
  let output ← returnedType g false
  closeGroup args
  return returnsBrace output

/-- What follows the first bound of a sum; the last plus sign may stand alone. Tells how the last
bound ends. -/
def restOfSum (g : Knot) : Parser Bool :=
  looped (loop false)
where
  loop (last : Bool) : Nat → Parser Bool
    | 0 => return last
    | fuel + 1 => do
      if ← mark? "+" then
        if ← sees (startsBound false) then
          let found ← typeBound g false false
          loop found.endsInBrace fuel
        else return last
      else return last

/-- What follows the first bound of a sum that starts with a parenthesis: a bound after each plus
sign. Tells how the last one ends. -/
def restOfStrictSum (g : Knot) (first : Bool) : Parser Bool :=
  looped (loop first)
where
  loop (last : Bool) : Nat → Parser Bool
    | 0 => return last
    | fuel + 1 => do
      if ← mark? "+" then
        let found ← typeBound g false false
        loop found.endsInBrace fuel
      else return last

inductive Parenthesized where
  | list
  | relaxed (endsInBrace : Bool)
  | single (type : TypeTree)

def parenthesizedContent (g : Knot) : Parser Parenthesized := do
  if ← atEnd then return .list
  else if ← sees isLifetime then
    let _ ← g.type true
    return .list
  else if ← sees (isMark "?") then
    let (_, endsInBrace) ← traitBound g false
    return .relaxed endsInBrace
  else
    let first ← g.type true
    if ← mark? "," then
      let _ ← separated (g.type true)
      return .list
    else return .single first

/-- A type in parentheses, a tuple, or a sum of bounds that starts with a parenthesis. What is left
over in the parentheses counts after the other bounds. -/
def parenthesizedType (g : Knot) (allowPlus : Bool) : Parser TypeTree := do
  let pos ← here
  let group ← openGroup .paren (parenthesizedContent g)
  let tree ← match group.found with
    | .list => pure (.unusable pos)
    | .relaxed first =>
      let isSum ← sees (isMark "+")
      let endsInBrace ← restOfStrictSum g first
      pure (.other pos { isBound := !isSum, endsInBrace })
    | .single first =>
      if allowPlus && first.canBeBound && (← sees (isMark "+")) then
        let endsInBrace ← restOfStrictSum g false
        pure (.endingIn pos endsInBrace)
      else pure (.paren pos first)
  closeGroup group
  return tree

def pathType (g : Knot) (pos : Position) (quantified allowPlus : Bool) : Parser TypeTree := do
  let (qualified, names) ← qualifiedPath g false
  if qualified then return .path pos true names
  else if names.isPlain && (← sees fun ts => isMark "!" ts && !isMark "!=" ts) then
    let _ ← mark "!"
    let delimiter ← anyGroup
    return .endingIn pos (delimiter = .brace)
  else
    let isSum ← if allowPlus then sees (isMark "+") else pure false
    if isSum then
      let endsInBrace ← restOfSum g
      return .endingIn pos endsInBrace
    else if quantified then return .other pos { isBound := true, endsInBrace := false }
    else return .path pos false names

def builtin : Parser Unit := do
  advance 2
  let _ ← name
  let _ ← inGroup .paren (repeated (advance 1))

def startsBuiltin (tokens : List Token) : Bool :=
  isWord "builtin" tokens && isMark "#" (second tokens)

def objectType (g : Knot) (pos : Position) (allowPlus : Bool) : Parser TypeTree := do
  let start ← ahead
  let _ ← word "dyn"
  let starred ← mark? "*"
  let found ← sumOfBounds g allowPlus false false
  if !found.isTrait then throw pos
  let stop ← ahead
  return .endingIn pos (if starred then endsInBrace start stop else found.endsInBrace)

/-- A type. Only where `allowPlus` holds can it be a sum of bounds. -/
def typeTree (g : Knot) (allowPlus : Bool) : Parser TypeTree := do
  let pos ← here
  let quantified ← binder? g
  if quantified then
    if ← sees fun ts => !(isName ts || isWordOf (pathWords ++ ["fn", "unsafe", "extern"]) ts) then
      refuse
  if ← sees (isGroup .paren) then parenthesizedType g allowPlus
  else if ← sees (isWordOf ["fn", "unsafe", "extern"]) then
    let endsInBrace ← functionType g
    return .endingIn pos endsInBrace
  else if ← sees startsBuiltin then
    builtin
    return .unusable pos
  else if ← sees fun ts => isPath ts || isMark "<" ts then pathType g pos quantified allowPlus
  else if ← sees (isWord "dyn") then objectType g pos allowPlus
  else if ← sees (isGroup .bracket) then
    let _ ← inGroup .bracket do
      let _ ← g.type true
      if ← mark? ";" then
        let _ ← g.expr true
    return .unusable pos
  else if ← sees (isMark "*") then
    let _ ← mark "*"
    if ← sees (isWordOf ["const", "mut"]) then advance 1 else refuse
    let target ← g.type false
    return .endingIn pos target.endsInBrace
  else if ← sees (isMark "&") then
    let _ ← mark "&"
    let _ ← lifetime?
    let _ ← word? "mut"
    let target ← g.type false
    return .endingIn pos target.endsInBrace
  else if ← mark? "!" then return .unusable pos
  else if ← word? "impl" then
    let found ← sumOfBounds g allowPlus true true
    if found.isTrait then return .endingIn pos found.endsInBrace else throw pos
  else if ← word? "_" then return .unusable pos
  else if ← sees isLifetime then
    let found ← sumOfBounds g true false false
    if found.isTrait then return .endingIn pos found.endsInBrace else throw pos
  else refuse

/-! ## Where clauses -/

def stopsPredicate (tokens : List Token) : Bool :=
  tokens.isEmpty || isGroup .brace tokens || isMark "," tokens || isMark ";" tokens ||
    (isMark ":" tokens && !isMark "::" tokens) || isMark "=" tokens

def predicate (g : Knot) : Parser Unit := do
  if ← sees fun ts => isLifetime ts && isMark ":" (second ts) then
    lifetime
    let _ ← mark ":"
    let _ ← joined "+" stopsPredicate lifetime
  else
    let _ ← binder? g
    let _ ← g.type true
    let _ ← mark ":"
    boundsUpTo g stopsPredicate

/-- A where clause, if one follows; tells whether it does. Generic parameters cannot stand behind
its keyword. -/
def whereClause (g : Knot) : Parser Bool := do
  if ← word? "where" then
    if ← sees startsGenerics then refuse
    let _ ← joined "," stopsPredicate (predicate g)
    return true
  else return false

end UnitForge.Source.Grammar
