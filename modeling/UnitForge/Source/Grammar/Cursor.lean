import UnitForge.Source.Tree

/-! # Reading tokens

A parser reads tokens from the front and either gives a tree or the place of the first token that
cannot go on. Past the last token of a group that place is its closing delimiter. Tokens that are
left over in a group are no fault at once: the first of them counts only if nothing else fails. -/
set_option autoImplicit false
namespace UnitForge.Source.Grammar

/-- What is left to be read, where its end is reported, and the first token left over so far. -/
structure Cursor where
  rest : List Token
  closing : Position
  leftover : Option Position

abbrev Parser (α : Type) := StateT Cursor (Except Position) α

/-! ## Looking ahead -/

def startsWith : List Char → List Token → Bool
  | [], _ => true
  | [mark], .punct c _ _ :: _ => c = mark
  | mark :: marks, .punct c joint _ :: rest => c = mark && joint && startsWith marks rest
  | _, _ => false

def isMark (marks : String) (tokens : List Token) : Bool :=
  startsWith marks.toList tokens

def isWord (word : String) : List Token → Bool
  | .ident i :: _ => i.is word
  | _ => false

def isWordOf (words : List String) (tokens : List Token) : Bool :=
  words.any (isWord · tokens)

def isName : List Token → Bool
  | .ident i :: _ => i.isName
  | _ => false

def isIdent : List Token → Bool
  | .ident _ :: _ => true
  | _ => false

def isLifetime : List Token → Bool
  | .lifetime .. :: _ => true
  | _ => false

def isGroup (delimiter : Delimiter) : List Token → Bool
  | .group d _ _ _ :: _ => d = delimiter
  | _ => false

def isAnyGroup : List Token → Bool
  | .group .. :: _ => true
  | _ => false

/-- Whether a literal follows; a number may have a minus sign. -/
def isLiteral : List Token → Bool
  | .literal .. :: _ => true
  | .ident i :: _ => i.is "true" || i.is "false"
  | .punct '-' _ _ :: .literal (.int ..) _ :: _ => true
  | .punct '-' _ _ :: .literal (.float ..) _ :: _ => true
  | _ => false

def isText : List Token → Bool
  | .literal (.str _) _ :: _ => true
  | _ => false

def pathWords : List String := ["self", "Self", "super", "crate"]

def isPath (tokens : List Token) : Bool :=
  isName tokens || isWordOf pathWords tokens || isMark "::" tokens

def second (tokens : List Token) : List Token := tokens.drop 1

def third (tokens : List Token) : List Token := tokens.drop 2

/-! ## Single steps -/

def ahead : Parser (List Token) := do
  return (← get).rest

def sees (property : List Token → Bool) : Parser Bool := do
  return property (← ahead)

def here : Parser Position := do
  let cursor ← get
  match cursor.rest with
  | token :: _ => return token.pos
  | [] => return cursor.closing

def refuse {α : Type} : Parser α := do
  throw (← here)

def atEnd : Parser Bool := sees List.isEmpty

def advance (count : Nat) : Parser Unit :=
  modify fun cursor => { cursor with rest := cursor.rest.drop count }

/-- Punctuation marks; gives their place. -/
def mark (marks : String) : Parser Position := do
  if ← sees (isMark marks) then
    let pos ← here
    advance marks.length
    return pos
  else refuse

def mark? (marks : String) : Parser Bool := do
  if ← sees (isMark marks) then
    advance marks.length
    return true
  else return false

def word (name : String) : Parser Position := do
  if ← sees (isWord name) then
    let pos ← here
    advance 1
    return pos
  else refuse

def word? (name : String) : Parser Bool := do
  if ← sees (isWord name) then
    advance 1
    return true
  else return false

def ident : Parser Ident := do
  match ← ahead with
  | .ident i :: _ =>
    advance 1
    return i
  | _ => refuse

def name : Parser Ident := do
  if ← sees isName then ident else refuse

def nameOr (words : List String) : Parser Ident := do
  if ← sees fun ts => isName ts || isWordOf words ts then ident else refuse

def lifetime : Parser Unit := do
  if ← sees isLifetime then advance 1 else refuse

def lifetime? : Parser Bool := do
  if ← sees isLifetime then
    advance 1
    return true
  else return false

def anyGroup : Parser Delimiter := do
  match ← ahead with
  | .group d _ _ _ :: _ =>
    advance 1
    return d
  | _ => refuse

/-- What is known about a group whose content has been read: the places of both delimiters, what was
found, and where the first token stands that is left over. -/
structure ReadGroup (α : Type) where
  opening : Position
  closing : Position
  found : α
  remainder : Option Position

/-- A group whose content another parser reads. A token that is left over in it is not counted
yet. -/
def openGroup {α : Type} (delimiter : Delimiter) (content : Parser α) : Parser (ReadGroup α) :=
  fun cursor =>
    match cursor.rest with
    | .group d opening closing inside :: rest =>
      if d = delimiter then
        match content { rest := inside, closing, leftover := cursor.leftover } with
        | .error pos => .error pos
        | .ok (found, after) =>
          let remainder := (after.rest.head?).map Token.pos
          .ok ({ opening, closing, found, remainder },
            { cursor with rest, leftover := after.leftover })
      else .error opening
    | token :: _ => .error token.pos
    | [] => .error cursor.closing

/-- Counts a token that is left over in a group, unless another one was counted before. -/
def closeGroup {α : Type} (group : ReadGroup α) : Parser Unit :=
  modify fun cursor =>
    { cursor with leftover := cursor.leftover.orElse fun _ => group.remainder }

def inGroup {α : Type} (delimiter : Delimiter) (content : Parser α) :
    Parser (Position × Position × α) := do
  let group ← openGroup delimiter content
  closeGroup group
  return (group.opening, group.closing, group.found)

/-- Whether the last token between two places is a group in braces. -/
def endsInBrace (start stop : List Token) : Bool :=
  isGroup .brace ((start.take (start.length - stop.length)).getLast?.toList)

/-- Runs a parser without moving on; tells whether it succeeds and what is left then. -/
def attempt {α : Type} (parser : Parser α) : Parser (Option (α × List Token)) := fun cursor =>
  match parser cursor with
  | .error _ => .ok (none, cursor)
  | .ok (found, after) => .ok (some (found, after.rest), cursor)

/-! ## Repetition

Each round reads a token at least, so a loop never outlasts the tokens that are left. -/

def looped {α : Type} (loop : Nat → Parser α) : Parser α := do
  loop ((← ahead).length + 1)

def separated {α : Type} (parser : Parser α) : Parser (List α) :=
  looped loop
where
  loop : Nat → Parser (List α)
    | 0 => return []
    | fuel + 1 => do
      if ← atEnd then return []
      let first ← parser
      if ← atEnd then return [first]
      let _ ← mark ","
      return first :: (← loop fuel)

def repeated {α : Type} (parser : Parser α) : Parser (List α) :=
  looped loop
where
  loop : Nat → Parser (List α)
    | 0 => return []
    | fuel + 1 => do
      if ← atEnd then return []
      let first ← parser
      return first :: (← loop fuel)

/-- Values with a mark between them, as long as nothing stops it; a mark may come last. -/
def joined {α : Type} (marks : String) (stops : List Token → Bool) (parser : Parser α) :
    Parser (List α) :=
  looped loop
where
  loop : Nat → Parser (List α)
    | 0 => return []
    | fuel + 1 => do
      if ← sees stops then return []
      let first ← parser
      if ← mark? marks then
        return first :: (← loop fuel)
      else return [first]

/-- Values with a mark between them up to something that stops it; a mark may come last. -/
def enclosed {α : Type} (marks : String) (stops : List Token → Bool) (parser : Parser α) :
    Parser (List α) :=
  looped loop
where
  loop : Nat → Parser (List α)
    | 0 => return []
    | fuel + 1 => do
      if ← sees stops then return []
      let first ← parser
      if ← sees stops then return [first]
      let _ ← mark marks
      return first :: (← loop fuel)

def whileSeen (property : List Token → Bool) (parser : Parser Unit) : Parser Unit :=
  looped loop
where
  loop : Nat → Parser Unit
    | 0 => return ()
    | fuel + 1 => do
      if ← sees property then
        parser
        loop fuel
      else return ()

/-! ## The knot -/

/-- What a bound is: whether it is a trait, and whether it ends in the brace of a macro call. -/
structure Bound where
  isTrait : Bool
  endsInBrace : Bool

/-- The parsers of those trees that contain others, as far as a given depth allows it. -/
structure Knot where
  type : Bool → Parser TypeTree
  bound : Bool → Bool → Parser Bound
  expr : Bool → Parser ExprTree
  operand : Bool → Parser ExprTree
  climb : ExprTree → Bool → Nat → Parser ExprTree
  pattern : Parser Pattern
  arm : Parser ExprTree
  statements : Parser (List StmtTree)
  fields : Parser (List FieldTree)
  item : Parser Item
  imports : Bool → Parser (Option UseTree)

def Knot.refusing : Knot where
  type _ := refuse
  bound _ _ := refuse
  expr _ := refuse
  operand _ := refuse
  climb _ _ _ := refuse
  pattern := refuse
  arm := refuse
  statements := refuse
  fields := refuse
  item := refuse
  imports _ := refuse

end UnitForge.Source.Grammar
