import UnitForge.Text.Split
import UnitForge.Source.Quotation

/-! # From text to tokens

A text is cut into tokens from front to back; comments and blanks separate tokens, and a
documentation comment stands for the attribute that it abbreviates. Delimiters are matched on the
way. The first place where this fails is the fault of the whole text: a character that starts no
token, a closing delimiter that does not match, or the innermost delimiter that is never closed. -/
set_option autoImplicit false
namespace UnitForge.Source

def locate (line column : Nat) : List Char → List Located
  | [] => []
  | c :: rest =>
    (c, ⟨line, column⟩) ::
      (if c = '\n' then locate (line + 1) 1 rest else locate line (column + 1) rest)

namespace Scan

/-! ## Blanks and comments -/

/-- Direction marks count as blanks, like `White_Space`. -/
def isBlank (c : Char) : Bool :=
  Text.isBlank c || c.toNat = 0x200E || c.toNat = 0x200F

/-- The end of a line, and its characters. The carriage return before a line feed is part of
neither. -/
def line : List Located → List Char × List Located
  | [] => ([], [])
  | ('\n', pos) :: rest => ([], ('\n', pos) :: rest)
  | ('\r', _) :: ('\n', pos) :: rest => ([], ('\n', pos) :: rest)
  | (c, _) :: rest =>
    let (cs, stop) := line rest
    (c :: cs, stop)

def afterBlock? : Nat → List Located → Option (List Located)
  | _, [] => none
  | depth, ('/', _) :: ('*', _) :: rest => afterBlock? (depth + 1) rest
  | depth, ('*', _) :: ('/', _) :: rest =>
    if depth ≤ 1 then some rest else afterBlock? (depth - 1) rest
  | depth, _ :: rest => afterBlock? depth rest

inductive Slash where
  | lineComment
  | emptyBlock
  | blockComment
  | innerLineDoc
  | outerLineDoc
  | innerBlockDoc
  | outerBlockDoc
  | none
  deriving DecidableEq

def slash : List Located → Slash
  | ('/', _) :: ('/', _) :: ('/', _) :: ('/', _) :: _ => .lineComment
  | ('/', _) :: ('/', _) :: ('/', _) :: _ => .outerLineDoc
  | ('/', _) :: ('/', _) :: ('!', _) :: _ => .innerLineDoc
  | ('/', _) :: ('/', _) :: _ => .lineComment
  | ('/', _) :: ('*', _) :: ('*', _) :: ('/', _) :: _ => .emptyBlock
  | ('/', _) :: ('*', _) :: ('*', _) :: ('*', _) :: _ => .blockComment
  | ('/', _) :: ('*', _) :: ('*', _) :: _ => .outerBlockDoc
  | ('/', _) :: ('*', _) :: ('!', _) :: _ => .innerBlockDoc
  | ('/', _) :: ('*', _) :: _ => .blockComment
  | _ => .none

/-- Skips blanks and plain comments. Every step reads a character at least. -/
def skip : Nat → List Located → List Located
  | 0, input => input
  | fuel + 1, input =>
    match slash input with
    | .lineComment => skip fuel (line input).2
    | .emptyBlock => skip fuel (input.drop 4)
    | .blockComment =>
      match afterBlock? 0 input with
      | some rest => skip fuel rest
      | none => input
    | _ =>
      match input with
      | (c, _) :: rest => if isBlank c then skip fuel rest else input
      | [] => []

def noBareReturn : List Char → Bool
  | [] => true
  | '\r' :: '\n' :: rest => noBareReturn rest
  | '\r' :: _ => false
  | _ :: rest => noBareReturn rest

/-- The documentation comment that starts here: whether it is an inner one, its text, and what
follows it. -/
def docComment? (input : List Located) : Option (Bool × String × List Located) :=
  let found (inner : Bool) (cs : List Char) (rest : List Located) :=
    if noBareReturn cs then some (inner, String.ofList cs, rest) else none
  let block (inner : Bool) :=
    match afterBlock? 0 input with
    | some rest =>
      let written := Numeral.between input rest
      found inner ((written.drop 3).take (written.length - 5)) rest
    | none => none
  match slash input with
  | .innerLineDoc => let (cs, rest) := line (input.drop 3); found true cs rest
  | .outerLineDoc => let (cs, rest) := line (input.drop 3); found false cs rest
  | .innerBlockDoc => block true
  | .outerBlockDoc => block false
  | _ => none

/-! ## Single tokens -/

def isMark (c : Char) : Bool :=
  "~!@#$%^&*-=+|;:,<.>/?".toList.contains c

/-- Whether a punctuation mark starts here; the slash of a comment is none. -/
def startsMark (input : List Located) : Bool :=
  match input with
  | (c, _) :: _ => (isMark c || c = '\'') && slash input = .none
  | [] => false

abbrev Identifier := { name : String // Text.isIdentifier name = true }

def goesOn (l : Located) : Bool :=
  Text.isIdentifierContinue l.1

theorem isIdentifier_run {c : Char} (starts : Text.isIdentifierStart c = true)
    (rest : List Located) :
    Text.isIdentifier (String.ofList (c :: (rest.takeWhile goesOn).map (·.1))) = true := by
  refine Text.isIdentifier_ofList starts fun d member => ?_
  obtain ⟨l, taken, rfl⟩ := List.mem_map.mp member
  exact List.all_eq_true.mp List.all_takeWhile l taken

def plainName? : List Located → Option (Identifier × List Located)
  | [] => none
  | (c, _) :: rest =>
    if starts : Text.isIdentifierStart c = true then
      let name := String.ofList (c :: (rest.takeWhile goesOn).map (·.1))
      some (⟨name, isIdentifier_run starts rest⟩, rest.dropWhile goesOn)
    else none

def neverRaw : List String := ["_", "super", "self", "Self", "crate"]

def name? : List Located → Option (Identifier × Bool × List Located)
  | ('r', _) :: ('#', _) :: rest =>
    match plainName? rest with
    | some (name, rest) => if neverRaw.contains name.1 then none else some (name, true, rest)
    | none => none
  | input => (plainName? input).map fun (name, rest) => (name, false, rest)

def startsQuoted : List Located → Bool
  | ('r', _) :: ('"', _) :: _ => true
  | ('r', _) :: ('#', _) :: ('"', _) :: _ => true
  | ('r', _) :: ('#', _) :: ('#', _) :: _ => true
  | ('b', _) :: ('"', _) :: _ => true
  | ('b', _) :: ('\'', _) :: _ => true
  | ('b', _) :: ('r', _) :: ('"', _) :: _ => true
  | ('b', _) :: ('r', _) :: ('#', _) :: _ => true
  | ('c', _) :: ('"', _) :: _ => true
  | ('c', _) :: ('r', _) :: ('"', _) :: _ => true
  | ('c', _) :: ('r', _) :: ('#', _) :: _ => true
  | _ => false

/-- The token of a quote mark that starts no character; `rest` is what stands behind it. A name has
to follow, without a second quote mark, and without a hash mark behind a plain name. It makes a
lifetime of the quote mark, unless a quoted literal starts where it does. -/
def lifetime? (pos : Position) (rest : List Located) : Option (Token × List Located) :=
  match name? rest with
  | some (name, raw, stop) =>
    let found :=
      if startsQuoted rest then (Token.punct '\'' true pos, rest) else (.lifetime name.1 pos, stop)
    match stop with
    | ('\'', _) :: _ => none
    | ('#', _) :: _ => if raw then some found else none
    | _ => some found
  | none => none

def unreadable : List Char := "(/*ERROR*/)".toList

def startsUnreadable (input : List Located) : Bool :=
  (input.take unreadable.length).map (·.1) = unreadable

/-- The token that starts here, which is no delimiter. -/
def leaf? (input : List Located) : Option (Token × List Located) :=
  match input with
  | [] => none
  | (c, pos) :: rest =>
    match (Quotation.read? input).orElse fun _ => Numeral.read? input with
    | some (value, rest) => some (.literal value pos, rest)
    | none =>
      if startsUnreadable input then
        some (.literal .other pos, input.drop unreadable.length)
      else if c = '\'' then lifetime? pos rest
      else if startsMark input then some (.punct c (startsMark rest) pos, rest)
      else if startsQuoted input then none
      else (name? input).map fun (name, raw, rest) => (.ident ⟨name, raw, pos, name.2⟩, rest)

/-! ## Groups -/

def opening? (c : Char) : Option Delimiter :=
  if c = '(' then some .paren else if c = '[' then some .bracket
  else if c = '\x7b' then some .brace else none

def closing? (c : Char) : Option Delimiter :=
  if c = ')' then some .paren else if c = ']' then some .bracket
  else if c = '\x7d' then some .brace else none

/-- A group that is still open: its delimiter, where it was opened, and the tokens before it, the
last one first. -/
structure OpenGroup where
  delimiter : Delimiter
  pos : Position
  before : List Token

/-- The attribute that a documentation comment stands for, the last token first. -/
def docAttribute (inner : Bool) (text : String) (pos : Position) : List Token :=
  let content : List Token :=
    [.ident ⟨"doc", false, pos, by decide⟩, .punct '=' false pos, .literal (.str text) pos]
  let group : Token := .group .bracket pos pos content
  if inner then [group, .punct '!' false pos, .punct '#' false pos]
  else [group, .punct '#' false pos]

/-- The tokens of a text, or the place of its fault. `stack` holds the open groups, the innermost
first, and `done` the tokens since the last opening, the last one first. Every step reads a
character at least, so the fuel never falls behind the characters that are left. -/
def tokens (fuel : Nat) (stack : List OpenGroup) (done : List Token) (input : List Located) :
    Except Position (List Token) :=
  match fuel with
  | 0 => .ok done.reverse
  | fuel + 1 =>
    let input := skip (fuel + 1) input
    match docComment? input, input with
    | some (inner, text, rest), (_, pos) :: _ =>
      tokens fuel stack (docAttribute inner text pos ++ done) rest
    | _, [] =>
      match stack with
      | [] => .ok done.reverse
      | innermost :: _ => .error innermost.pos
    | _, (c, pos) :: rest =>
      let opening := if startsUnreadable ((c, pos) :: rest) then none else opening? c
      match opening, closing? c with
      | some delimiter, _ => tokens fuel (⟨delimiter, pos, done⟩ :: stack) [] rest
      | none, some delimiter =>
        match stack with
        | [] => .error pos
        | innermost :: outer =>
          if innermost.delimiter = delimiter then
            let group := Token.group delimiter innermost.pos pos done.reverse
            tokens fuel outer (group :: innermost.before) rest
          else .error pos
      | none, none =>
        match leaf? ((c, pos) :: rest) with
        | some (token, rest) => tokens fuel stack (token :: done) rest
        | none => .error pos

end Scan

/-! ## Whole texts -/

def afterMark : List Located → List Located
  | (c, pos) :: rest => if c.toNat = 0xFEFF then rest else (c, pos) :: rest
  | [] => []

/-- What remains of a text after a first line that names an interpreter. A line that starts an
inner attribute is none. -/
def afterInterpreter (input : List Located) : List Located :=
  match input with
  | ('#', _) :: ('!', _) :: rest =>
    match Scan.skip (rest.length + 1) rest with
    | ('[', _) :: _ => input
    | _ => input.dropWhile (·.1 ≠ '\n')
  | _ => input

def tokenize (text : String) : Except Position (List Token) :=
  let content := match text.toList with
    | c :: rest => if c.toNat = 0xFEFF then rest else c :: rest
    | [] => []
  let input := afterMark (afterInterpreter (locate 1 1 content))
  Scan.tokens (input.length + 1) [] [] input

end UnitForge.Source
