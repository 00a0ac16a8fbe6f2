import UnitForge.Diagnostic
import UnitForge.Text.Identifier

/-! # Tokens

The words of a source text: identifiers, punctuation one character at a time, lifetimes, literals
and groups between matching delimiters. Every token knows where it starts. -/
set_option autoImplicit false
namespace UnitForge.Source

/-- An identifier. A raw one is never a keyword. -/
structure Ident where
  name : String
  raw : Bool
  pos : Position
  proper : Text.isIdentifier name = true
  deriving DecidableEq, Repr

namespace Ident

def is (ident : Ident) (name : String) : Bool :=
  !ident.raw && ident.name = name

def written (ident : Ident) : String :=
  if ident.raw then "r#" ++ ident.name else ident.name

def reservedWords : List String := [
  "_", "abstract", "as", "async", "await", "become", "box", "break", "const", "continue", "crate",
  "do", "dyn", "else", "enum", "extern", "false", "final", "fn", "for", "if", "impl", "in", "let",
  "loop", "macro", "match", "mod", "move", "mut", "override", "priv", "pub", "ref", "return",
  "Self", "self", "static", "struct", "super", "trait", "true", "try", "type", "typeof", "unsafe",
  "unsized", "use", "virtual", "where", "while", "yield"]

def isName (ident : Ident) : Bool :=
  ident.raw || !reservedWords.contains ident.name

end Ident

/-- A literal. A number keeps the digits and the suffix that it is written with; literals that no
unit can use are not told apart. -/
inductive Literal where
  | int (value : Nat) (suffix : String)
  | float (digits : String) (suffix : String)
  | bool (value : Bool)
  | str (value : String)
  | other
  deriving DecidableEq, Repr

inductive Delimiter where
  | paren
  | bracket
  | brace
  deriving DecidableEq, Repr

/-- A token, or a group of tokens between delimiters. A punctuation mark is joint if another one
follows at once; the quote mark is one only before a quoted literal. -/
inductive Token where
  | ident (ident : Ident)
  | punct (mark : Char) (joint : Bool) (pos : Position)
  | lifetime (name : String) (pos : Position)
  | literal (value : Literal) (pos : Position)
  | group (delimiter : Delimiter) (opening closing : Position) (content : List Token)
  deriving Repr

namespace Token

def pos : Token → Position
  | ident i => i.pos
  | punct _ _ pos => pos
  | lifetime _ pos => pos
  | literal _ pos => pos
  | group _ opening _ _ => opening

mutual

def size : Token → Nat
  | group _ _ _ content => 1 + sizeOfList content
  | _ => 1

def sizeOfList : List Token → Nat
  | [] => 0
  | first :: rest => size first + sizeOfList rest

end

end Token

end UnitForge.Source
