import UnitForge.Source.Numeral

/-! # Quoted literals

Texts, byte texts, C texts, bytes and characters: where each ends, and for a text what it says. A
literal that is not closed, or that holds an escape or a character it must not, is none. -/
set_option autoImplicit false
namespace UnitForge.Source.Quotation

/-- What is between quotes: characters, bytes, or the bytes of a C text. -/
inductive Content where
  | text
  | bytes
  | cText
  deriving DecidableEq, Repr

def Content.admits : Content → Char → Bool
  | .text, _ => true
  | .bytes, c => c.toNat < 128
  | .cText, c => c ≠ '\x00'

/-- The number of an escape of two hexadecimal digits: characters end at 127, and a C text has no
zero. -/
def hexEscape? (content : Content) : List Located → Option (Nat × List Located)
  | (a, _) :: (b, _) :: rest =>
    match Numeral.digitValue? a, Numeral.digitValue? b with
    | some x, some y =>
      let n := 16 * x + y
      match content with
      | .text => if n < 128 then some (n, rest) else none
      | .bytes => some (n, rest)
      | .cText => if n ≠ 0 then some (n, rest) else none
    | _, _ => none
  | _ => none

/-- The digits of an escape by number, at most six, up to the closing brace. -/
def unicodeDigits? (value count : Nat) : List Located → Option (Nat × List Located)
  | [] => none
  | (c, _) :: rest =>
    if c = '_' then if count = 0 then none else unicodeDigits? value count rest
    else if c = '\x7d' then if count = 0 then none else some (value, rest)
    else match Numeral.digitValue? c with
      | some d => if count = 6 then none else unicodeDigits? (value * 16 + d) (count + 1) rest
      | none => none

def unicodeEscape? : List Located → Option (Char × List Located)
  | ('\x7b', _) :: rest =>
    match unicodeDigits? 0 0 rest with
    | some (n, rest) =>
      if n < 0xD800 || (0xDFFF < n && n < 0x110000) then some (Char.ofNat n, rest) else none
    | none => none
  | _ => none

def letterEscape? (c : Char) : Option Char :=
  if c = 'n' then some '\n'
  else if c = 'r' then some '\r'
  else if c = 't' then some '\t'
  else if c = '\\' then some '\\'
  else if c = '0' then some '\x00'
  else if c = '\'' then some '\''
  else if c = '"' then some '"'
  else none

/-- Skips the blanks behind a line break that a backslash hides. A carriage return has to be
followed by a line feed, and the text has to go on. -/
def skipHidden? : List Located → Option (List Located)
  | [] => none
  | (c, pos) :: rest =>
    if c = ' ' || c = '\t' || c = '\n' then skipHidden? rest
    else if c = '\r' then
      match rest with
      | ('\n', _) :: rest => skipHidden? rest
      | _ => none
    else some ((c, pos) :: rest)

/-- The characters up to the closing quote, and what follows it. Every step reads a character at
least, so as much fuel as there are characters is enough. -/
def cooked? (content : Content) : Nat → List Located → Option (List Char × List Located)
  | 0, _ => none
  | _, [] => none
  | fuel + 1, (c, pos) :: rest =>
    let goOn (d : Char) (rest : List Located) :=
      (cooked? content fuel rest).map fun (cs, stop) => (d :: cs, stop)
    if c = '"' then some ([], rest)
    else if c = '\r' then
      match rest with
      | ('\n', _) :: rest => goOn '\n' rest
      | _ => none
    else if c = '\\' then
      match rest with
      | [] => none
      | (e, _) :: after =>
        if e = 'x' then (hexEscape? content after).bind fun (n, rest) => goOn (Char.ofNat n) rest
        else if e = 'u' && content ≠ .bytes then
          (unicodeEscape? after).bind fun (d, rest) =>
            if content.admits d then goOn d rest else none
        else if e = '\n' then
          (skipHidden? after).bind fun rest => cooked? content fuel rest
        else if e = '\r' then
          (skipHidden? rest).bind fun rest => cooked? content fuel rest
        else match letterEscape? e with
          | some d => if content.admits d then goOn d after else none
          | none => none
    else if content.admits c then goOn (c, pos).1 rest
    else none

def afterHashes? : Nat → List Located → Option (List Located)
  | 0, rest => some rest
  | count + 1, ('#', _) :: rest => afterHashes? count rest
  | _, _ => none

def raw? (content : Content) (hashes : Nat) : List Located → Option (List Char × List Located)
  | [] => none
  | (c, _) :: rest =>
    let goOn := (raw? content hashes rest).map fun (cs, stop) => (c :: cs, stop)
    if c = '"' then
      match afterHashes? hashes rest with
      | some stop => some ([], stop)
      | none => goOn
    else if c = '\r' then
      match rest with
      | ('\n', _) :: _ => goOn
      | _ => none
    else if content.admits c then goOn
    else none

def rawStart? (count : Nat) : List Located → Option (Nat × List Located)
  | ('#', _) :: rest => rawStart? (count + 1) rest
  | ('"', _) :: rest => if count ≤ 255 then some (count, rest) else none
  | _ => none

def rawText? (content : Content) (input : List Located) : Option (List Char × List Located) :=
  (rawStart? 0 input).bind fun (hashes, rest) => raw? content hashes rest

def cookedText? (content : Content) (input : List Located) : Option (List Char × List Located) :=
  cooked? content (input.length + 1) input

def afterSingle? (content : Content) : List Located → Option (List Located)
  | [] => none
  | (c, _) :: rest =>
    let inside :=
      if c = '\\' then
        match rest with
        | [] => none
        | (e, _) :: after =>
          if e = 'x' then (hexEscape? content after).map (·.2)
          else if e = 'u' && content = .text then (unicodeEscape? after).map (·.2)
          else (letterEscape? e).map fun _ => after
      else if content.admits c then some rest
      else none
    match inside with
    | some (('\'', _) :: stop) => some stop
    | _ => none

def read? (input : List Located) : Option (Literal × List Located) :=
  let other (found : Option (List Char × List Located)) :=
    found.map fun (_, rest) => (Literal.other, Numeral.skipName rest)
  let text (found : Option (List Char × List Located)) :=
    found.map fun (cs, rest) => (Literal.str (String.ofList cs), Numeral.skipName rest)
  match input with
  | ('"', _) :: rest => text (cookedText? .text rest)
  | ('b', _) :: ('"', _) :: rest => other (cookedText? .bytes rest)
  | ('b', _) :: ('r', _) :: rest => other (rawText? .bytes rest)
  | ('c', _) :: ('"', _) :: rest => other (cookedText? .cText rest)
  | ('c', _) :: ('r', _) :: rest => other (rawText? .cText rest)
  | ('b', _) :: ('\'', _) :: rest => other ((afterSingle? .bytes rest).map ([], ·))
  | ('\'', _) :: rest => other ((afterSingle? .text rest).map ([], ·))
  | ('r', _) :: rest => text (rawText? .text rest)
  | _ => none

end UnitForge.Source.Quotation
