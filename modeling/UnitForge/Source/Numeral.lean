import UnitForge.Text.Identifier
import UnitForge.Source.Token

/-! # Numeric literals

The extent of a number in a text, and the value of what is written there. A number is a float if it
has a point that no name and no second point follows, or an exponent with a digit; any name that
follows at once is its suffix. -/
set_option autoImplicit false
namespace UnitForge.Source

abbrev Located := Char × Position

namespace Numeral

def isDigit (c : Char) : Bool := '0' ≤ c && c ≤ '9'

def digitValue? (c : Char) : Option Nat :=
  if isDigit c then some (c.toNat - '0'.toNat)
  else if 'a' ≤ c ∧ c ≤ 'f' then some (c.toNat - 'a'.toNat + 10)
  else if 'A' ≤ c ∧ c ≤ 'F' then some (c.toNat - 'A'.toNat + 10)
  else none

def skipName : List Located → List Located
  | [] => []
  | (c, pos) :: rest =>
    if Text.isIdentifierStart c then rest.dropWhile fun l => Text.isIdentifierContinue l.1
    else (c, pos) :: rest

def endsHere : List Located → Bool
  | [] => true
  | (c, _) :: _ => !Text.isIdentifierContinue c

/-- Where the digits before an exponent end: whether there was a point, what stands from the mark
of the exponent on, and what stands behind the mark. -/
structure Significand where
  point : Bool
  rest : List Located
  exponent : Option (List Located)

/-- Reads the digits of a float up to its exponent; none if the point belongs to something else. -/
def significand? (point : Bool) : List Located → Option Significand
  | [] => some ⟨point, [], none⟩
  | (c, pos) :: rest =>
    if isDigit c || c = '_' then significand? point rest
    else if c = '.' then
      if point then some ⟨point, (c, pos) :: rest, none⟩
      else match rest with
        | [] => significand? true rest
        | (next, _) :: _ =>
          if next = '.' || Text.isIdentifierStart next then none else significand? true rest
    else if c = 'e' || c = 'E' then some ⟨point, (c, pos) :: rest, some rest⟩
    else some ⟨point, (c, pos) :: rest, none⟩

/-- What follows the digits of an exponent; none if it has no digit or a second sign. -/
def afterExponent? (sign digits : Bool) : List Located → Option (List Located)
  | [] => if digits then some [] else none
  | (c, pos) :: rest =>
    if c = '+' || c = '-' then
      if digits then some ((c, pos) :: rest)
      else if sign then none
      else afterExponent? true digits rest
    else if isDigit c then afterExponent? sign true rest
    else if c = '_' then afterExponent? sign digits rest
    else if digits then some ((c, pos) :: rest) else none

def floatEnd? : List Located → Option (List Located)
  | [] => none
  | (c, _) :: rest =>
    if !isDigit c then none
    else match significand? false rest with
      | none => none
      | some ⟨point, stop, none⟩ => if point then some stop else none
      | some ⟨point, stop, some exponent⟩ =>
        match afterExponent? false false exponent with
        | some stop => some stop
        | none => if point then some stop else none

def base : List Located → Nat × List Located
  | ('0', _) :: ('x', _) :: rest => (16, rest)
  | ('0', _) :: ('o', _) :: rest => (8, rest)
  | ('0', _) :: ('b', _) :: rest => (2, rest)
  | input => (10, input)

/-- The value of the digits that start here, and what follows them; none if there is no digit or
one that the base lacks. -/
def digits? (base : Nat) (some? : Bool) (value : Nat) : List Located → Option (Nat × List Located)
  | [] => if some? then some (value, []) else none
  | (c, pos) :: rest =>
    if c = '_' then
      if !some? && base = 10 then none else digits? base some? value rest
    else match digitValue? c with
      | some d =>
        if d < base then digits? base true (value * base + d) rest
        else if isDigit c then none
        else if some? then some (value, (c, pos) :: rest) else none
      | none => if some? then some (value, (c, pos) :: rest) else none

def between (start stop : List Located) : List Char :=
  (start.take (start.length - stop.length)).map (·.1)

def floatDigits (written : List Char) : String :=
  let digits := written.filter fun c => c ≠ '_' && c ≠ '+'
  String.ofList (digits.map fun c => if c = 'E' then 'e' else c)

def read? (input : List Located) : Option (Literal × List Located) :=
  let float := (floatEnd? input).bind fun stop =>
    let rest := skipName stop
    if endsHere rest then
      let suffix := String.ofList (between stop rest)
      some (Literal.float (floatDigits (between input stop)) suffix, rest)
    else none
  match float with
  | some found => some found
  | none =>
    let (base, start) := base input
    match start with
    | [] => none
    | (c, _) :: _ =>
      if base = 10 && !isDigit c then none
      else match digits? base false 0 start with
        | none => none
        | some (value, stop) =>
          let rest := skipName stop
          if endsHere rest then
            some (Literal.int value (String.ofList (between stop rest)), rest)
          else none

end Numeral

end UnitForge.Source
