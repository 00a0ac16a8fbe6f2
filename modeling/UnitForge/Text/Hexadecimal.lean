/-! # Hexadecimal texts

Numbers and bytes in lower-case hexadecimal digits. -/
set_option autoImplicit false
namespace UnitForge.Text

def hexadecimal (n : Nat) : String :=
  String.ofList (Nat.toDigits 16 n)

def paddedHexadecimal (width n : Nat) : String :=
  let digits := Nat.toDigits 16 n
  String.ofList (List.replicate (width - digits.length) '0' ++ digits)

def hexOfBytes (bytes : List UInt8) : String :=
  String.join (bytes.map fun b => paddedHexadecimal 2 b.toNat)

def hexDigit? (c : Char) : Option Nat :=
  if '0' ≤ c ∧ c ≤ '9' then some (c.toNat - '0'.toNat)
  else if 'a' ≤ c ∧ c ≤ 'f' then some (c.toNat - 'a'.toNat + 10)
  else none

def natOfHex? (s : String) : Option Nat :=
  s.toList.foldlM (fun n c => (hexDigit? c).map (16 * n + ·)) 0

def bytesOfHex? (s : String) : Option (List UInt8) :=
  pairs s.toList
where
  pairs : List Char → Option (List UInt8)
    | [] => some []
    | [_] => none
    | a :: b :: rest => do
      let high ← hexDigit? a
      let low ← hexDigit? b
      return (16 * high + low).toUInt8 :: (← pairs rest)

end UnitForge.Text
