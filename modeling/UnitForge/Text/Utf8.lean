/-! # UTF-8

Texts as bytes and back. Reading stops at the first byte that cannot belong to a character and
says how many bytes before it are sound and how many bytes are at fault. -/
set_option autoImplicit false
namespace UnitForge.Text

def utf8OfChar (c : Char) : List UInt8 :=
  let n := c.toNat
  if n < 0x80 then [n.toUInt8]
  else if n < 0x800 then [(0xC0 + n / 64).toUInt8, (0x80 + n % 64).toUInt8]
  else if n < 0x10000 then
    [(0xE0 + n / 4096).toUInt8, (0x80 + n / 64 % 64).toUInt8, (0x80 + n % 64).toUInt8]
  else
    [(0xF0 + n / 262144).toUInt8, (0x80 + n / 4096 % 64).toUInt8, (0x80 + n / 64 % 64).toUInt8,
      (0x80 + n % 64).toUInt8]

def utf8 (s : String) : List UInt8 :=
  s.toList.flatMap utf8OfChar

/-- Where bytes stop being UTF-8. Without a length they end inside a character. -/
structure Utf8Fault where
  validUpTo : Nat
  length : Option Nat
  deriving DecidableEq, Repr

def isTail (b : UInt8) : Bool :=
  0x80 ≤ b.toNat && b.toNat ≤ 0xBF

def isSecondOfThree (a b : UInt8) : Bool :=
  if a.toNat = 0xE0 then 0xA0 ≤ b.toNat && b.toNat ≤ 0xBF
  else if a.toNat = 0xED then 0x80 ≤ b.toNat && b.toNat ≤ 0x9F
  else isTail b

def isSecondOfFour (a b : UInt8) : Bool :=
  if a.toNat = 0xF0 then 0x90 ≤ b.toNat && b.toNat ≤ 0xBF
  else if a.toNat = 0xF4 then 0x80 ≤ b.toNat && b.toNat ≤ 0x8F
  else isTail b

def tailBits (b : UInt8) : Nat :=
  b.toNat % 64

/-- The characters of bytes, the first of which stands at `offset`. -/
def charsOfUtf8 (offset : Nat) : List UInt8 → Except Utf8Fault (List Char)
  | [] => .ok []
  | a :: rest =>
    if a.toNat < 0x80 then
      (charsOfUtf8 (offset + 1) rest).map (Char.ofNat a.toNat :: ·)
    else if 0xC2 ≤ a.toNat ∧ a.toNat ≤ 0xDF then
      match rest with
      | [] => .error ⟨offset, none⟩
      | b :: rest =>
        if isTail b then
          (charsOfUtf8 (offset + 2) rest).map (Char.ofNat (a.toNat % 32 * 64 + tailBits b) :: ·)
        else .error ⟨offset, some 1⟩
    else if 0xE0 ≤ a.toNat ∧ a.toNat ≤ 0xEF then
      match rest with
      | [] => .error ⟨offset, none⟩
      | b :: rest =>
        if !isSecondOfThree a b then .error ⟨offset, some 1⟩
        else match rest with
          | [] => .error ⟨offset, none⟩
          | c :: rest =>
            if isTail c then
              (charsOfUtf8 (offset + 3) rest).map
                (Char.ofNat (a.toNat % 16 * 4096 + tailBits b * 64 + tailBits c) :: ·)
            else .error ⟨offset, some 2⟩
    else if 0xF0 ≤ a.toNat ∧ a.toNat ≤ 0xF4 then
      match rest with
      | [] => .error ⟨offset, none⟩
      | b :: rest =>
        if !isSecondOfFour a b then .error ⟨offset, some 1⟩
        else match rest with
          | [] => .error ⟨offset, none⟩
          | c :: rest =>
            if !isTail c then .error ⟨offset, some 2⟩
            else match rest with
              | [] => .error ⟨offset, none⟩
              | d :: rest =>
                if isTail d then
                  (charsOfUtf8 (offset + 4) rest).map (Char.ofNat
                    (a.toNat % 8 * 262144 + tailBits b * 4096 + tailBits c * 64 + tailBits d) :: ·)
                else .error ⟨offset, some 3⟩
    else .error ⟨offset, some 1⟩

def ofUtf8 (bytes : List UInt8) : Except Utf8Fault String :=
  (charsOfUtf8 0 bytes).map String.ofList

end UnitForge.Text
