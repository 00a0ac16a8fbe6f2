import UnitForge.Text.Utf8
import Mathlib.Data.Char

/-! # UTF-8 round trip

The bytes of a text are read back as that text. -/
set_option autoImplicit false
namespace UnitForge.Text

theorem toNat_toUInt8 {n : Nat} (byte : n < 256) : n.toUInt8.toNat = n := by
  change (UInt8.ofNat n).toNat = n
  rw [UInt8.toNat_ofNat']
  exact Nat.mod_eq_of_lt byte

theorem toNat_char (c : Char) : c.toNat < 0xD800 ∨ 0xDFFF < c.toNat ∧ c.toNat < 0x110000 :=
  c.valid

section Widths
variable {c : Char} (offset : Nat) (rest : List UInt8)

theorem charsOfUtf8_one (small : c.toNat < 0x80) :
    charsOfUtf8 offset (utf8OfChar c ++ rest) = (charsOfUtf8 (offset + 1) rest).map (c :: ·) := by
  have byte : c.toNat.toUInt8.toNat = c.toNat := toNat_toUInt8 (by omega)
  simp only [utf8OfChar, small, if_true, List.singleton_append]
  rw [charsOfUtf8.eq_def]
  dsimp only
  rw [byte, if_pos small, Char.ofNat_toNat]

theorem charsOfUtf8_two (low : ¬c.toNat < 0x80) (high : c.toNat < 0x800) :
    charsOfUtf8 offset (utf8OfChar c ++ rest) = (charsOfUtf8 (offset + 2) rest).map (c :: ·) := by
  have first : (0xC0 + c.toNat / 64).toUInt8.toNat = 0xC0 + c.toNat / 64 :=
    toNat_toUInt8 (by omega)
  have second : (0x80 + c.toNat % 64).toUInt8.toNat = 0x80 + c.toNat % 64 :=
    toNat_toUInt8 (by omega)
  have tail : isTail (0x80 + c.toNat % 64).toUInt8 = true := by
    simp only [isTail, second, Bool.and_eq_true, decide_eq_true_eq]
    omega
  have whole : (0xC0 + c.toNat / 64) % 32 * 64 + (0x80 + c.toNat % 64) % 64 = c.toNat := by omega
  simp only [utf8OfChar, low, high, if_true, if_false, List.cons_append, List.nil_append]
  rw [charsOfUtf8.eq_def]
  dsimp only
  rw [first, if_neg (by omega), if_pos (by omega), if_pos tail, tailBits, second, whole, Char.ofNat_toNat]

theorem charsOfUtf8_three (low : ¬c.toNat < 0x800) (high : c.toNat < 0x10000) :
    charsOfUtf8 offset (utf8OfChar c ++ rest) = (charsOfUtf8 (offset + 3) rest).map (c :: ·) := by
  have valid := toNat_char c
  have first : (0xE0 + c.toNat / 4096).toUInt8.toNat = 0xE0 + c.toNat / 4096 :=
    toNat_toUInt8 (by omega)
  have second : (0x80 + c.toNat / 64 % 64).toUInt8.toNat = 0x80 + c.toNat / 64 % 64 :=
    toNat_toUInt8 (by omega)
  have third : (0x80 + c.toNat % 64).toUInt8.toNat = 0x80 + c.toNat % 64 :=
    toNat_toUInt8 (by omega)
  have admitted : isSecondOfThree (0xE0 + c.toNat / 4096).toUInt8
      (0x80 + c.toNat / 64 % 64).toUInt8 = true := by
    simp only [isSecondOfThree, isTail, first, second]
    grind
  have tail : isTail (0x80 + c.toNat % 64).toUInt8 = true := by
    simp only [isTail, third, Bool.and_eq_true, decide_eq_true_eq]
    omega
  have whole : (0xE0 + c.toNat / 4096) % 16 * 4096 + (0x80 + c.toNat / 64 % 64) % 64 * 64 +
      (0x80 + c.toNat % 64) % 64 = c.toNat := by omega
  have ne : ¬c.toNat < 0x80 := by omega
  simp only [utf8OfChar, ne, low, high, if_true, if_false, List.cons_append, List.nil_append]
  rw [charsOfUtf8.eq_def]
  dsimp only
  rw [first, if_neg (by omega), if_neg (by omega), if_pos (by omega), admitted, if_pos tail, tailBits,
    tailBits, second, third, whole, Char.ofNat_toNat]
  rfl

theorem charsOfUtf8_four (low : ¬c.toNat < 0x10000) :
    charsOfUtf8 offset (utf8OfChar c ++ rest) = (charsOfUtf8 (offset + 4) rest).map (c :: ·) := by
  have valid := toNat_char c
  have first : (0xF0 + c.toNat / 262144).toUInt8.toNat = 0xF0 + c.toNat / 262144 :=
    toNat_toUInt8 (by omega)
  have second : (0x80 + c.toNat / 4096 % 64).toUInt8.toNat = 0x80 + c.toNat / 4096 % 64 :=
    toNat_toUInt8 (by omega)
  have third : (0x80 + c.toNat / 64 % 64).toUInt8.toNat = 0x80 + c.toNat / 64 % 64 :=
    toNat_toUInt8 (by omega)
  have fourth : (0x80 + c.toNat % 64).toUInt8.toNat = 0x80 + c.toNat % 64 :=
    toNat_toUInt8 (by omega)
  have admitted : isSecondOfFour (0xF0 + c.toNat / 262144).toUInt8
      (0x80 + c.toNat / 4096 % 64).toUInt8 = true := by
    simp only [isSecondOfFour, isTail, first, second]
    grind
  have tail (n : Nat) (byte : (0x80 + n % 64).toUInt8.toNat = 0x80 + n % 64) :
      isTail (0x80 + n % 64).toUInt8 = true := by
    simp only [isTail, byte, Bool.and_eq_true, decide_eq_true_eq]
    omega
  have whole : (0xF0 + c.toNat / 262144) % 8 * 262144 +
      (0x80 + c.toNat / 4096 % 64) % 64 * 4096 + (0x80 + c.toNat / 64 % 64) % 64 * 64 +
        (0x80 + c.toNat % 64) % 64 = c.toNat := by omega
  have ne : ¬c.toNat < 0x80 := by omega
  have ne' : ¬c.toNat < 0x800 := by omega
  simp only [utf8OfChar, ne, ne', low, if_false, List.cons_append, List.nil_append]
  rw [charsOfUtf8.eq_def]
  dsimp only
  rw [first, if_neg (by omega), if_neg (by omega), if_neg (by omega), if_pos (by omega), admitted,
    tail _ third, if_pos (tail _ fourth), tailBits, tailBits, tailBits, second, third, fourth, whole,
    Char.ofNat_toNat]
  rfl

end Widths

theorem charsOfUtf8_char (offset : Nat) (c : Char) (rest : List UInt8) : ∃ next,
    charsOfUtf8 offset (utf8OfChar c ++ rest) = (charsOfUtf8 next rest).map (c :: ·) := by
  by_cases one : c.toNat < 0x80
  · exact ⟨_, charsOfUtf8_one offset rest one⟩
  by_cases two : c.toNat < 0x800
  · exact ⟨_, charsOfUtf8_two offset rest one two⟩
  by_cases three : c.toNat < 0x10000
  · exact ⟨_, charsOfUtf8_three offset rest two three⟩
  · exact ⟨_, charsOfUtf8_four offset rest three⟩

theorem charsOfUtf8_flatMap (offset : Nat) (chars : List Char) :
    charsOfUtf8 offset (chars.flatMap utf8OfChar) = .ok chars := by
  induction chars generalizing offset with
  | nil => rfl
  | cons first rest ih =>
      obtain ⟨next, read⟩ := charsOfUtf8_char offset first (rest.flatMap utf8OfChar)
      rw [List.flatMap_cons, read, ih next]
      rfl

theorem ofUtf8_utf8 (s : String) : ofUtf8 (utf8 s) = .ok s := by
  rw [ofUtf8, utf8, charsOfUtf8_flatMap, Except.map, String.ofList_toList]

end UnitForge.Text
