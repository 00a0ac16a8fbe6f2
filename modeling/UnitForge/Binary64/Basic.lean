/-! # Double-precision numbers

A double-precision number is kept as its 64 bits, so that every bit pattern survives storage.
Finite numbers are read as a sign and `mantissa · 2 ^ exponent`; a quotient of natural numbers is
rounded to the nearest of them, a tie to the even mantissa. -/
set_option autoImplicit false
namespace UnitForge

-- Powers are those of the numbers themselves, also where there are others for all monoids.
attribute [instance (1100), default_instance 20000] instPowNat

structure Binary64 where
  bits : UInt64
  deriving DecidableEq, Repr, Inhabited

namespace Binary64

inductive Reading where
  | finite (negative : Bool) (mantissa : Nat) (exponent : Int)
  | infinite (negative : Bool)
  | nan
  deriving DecidableEq, Repr

def isNegative (x : Binary64) : Bool :=
  x.bits.toNat ≥ 2 ^ 63

def exponentField (x : Binary64) : Nat :=
  x.bits.toNat / 2 ^ 52 % 2 ^ 11

def fractionField (x : Binary64) : Nat :=
  x.bits.toNat % 2 ^ 52

def reading (x : Binary64) : Reading :=
  if x.exponentField = 2047 then
    if x.fractionField = 0 then .infinite x.isNegative else .nan
  else if x.exponentField = 0 then .finite x.isNegative x.fractionField (-1074)
  else .finite x.isNegative (2 ^ 52 + x.fractionField) ((x.exponentField : Int) - 1075)

def isFinite (x : Binary64) : Bool :=
  x.exponentField ≠ 2047

def isNaN (x : Binary64) : Bool :=
  x.exponentField = 2047 && x.fractionField ≠ 0

def ofFields (negative : Bool) (exponentField fractionField : Nat) : Binary64 :=
  ⟨((if negative then 2 ^ 63 else 0) + exponentField * 2 ^ 52 + fractionField).toUInt64⟩

def infinity (negative : Bool) : Binary64 :=
  ofFields negative 2047 0

def zero (negative : Bool) : Binary64 :=
  ofFields negative 0 0

def nan : Binary64 :=
  ofFields false 2047 (2 ^ 51)

/-- The quotient to the nearest natural number, a tie to the even one. -/
def roundQuotient (num den : Nat) : Nat :=
  let down := num / den
  let twice := 2 * (num % den)
  if twice < den then down
  else if twice > den then down + 1
  else if down % 2 = 0 then down else down + 1

def scaled (num den : Nat) (e : Int) : Nat × Nat :=
  if 0 ≤ e then (num * 2 ^ e.toNat, den) else (num, den * 2 ^ (-e).toNat)

/-- The number nearest to a quotient of natural numbers. The exponent is chosen so that the
mantissa has fifty-three bits, but no smaller than that of the least positive number. -/
def ofRatio (negative : Bool) (num den : Nat) : Binary64 :=
  if num = 0 then zero negative
  else
    let guess : Int := (num.log2 : Int) - (den.log2 : Int) - 52
    let (n, d) := scaled num den (-guess)
    let fitted := if n / d < 2 ^ 52 then guess - 1 else if n / d ≥ 2 ^ 53 then guess + 1 else guess
    let exponent := if fitted < -1074 then -1074 else fitted
    let (n, d) := scaled num den (-exponent)
    let mantissa := roundQuotient n d
    -- A mantissa of 2 ^ 53 carries into the exponent field by itself.
    let magnitude := ((exponent + 1074).toNat) * 2 ^ 52 + mantissa
    if magnitude ≥ 2047 * 2 ^ 52 then infinity negative
    else ofFields negative (magnitude / 2 ^ 52) (magnitude % 2 ^ 52)

def ofInt (i : Int) : Binary64 :=
  ofRatio (i < 0) i.natAbs 1

/-- The number nearest to `digits · 10 ^ exponent`. Outside the range in which a decimal of that
many digits can be finite and not zero, nothing needs to be computed. -/
def ofDecimal (digits : Nat) (exponent : Int) : Binary64 :=
  if digits = 0 then zero false
  else
    let size : Int := exponent + (Nat.toDigits 10 digits).length
    if size > 310 then infinity false
    else if size < -330 then zero false
    else if 0 ≤ exponent then ofRatio false (digits * 10 ^ exponent.toNat) 1
    else ofRatio false digits (10 ^ (-exponent).toNat)

/-- The integer part of the number, cut to the range of 64-bit integers; 0 for NaN. -/
def toInt64 (x : Binary64) : Int64 :=
  match x.reading with
  | .nan => 0
  | .infinite negative => if negative then Int64.minValue else Int64.maxValue
  | .finite negative mantissa exponent =>
    let (n, d) := scaled mantissa 1 exponent
    let magnitude : Int := (n / d : Nat)
    let value := if negative then -magnitude else magnitude
    if value < Int64.minValue.toInt then Int64.minValue
    else if value > Int64.maxValue.toInt then Int64.maxValue
    else Int64.ofInt value

def toFloat (x : Binary64) : Float :=
  Float.ofBits x.bits

def ofFloat (f : Float) : Binary64 :=
  ⟨f.toBits⟩

def add (a b : Binary64) : Binary64 := ofFloat (a.toFloat + b.toFloat)

def sub (a b : Binary64) : Binary64 := ofFloat (a.toFloat - b.toFloat)

def mul (a b : Binary64) : Binary64 := ofFloat (a.toFloat * b.toFloat)

def div (a b : Binary64) : Binary64 := ofFloat (a.toFloat / b.toFloat)

def neg (a : Binary64) : Binary64 :=
  if a.isNaN then a else ⟨a.bits ^^^ 0x8000000000000000⟩

/-- What is left of `a` after the whole multiples of `b` that fit; it has the sign of `a`. -/
def rem (a b : Binary64) : Binary64 :=
  match a.reading, b.reading with
  | .nan, _ => nan
  | _, .nan => nan
  | .infinite _, _ => nan
  | .finite .., .infinite _ => a
  | .finite negative m p, .finite _ n q =>
    if n = 0 then nan
    else
      let low := min p q
      let left := m * 2 ^ (p - low).toNat % (n * 2 ^ (q - low).toNat)
      let (num, den) := scaled left 1 low
      ofRatio negative num den

/-- Whether two numbers are equal as numbers: a NaN equals nothing, the zeros equal each other. -/
def equal (a b : Binary64) : Bool :=
  a.toFloat == b.toFloat

def less (a b : Binary64) : Bool :=
  a.toFloat < b.toFloat

end Binary64

end UnitForge
