import UnitForge.Binary64.Basic

/-! # Numbers as text

The shortest decimal that reads back as a double-precision number, and its two spellings: one that
is always positional, and one that marks numbers with a point or an exponent. -/
set_option autoImplicit false
namespace UnitForge.Binary64

structure Decimal where
  digits : Nat
  exponent : Int
  deriving DecidableEq, Repr

/-- The reals that round to `mantissa · 2 ^ exponent`, in units of `2 ^ (exponent - 2)`: the two
ends and the middle. Below a power of two the numbers lie twice as close. -/
structure Interval where
  low : Nat
  middle : Nat
  high : Nat
  closed : Bool
  deriving DecidableEq, Repr

def interval (mantissa : Nat) (exponent : Int) : Interval :=
  { low := if mantissa = 2 ^ 52 ∧ exponent > -1074 then 4 * mantissa - 1 else 4 * mantissa - 2
    middle := 4 * mantissa
    high := 4 * mantissa + 2
    closed := mantissa % 2 = 0 }

/-- Whether `d` units of size `den` lie in the interval, whose own units have size `num`. -/
def Interval.holds (i : Interval) (num den d : Nat) : Bool :=
  if i.closed then i.low * num ≤ d * den && d * den ≤ i.high * num
  else i.low * num < d * den && d * den < i.high * num

/-- The power of ten just above a positive number: `k` with `10 ^ (k - 1) ≤ x < 10 ^ k`. -/
def decimalSize (mantissa : Nat) (exponent : Int) : Int :=
  let (num, den) := scaled (mantissa * 10 ^ 400) 1 exponent
  ((Nat.toDigits 10 (num / den)).length : Int) - 400

/-- The neighbour of the number on the grid of `10 ^ grid` that lies in the interval, if one does.
Of two the nearer one is taken, of two equally near ones the greater. -/
def onGrid? (i : Interval) (exponent grid : Int) : Option Nat :=
  -- One unit of the interval is `num / den` steps of the grid.
  let unit := exponent - 2
  let (num, den) := scaled 1 1 unit
  let num := if grid < 0 then num * 10 ^ (-grid).toNat else num
  let den := if grid < 0 then den else den * 10 ^ grid.toNat
  let below := i.middle * num / den
  let above := below + 1
  match i.holds num den below, i.holds num den above with
  | true, true =>
    if 2 * i.middle * num < (below + above) * den then some below else some above
  | true, false => some below
  | false, true => some above
  | false, false => none

/-- Searches grids of ever more digits; seventeen are always enough. -/
def searchGrids (i : Interval) (exponent size : Int) : Nat → Nat → Decimal
  | 0, digits =>
    let grid := size - digits
    ⟨(onGrid? i exponent grid).getD 0, grid⟩
  | fuel + 1, digits =>
    let grid := size - digits
    match onGrid? i exponent grid with
    | some d => ⟨d, grid⟩
    | none => searchGrids i exponent size fuel (digits + 1)

def dropZeros : Nat → Decimal → Decimal
  | 0, d => d
  | fuel + 1, d =>
    if d.digits ≠ 0 ∧ d.digits % 10 = 0 then dropZeros fuel ⟨d.digits / 10, d.exponent + 1⟩ else d

/-- The decimal with the fewest digits that rounds to a positive number, the nearest of them. -/
def shortest (mantissa : Nat) (exponent : Int) : Decimal :=
  dropZeros 20
    (searchGrids (interval mantissa exponent) exponent (decimalSize mantissa exponent) 17 1)

def digitText (n : Nat) : List Char :=
  Nat.toDigits 10 n

/-- A decimal without an exponent; `point` asks for a digit after the point in any case. -/
def positional (point : Bool) (d : Decimal) : List Char :=
  let digits := digitText d.digits
  if 0 ≤ d.exponent then
    digits ++ List.replicate d.exponent.toNat '0' ++ (if point then ['.', '0'] else [])
  else
    let places := (-d.exponent).toNat
    if places < digits.length then
      digits.take (digits.length - places) ++ '.' :: digits.drop (digits.length - places)
    else '0' :: '.' :: List.replicate (places - digits.length) '0' ++ digits

def exponential (d : Decimal) : List Char :=
  let digits := digitText d.digits
  let power : Int := d.exponent + digits.length - 1
  let mantissa := match digits with
    | [] => []
    | [one] => [one]
    | first :: rest => first :: '.' :: rest
  mantissa ++ 'e' :: (toString power).toList

/-- Whether a decimal is at least `10 ^ 16` or less than `10 ^ (-4)`. -/
def isExtreme (d : Decimal) : Bool :=
  let size : Int := d.exponent + (digitText d.digits).length
  size > 16 || size < -3

def signed (spell : Decimal → List Char) (zeroText : String) (x : Binary64) : String :=
  match x.reading with
  | .nan => "NaN"
  | .infinite negative => if negative then "-inf" else "inf"
  | .finite negative mantissa exponent =>
    let magnitude :=
      if mantissa = 0 then zeroText else String.ofList (spell (shortest mantissa exponent))
    if negative then "-" ++ magnitude else magnitude

/-- The shortest text that reads back, always positional: `1`, `-0`, `0.1`, `100000000000000000`. -/
def display (x : Binary64) : String :=
  signed (positional false) "0" x

/-- The text that shows a number to be one: `1.0`, `-0.0`, `1e16`, `5e-5`. -/
def debug (x : Binary64) : String :=
  signed (fun d => if isExtreme d then exponential d else positional true d) "0.0" x

end UnitForge.Binary64
