import UnitForge.Source.Numeral

/-! # The value of an integer literal

An integer literal is read as the number that its digits stand for, in the base that its prefix
names; underscores do not count, and the name behind the digits is the suffix. -/
set_option autoImplicit false
namespace UnitForge.Source.Numeral

/-- One character more of a number; one that is no digit does not count. -/
def place (base total : Nat) (c : Char) : Nat :=
  match digitValue? c with
  | some d => total * base + d
  | none => total

def positional (base : Nat) (written : List Char) : Nat :=
  written.foldl (place base) 0

variable {input rest : List Located}

/-- A hexadecimal number with a gap and a suffix that is none of a float. -/
example : (read? (('0', ⟨1, 1⟩) :: ('x', ⟨1, 2⟩) :: ('1', ⟨1, 3⟩) :: ('_', ⟨1, 4⟩) ::
    ('f', ⟨1, 5⟩) :: ('u', ⟨1, 6⟩) :: ('8', ⟨1, 7⟩) :: [])).map Prod.fst =
      some (.int 31 "u8") := by
  decide +kernel

end UnitForge.Source.Numeral
