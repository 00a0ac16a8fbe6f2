/-! # Cutting text

Cutting a text at a separator, at blanks and at a known ending, over the list of its characters. -/
set_option autoImplicit false
namespace UnitForge.Text

def stretches (separator : Char) : List Char → List (List Char)
  | [] => [[]]
  | c :: rest =>
    if c = separator then [] :: stretches separator rest
    else match stretches separator rest with
      | [] => [[c]]
      | first :: others => (c :: first) :: others

theorem stretches_ne_nil (separator : Char) (cs : List Char) : stretches separator cs ≠ [] := by
  cases cs with
  | nil => simp [stretches]
  | cons c rest =>
    simp only [stretches]
    split
    · simp
    · split <;> simp

def splitOn (separator : Char) (s : String) : List String :=
  (stretches separator s.toList).map String.ofList

def replaceChar (old : Char) (replacement : String) (s : String) : String :=
  String.ofList (s.toList.flatMap fun c => if c = old then replacement.toList else [c])

def stripSuffix? (suffix s : String) : Option String :=
  if suffix.toList.isSuffixOf s.toList then
    some (String.ofList (s.toList.take (s.toList.length - suffix.toList.length)))
  else none

def endsWith (suffix s : String) : Bool :=
  suffix.toList.isSuffixOf s.toList

def isBlank (c : Char) : Bool :=
  let n := c.toNat
  (9 ≤ n && n ≤ 13) || n = 0x20 || n = 0x85 || n = 0xA0 || n = 0x1680 ||
    (0x2000 ≤ n && n ≤ 0x200A) || n = 0x2028 || n = 0x2029 || n = 0x202F || n = 0x205F || n = 0x3000

/-- Puts one more character in front of the words read so far; `open?` tells whether the first of
them still grows. -/
def wordStep (c : Char) : List (List Char) × Bool → List (List Char) × Bool
  | (words, grows) =>
    if isBlank c then (words, false)
    else match words, grows with
      | word :: others, true => ((c :: word) :: others, true)
      | _, _ => ([c] :: words, true)

def words (s : String) : List String :=
  (s.toList.foldr wordStep ([], false)).1.map String.ofList

end UnitForge.Text
