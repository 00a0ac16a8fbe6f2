import UnitForge.Text.Hexadecimal
import UnitForge.Text.Printable

/-! # Quoted texts

A text between double quotes, with backslash escapes for what would not be seen or would end it. -/
set_option autoImplicit false
namespace UnitForge.Text

/-- A character as it stands between quotes. A mark that extends the character before it, or a
character that does not print, is written by its number. -/
def quotedChar (c : Char) : String :=
  if c = '\x00' then "\\0"
  else if c = '\t' then "\\t"
  else if c = '\n' then "\\n"
  else if c = '\r' then "\\r"
  else if c = '"' then "\\\""
  else if c = '\\' then "\\\\"
  else if extendsGrapheme c || !isPrintable c then "\\u\x7b" ++ hexadecimal c.toNat ++ "\x7d"
  else String.singleton c

def quoted (s : String) : String :=
  "\"" ++ String.join (s.toList.map quotedChar) ++ "\""

def quotedPath (s : String) : String :=
  let char (c : Char) := if c = '\'' then "\\'" else quotedChar c
  "\"" ++ String.join (s.toList.map char) ++ "\""

end UnitForge.Text
