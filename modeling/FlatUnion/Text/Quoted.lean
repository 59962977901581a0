import FlatUnion.Text.Printable
import FlatUnion.Text.Utf8

/-!
# Quoted text

Text in messages and in generated code stands between double quotes. Characters that do not show
are written by name or by their code point, so that the quoted form is readable and, as a string
literal, stands for the same text.
-/

namespace FlatUnion

/-- The quoted form of one character. -/
def Char.quoted (c : Char) : String :=
  if c = '\x00' then "\\0"
  else if c = '\t' then "\\t"
  else if c = '\n' then "\\n"
  else if c = '\x0d' then "\\r"
  else if c = '"' then "\\\""
  else if c = '\\' then "\\\\"
  else if Char.isShown c then String.singleton c
  else "\\u\x7b" ++ hexText 1 c.toNat ++ "\x7d"

/-- A text between quotes, its characters escaped where they need it. -/
def quoted (s : String) : String :=
  "\"" ++ String.join (s.toList.map Char.quoted) ++ "\""

end FlatUnion
