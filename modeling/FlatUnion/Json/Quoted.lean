import FlatUnion.Text.Utf8

/-!
# JSON strings

A string of a JSON text stands between double quotes. Quotes, backslashes and the characters
below U+0020 are escaped, five of the latter by a letter. All others stand as they are.
-/

namespace FlatUnion.Json

/-- The written form of one character of a string. -/
def quotedChar (c : Char) : String :=
  if c = '"' then "\\\""
  else if c = '\\' then "\\\\"
  else if c = '\x08' then "\\b"
  else if c = '\x09' then "\\t"
  else if c = '\x0a' then "\\n"
  else if c = '\x0c' then "\\f"
  else if c = '\x0d' then "\\r"
  else if c.toNat < 0x20 then "\\u" ++ hexText 4 c.toNat
  else String.singleton c

/-- The written form of a string. -/
def quoted (s : String) : String :=
  "\"" ++ String.join (s.toList.map quotedChar) ++ "\""

end FlatUnion.Json
