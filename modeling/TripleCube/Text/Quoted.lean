import TripleCube.Text.Printable

/-! Quoted text: in double quotes, with every character escaped that would not show. -/
namespace TripleCube.Text

/-- A code point in lowercase hexadecimal digits, without leading zeros, in braces. -/
def escapedCodePoint (c : Char) : String :=
  "\\u\x7b" ++ String.ofList (Nat.toDigits 16 c.toNat) ++ "\x7d"

def quotedChar (c : Char) : String :=
  if c = '\x00' then "\\0"
  else if c = '\t' then "\\t"
  else if c = '\r' then "\\r"
  else if c = '\n' then "\\n"
  else if c = '"' then "\\\""
  else if c = '\\' then "\\\\"
  else if isPrintable c then c.toString
  else escapedCodePoint c

def quoted (text : String) : String :=
  "\"" ++ String.join (text.toList.map quotedChar) ++ "\""

end TripleCube.Text
