import TripleCube.Text.Hex

/-! Bytes as quoted ASCII text. Every escape starts with a backslash, and a backslash and
both quotes are themselves escaped, so the bytes can be read back. -/
namespace TripleCube.Text

def escapedByte (byte : UInt8) : List Char :=
  if byte = 0x09 then ['\\', 't']
  else if byte = 0x0A then ['\\', 'n']
  else if byte = 0x0D then ['\\', 'r']
  else if byte = 0x22 then ['\\', '"']
  else if byte = 0x27 then ['\\', '\'']
  else if byte = 0x5C then ['\\', '\\']
  else if 0x20 ≤ byte && byte ≤ 0x7E then [Char.ofNat byte.toNat]
  else '\\' :: 'x' :: hexDigits 2 byte.toNat

def quotedBytes (bytes : List UInt8) : String :=
  String.ofList ('"' :: bytes.flatMap escapedByte ++ ['"'])

end TripleCube.Text
