/-! Numbers as lowercase hexadecimal text of a fixed width. -/
namespace TripleCube.Text

def hexDigit (n : Nat) : Char := Nat.digitChar (n % 16)

/-- The last `width` hexadecimal digits of a number, leading zeros included. -/
def hexDigits : (width : Nat) → Nat → List Char
  | 0, _ => []
  | width + 1, n => hexDigits width (n / 16) ++ [hexDigit n]

def hex (width : Nat) (n : Nat) : String := String.ofList (hexDigits width n)

end TripleCube.Text
