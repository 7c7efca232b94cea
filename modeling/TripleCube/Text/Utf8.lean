/-! Text as UTF-8 bytes. Bytes that are no text have a first fault: where the first
character begins that cannot be read, and how many bytes of it could stand. -/
namespace TripleCube.Text.Utf8

def encode (text : String) : List UInt8 := text.toUTF8.data.toList

def decode? (bytes : List UInt8) : Option String := String.fromUTF8? ⟨bytes.toArray⟩

inductive Fault
  /-- A character that no further byte could complete; `bytes` of its bytes are at fault. -/
  | invalid (bytes index : Nat)
  /-- A character that the end cuts short. -/
  | incomplete (index : Nat)
  deriving DecidableEq

def Fault.text : Fault → String
  | .invalid bytes index => s!"invalid utf-8 sequence of {bytes} bytes from index {index}"
  | .incomplete index => s!"incomplete utf-8 byte sequence from index {index}"

/-- An inclusive range of bytes. -/
abbrev Range := UInt8 × UInt8

def tail : Range := (0x80, 0xBF)

/-- What has to follow the first byte of a character. The second byte is restricted where
its full range would allow an overlong form, a surrogate, or a value past the last character. -/
def following? (lead : UInt8) : Option (List Range) :=
  if lead ≤ 0x7F then some []
  else if 0xC2 ≤ lead && lead ≤ 0xDF then some [tail]
  else if lead == 0xE0 then some [(0xA0, 0xBF), tail]
  else if lead == 0xED then some [(0x80, 0x9F), tail]
  else if 0xE1 ≤ lead && lead ≤ 0xEF then some [tail, tail]
  else if lead == 0xF0 then some [(0x90, 0xBF), tail, tail]
  else if 0xF1 ≤ lead && lead ≤ 0xF3 then some [tail, tail, tail]
  else if lead == 0xF4 then some [(0x80, 0x8F), tail, tail]
  else none

/-- The first fault of bytes that go on within the character at `index`, of which `taken`
bytes have been read and the bytes `owed` are still to come. -/
def faultFrom : List UInt8 → (index taken : Nat) → (owed : List Range) → Option Fault
  | [], _, _, [] => none
  | [], index, _, _ :: _ => some (.incomplete index)
  | byte :: rest, index, taken, [] =>
    match following? byte with
    | none => some (.invalid 1 (index + taken))
    | some owed => faultFrom rest (index + taken) 1 owed
  | byte :: rest, index, taken, (low, high) :: owed =>
    if low ≤ byte && byte ≤ high then faultFrom rest index (taken + 1) owed
    else some (.invalid taken index)

/-- The first fault of a text; none if it has no fault. -/
def fault? (bytes : List UInt8) : Option Fault := faultFrom bytes 0 0 []

@[simp] theorem decode?_encode (text : String) : decode? (encode text) = some text := by
  simp [decode?, encode, String.fromUTF8?, text.isValidUTF8, String.fromUTF8]

theorem eq_encode_of_decode? {bytes : List UInt8} {text : String}
    (h : decode? bytes = some text) : bytes = encode text := by
  simp only [decode?, String.fromUTF8?, Option.dite_none_right_eq_some, Option.some.injEq] at h
  obtain ⟨valid, rfl⟩ := h
  simp [encode, String.fromUTF8]

end TripleCube.Text.Utf8
