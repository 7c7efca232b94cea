/-! Bit streams of compressed data: the bits of each byte from the lowest up, and numbers
with their lowest bit first. -/
namespace TripleCube.Gzip

abbrev Bits := List Bool

/-- Why compressed data cannot be expanded. -/
inductive Fault
  | header
  | longField
  | endOfFile
  | incomplete
  | corrupt
  | checksum
  deriving DecidableEq

def Fault.text : Fault → String
  | .header => "invalid gzip header"
  | .longField => "gzip header field too long"
  | .endOfFile => "unexpected end of file"
  | .incomplete => "incomplete deflate stream"
  | .corrupt => "corrupt deflate stream"
  | .checksum => "corrupt gzip stream does not have a matching checksum"

namespace Bits

def ofByte (byte : UInt8) : Bits := (List.range 8).map byte.toNat.testBit

def ofBytes (bytes : List UInt8) : Bits := bytes.flatMap ofByte

/-- A number of `width` bits. -/
def takeNat : (width : Nat) → Bits → Except Fault (Nat × Bits)
  | 0, bits => .ok (0, bits)
  | _ + 1, [] => .error .incomplete
  | width + 1, bit :: rest =>
    match takeNat width rest with
    | .error fault => .error fault
    | .ok (high, rest) => .ok (bit.toNat + 2 * high, rest)

/-- Drops what is left of a byte that has been begun. A stream ends with a whole byte, so
the number of bits left tells where bytes begin. -/
def align (bits : Bits) : Bits := bits.drop (bits.length % 8)

/-- The next `count` bytes. -/
def takeBytes : (count : Nat) → Bits → Except Fault (List UInt8 × Bits)
  | 0, bits => .ok ([], bits)
  | count + 1, bits =>
    match takeNat 8 bits with
    | .error fault => .error fault
    | .ok (byte, rest) =>
      match takeBytes count rest with
      | .error fault => .error fault
      | .ok (bytes, rest) => .ok (UInt8.ofNat byte :: bytes, rest)

theorem length_takeNat {width n : Nat} {bits rest : Bits}
    (h : takeNat width bits = .ok (n, rest)) : rest.length + width = bits.length := by
  fun_induction takeNat width bits generalizing n rest <;> grind

theorem length_align_le (bits : Bits) : bits.align.length ≤ bits.length := by
  simp [align]

theorem length_takeBytes {count : Nat} {bits rest : Bits} {bytes : List UInt8}
    (h : takeBytes count bits = .ok (bytes, rest)) :
    rest.length + 8 * count = bits.length := by
  fun_induction takeBytes count bits generalizing bytes rest with
  | case1 => simp_all
  | case2 => simp at h
  | case3 => simp at h
  | case4 count bits byte rest₁ hbyte bytes₁ rest₂ hbytes ih =>
    have first := length_takeNat hbyte
    have others := ih hbytes
    simp only [Except.ok.injEq, Prod.mk.injEq] at h
    obtain ⟨rfl, rfl⟩ := h
    omega

end Bits

end TripleCube.Gzip
