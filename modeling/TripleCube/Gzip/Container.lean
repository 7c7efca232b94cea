import TripleCube.Bytes.Digits
import TripleCube.Checksum
import TripleCube.Gzip.Inflate

/-! The gzip container: a header, a deflate stream, and a trailer with the check and the
length of what was compressed. Written streams consist of stored blocks; read ones may be
any. What follows the trailer is ignored. -/
namespace TripleCube.Gzip

/-- The header of written streams: no optional field, no time, no operating system. -/
def writtenHeader : List UInt8 := [0x1F, 0x8B, 8, 0, 0, 0, 0, 0, 0, 0xFF]

/-- The longest stored block. -/
def maxStored : Nat := 65535

def storedBlock (last : Bool) (bytes : List UInt8) : List UInt8 :=
  (if last then 1 else 0)
    :: Bytes.little 2 bytes.length ++ Bytes.little 2 (maxStored - bytes.length) ++ bytes

/-- Bytes as stored blocks, all of them full but the last. -/
def storedBlocks (bytes : List UInt8) : List UInt8 :=
  if bytes.length ≤ maxStored then storedBlock true bytes
  else storedBlock false (bytes.take maxStored) ++ storedBlocks (bytes.drop maxStored)
termination_by bytes.length
decreasing_by
  simp only [List.length_drop, maxStored] at *
  omega

/-- The check and the length of some bytes, modulo the width of their fields. -/
def trailer (bytes : List UInt8) : List UInt8 :=
  Bytes.little 4 (Crc.ieee.checksum bytes).toNat ++ Bytes.little 4 bytes.length

def compress (bytes : List UInt8) : List UInt8 :=
  writtenHeader ++ storedBlocks bytes ++ trailer bytes

def takeExact (count : Nat) (bytes : List UInt8) : Except Fault (List UInt8 × List UInt8) :=
  if count ≤ bytes.length then .ok (bytes.take count, bytes.drop count) else .error .endOfFile

/-- Drops a text that a zero ends, of at most `room` bytes before the zero. -/
def dropText : (room : Nat) → List UInt8 → Except Fault (List UInt8)
  | _, [] => .error .endOfFile
  | room, byte :: rest =>
    if byte = 0 then .ok rest
    else match room with
      | 0 => .error .longField
      | room + 1 => dropText room rest

/-- The longest text of a header. -/
def maxText : Nat := 65535

/-- Drops an optional field, if its flag is set. -/
def dropIf (flags flag : UInt8) (drop : List UInt8 → Except Fault (List UInt8))
    (bytes : List UInt8) : Except Fault (List UInt8) :=
  if flags &&& flag = 0 then .ok bytes else drop bytes

/-- A field behind its length in two bytes. -/
def dropExtra (bytes : List UInt8) : Except Fault (List UInt8) := do
  let (length, rest) ← takeExact 2 bytes
  let (_, rest) ← takeExact (Bytes.ofLittle length) rest
  return rest

/-- Drops the header. Its optional fields are an extra field, a name and a comment, and a
check of all that came before. -/
def dropHeader (bytes : List UInt8) : Except Fault (List UInt8) := do
  let (fixed, rest) ← takeExact 10 bytes
  let flags := fixed.getD 3 0
  if fixed.take 3 ≠ [0x1F, 0x8B, 8] ∨ flags &&& 0xE0 ≠ 0 then .error .header
  else
    let rest ← dropIf flags 4 dropExtra rest
    let rest ← dropIf flags 8 (dropText maxText) rest
    let rest ← dropIf flags 16 (dropText maxText) rest
    let covered := bytes.take (bytes.length - rest.length)
    dropIf flags 2 (fun rest => do
      let (check, rest) ← takeExact 2 rest
      if Bytes.ofLittle check = (Crc.ieee.checksum covered).toNat % 65536 then .ok rest
      else .error .checksum) rest

def decompress (bytes : List UInt8) : Except Fault (List UInt8) := do
  let rest ← dropHeader bytes
  let (out, rest) ← inflate rest
  let (found, _) ← takeExact 8 rest
  if found = trailer out then .ok out else .error .checksum

end TripleCube.Gzip
