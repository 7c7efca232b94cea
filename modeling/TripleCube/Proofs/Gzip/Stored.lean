import TripleCube.Gzip.Compression
import TripleCube.Outcome
import TripleCube.Proofs.Bytes.Digits

/-! What is compressed expands to itself. Written streams hold their bytes in stored blocks,
so this needs the bits of bytes and of lengths, the padding in front of a block, and the
header and trailer around the blocks. -/
namespace TripleCube.Gzip

namespace Bits

theorem length_ofByte (byte : UInt8) : (ofByte byte).length = 8 := by simp [ofByte]

theorem length_ofBytes (bytes : List UInt8) : (ofBytes bytes).length = 8 * bytes.length := by
  induction bytes with
  | nil => rfl
  | cons byte rest ih =>
    rw [ofBytes, List.flatMap_cons, List.length_append, length_ofByte, ← ofBytes, ih,
      List.length_cons]
    omega

@[simp] theorem ofBytes_append (first second : List UInt8) :
    ofBytes (first ++ second) = ofBytes first ++ ofBytes second := List.flatMap_append

theorem ofBytes_cons (byte : UInt8) (rest : List UInt8) :
    ofBytes (byte :: rest) = ofByte byte ++ ofBytes rest := List.flatMap_cons

theorem takeNat_testBits (width n : Nat) (rest : Bits) :
    takeNat width ((List.range width).map n.testBit ++ rest) = .ok (n % 2 ^ width, rest) := by
  induction width generalizing n with
  | zero => simp [takeNat, Nat.mod_one]
  | succ width ih =>
    have higher : ((fun bit => n.testBit bit) ∘ Nat.succ) = (n / 2).testBit := by
      funext bit
      exact Nat.testBit_add_one n bit
    rw [List.range_succ_eq_map, List.map_cons, List.map_map, higher, List.cons_append, takeNat, ih]
    dsimp only
    have lowest : (n.testBit 0).toNat = n % 2 := by
      rw [Nat.testBit_zero]
      rcases Nat.mod_two_eq_zero_or_one n with even | odd <;> simp [*]
    rw [lowest, Nat.pow_succ, Nat.mul_comm (2 ^ width), Nat.mod_mul]

/-- A number of two parts is read part by part. -/
theorem takeNat_add {low high m n : Nat} {bits middle rest : Bits}
    (first : takeNat low bits = .ok (m, middle)) (second : takeNat high middle = .ok (n, rest)) :
    takeNat (low + high) bits = .ok (m + 2 ^ low * n, rest) := by
  induction low generalizing bits m with
  | zero =>
    rw [takeNat] at first
    cases first
    simpa using second
  | succ low ih =>
    cases bits with
    | nil => simp [takeNat] at first
    | cons bit bits =>
      rw [takeNat] at first
      cases later : takeNat low bits with
      | error fault => simp [later] at first
      | ok part =>
        obtain ⟨value, behind⟩ := part
        rw [later] at first
        cases first
        rw [Nat.add_right_comm, takeNat, ih later]
        simp only [Nat.pow_succ]
        rw [Nat.mul_add, Nat.mul_comm (2 ^ low) 2, Nat.mul_assoc, Nat.add_assoc]

theorem takeNat_ofByte (byte : UInt8) (rest : Bits) :
    takeNat 8 (ofByte byte ++ rest) = .ok (byte.toNat, rest) := by
  have small : byte.toNat % 2 ^ 8 = byte.toNat := Nat.mod_eq_of_lt byte.toNat_lt
  rw [ofByte, takeNat_testBits, small]

/-- The bits of bytes are the bits of the number whose digits they are. -/
theorem takeNat_ofBytes (bytes : List UInt8) (rest : Bits) :
    takeNat (8 * bytes.length) (ofBytes bytes ++ rest) = .ok (Bytes.ofLittle bytes, rest) := by
  induction bytes with
  | nil => rfl
  | cons byte bytes ih =>
    have width : 8 * (byte :: bytes).length = 8 + 8 * bytes.length := by
      rw [List.length_cons]
      omega
    rw [width, ofBytes_cons, List.append_assoc]
    exact takeNat_add (takeNat_ofByte byte _) ih

theorem takeNat_little (n : Nat) (rest : Bits) :
    takeNat 16 (ofBytes (Bytes.little 2 n) ++ rest) = .ok (n % 65536, rest) := by
  have taken := takeNat_ofBytes (Bytes.little 2 n) rest
  rw [Bytes.length_little, Bytes.ofLittle_little] at taken
  exact taken

theorem takeBytes_ofBytes (bytes : List UInt8) (rest : Bits) :
    takeBytes bytes.length (ofBytes bytes ++ rest) = .ok (bytes, rest) := by
  induction bytes with
  | nil => rfl
  | cons byte bytes ih =>
    rw [List.length_cons, takeBytes, ofBytes_cons, List.append_assoc, takeNat_ofByte]
    dsimp only
    rw [ih]
    simp

/-- Padding in front of whole bytes is dropped. -/
theorem align_append {padding bits : Bits} (short : padding.length < 8)
    (whole : bits.length % 8 = 0) : align (padding ++ bits) = bits := by
  have padded : (padding ++ bits).length % 8 = padding.length := by
    rw [List.length_append]
    omega
  rw [align, padded, List.drop_left]

end Bits

theorem inflateStored_eq (padding : Bits) {rest : Bits} {bytes : List UInt8} (out : Output)
    (short : padding.length < 8) (whole : rest.length % 8 = 0)
    (fits : bytes.length ≤ maxStored) :
    inflateStored (padding ++ (Bits.ofBytes (Bytes.little 2 bytes.length) ++
      (Bits.ofBytes (Bytes.little 2 (maxStored - bytes.length)) ++ (Bits.ofBytes bytes ++ rest))))
        out = .ok (out ++ bytes.toArray, rest) := by
  have behind : (Bits.ofBytes (Bytes.little 2 bytes.length) ++
      (Bits.ofBytes (Bytes.little 2 (maxStored - bytes.length)) ++
        (Bits.ofBytes bytes ++ rest))).length % 8 = 0 := by
    simp only [List.length_append, Bits.length_ofBytes, Bytes.length_little]
    omega
  have aligned := Bits.align_append short behind
  have small : bytes.length % 65536 = bytes.length := by
    simp only [maxStored] at fits
    omega
  have complement : bytes.length + (maxStored - bytes.length) % 65536 = 65535 := by
    simp only [maxStored] at fits ⊢
    omega
  rw [inflateStored, aligned, Bits.takeNat_little]
  dsimp only
  rw [Bits.takeNat_little, small]
  dsimp only
  rw [if_pos complement, Bits.takeBytes_ofBytes]

/-- The first bits of a stored block: whether it is the last, its type, and padding. -/
theorem ofByte_mark (last : Bool) : Bits.ofByte (if last then 1 else 0) =
    last :: false :: false :: List.replicate 5 false := by
  cases last <;> decide

theorem inflateBlocks_storedBlock (last : Bool) {rest : Bits} {bytes : List UInt8} (out : Output)
    (whole : rest.length % 8 = 0) (fits : bytes.length ≤ maxStored) :
    inflateBlocks (Bits.ofBytes (storedBlock last bytes) ++ rest) out =
      if last then .ok (out ++ bytes.toArray, rest)
      else inflateBlocks rest (out ++ bytes.toArray) := by
  have body := inflateStored_eq (List.replicate 5 false) out (by decide) whole fits
  have bits : Bits.ofBytes (storedBlock last bytes) ++ rest =
      last :: false :: false :: (List.replicate 5 false ++
        (Bits.ofBytes (Bytes.little 2 bytes.length) ++
          (Bits.ofBytes (Bytes.little 2 (maxStored - bytes.length)) ++
            (Bits.ofBytes bytes ++ rest)))) := by
    simp only [storedBlock, List.cons_append, Bits.ofBytes_cons, Bits.ofBytes_append,
      ofByte_mark, List.append_assoc]
  rw [bits, inflateBlocks]
  split
  · next fault failed =>
    rw [inflateBlock, body] at failed
    cases failed
  · next expanded behind done =>
    rw [inflateBlock, body] at done
    cases done
    rfl

theorem inflateBlocks_storedBlocks (bytes : List UInt8) (out : Output) {rest : Bits}
    (whole : rest.length % 8 = 0) :
    inflateBlocks (Bits.ofBytes (storedBlocks bytes) ++ rest) out =
      .ok (out ++ bytes.toArray, rest) := by
  fun_induction storedBlocks bytes generalizing out with
  | case1 bytes fits => rw [inflateBlocks_storedBlock true out whole fits, if_pos rfl]
  | case2 bytes long ih =>
    have later : (Bits.ofBytes (storedBlocks (bytes.drop maxStored)) ++ rest).length % 8 = 0 := by
      rw [List.length_append, Bits.length_ofBytes]
      omega
    have fits : (bytes.take maxStored).length ≤ maxStored := List.length_take_le _ _
    rw [Bits.ofBytes_append, List.append_assoc, inflateBlocks_storedBlock false out later fits,
      if_neg Bool.false_ne_true, ih]
    have joined : (bytes.take maxStored).toArray ++ (bytes.drop maxStored).toArray =
        bytes.toArray := by rw [List.append_toArray, List.take_append_drop]
    rw [Array.append_assoc, joined]

theorem inflate_storedBlocks (bytes trailing : List UInt8) :
    inflate (storedBlocks bytes ++ trailing) = .ok (bytes, trailing) := by
  have whole : (Bits.ofBytes trailing).length % 8 = 0 := by
    rw [Bits.length_ofBytes]
    omega
  have consumed : (storedBlocks bytes ++ trailing).length - 8 * trailing.length / 8 =
      (storedBlocks bytes).length := by
    rw [List.length_append]
    omega
  rw [inflate, Bits.ofBytes_append, inflateBlocks_storedBlocks bytes #[] whole]
  dsimp only
  rw [Bits.length_ofBytes, consumed, List.drop_left]
  simp

theorem takeExact_append {count : Nat} {first : List UInt8} (length : first.length = count)
    (rest : List UInt8) : takeExact count (first ++ rest) = .ok (first, rest) := by
  have enough : count ≤ (first ++ rest).length := by
    rw [List.length_append]
    omega
  rw [takeExact, if_pos enough, List.take_left' length, List.drop_left' length]

theorem dropHeader_writtenHeader (rest : List UInt8) :
    dropHeader (writtenHeader ++ rest) = .ok rest := by
  have length : writtenHeader.length = 10 := rfl
  rw [dropHeader, takeExact_append length]
  rfl

/-- Decompressing what was compressed gives it back. -/
theorem decompress_compress (bytes : List UInt8) : decompress (compress bytes) = .ok bytes := by
  have length : (trailer bytes).length = 8 := by simp [trailer]
  have read := takeExact_append length []
  rw [List.append_nil] at read
  simp only [decompress, compress, List.append_assoc, dropHeader_writtenHeader,
    inflate_storedBlocks, bind, Except.bind, read, if_pos]

theorem lossless : Compression.Lossless := fun bytes =>
  ⟨compress bytes, rfl, mapError_eq_ok.mpr (decompress_compress bytes)⟩

/-- A text of letters that take two bytes each, none of which comes twice. An encoder that looks
for the shortest form stores it, too: there is nothing in it to be saved. -/
def incompressible : String := "АБВГДЕЖЗИЙКЛМНОПР"

end TripleCube.Gzip
