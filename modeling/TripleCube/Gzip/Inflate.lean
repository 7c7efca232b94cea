import TripleCube.Gzip.PrefixCode
import TripleCube.Outcome

/-! Expansion of deflate streams. A stream is a row of blocks, of which the last is marked;
a block is stored as it is, or its symbols have a fixed code, or it brings its own code. -/
namespace TripleCube.Gzip

/-- Bytes expanded so far. -/
abbrev Output := Array UInt8

namespace Output

/-- The byte some way back. Before the first byte the output reads as zeros. -/
def byteBack (out : Output) (distance : Nat) : UInt8 :=
  if distance ≤ out.size then out.getD (out.size - distance) 0 else 0

/-- Repeats what lies `distance` back; the repeated bytes may themselves be copies. -/
def copyBack (distance : Nat) : (length : Nat) → Output → Output
  | 0, out => out
  | length + 1, out => copyBack distance length (out.push (out.byteBack distance))

end Output

/-- What a symbol of a compressed block says. -/
inductive Instruction
  | byte (value : UInt8)
  | stop
  | repetition (lengthSymbol : Nat)

def Instruction.ofSymbol (symbol : Nat) : Instruction :=
  if symbol < 256 then .byte (UInt8.ofNat symbol)
  else if symbol = 256 then .stop
  else .repetition (symbol - 257)

/-- Base value and number of extra bits of the length symbols. -/
def lengthSymbols : List (Nat × Nat) :=
  [(3, 0), (4, 0), (5, 0), (6, 0), (7, 0), (8, 0), (9, 0), (10, 0), (11, 1), (13, 1),
    (15, 1), (17, 1), (19, 2), (23, 2), (27, 2), (31, 2), (35, 3), (43, 3), (51, 3), (59, 3),
    (67, 4), (83, 4), (99, 4), (115, 4), (131, 5), (163, 5), (195, 5), (227, 5), (258, 0)]

/-- Base value and number of extra bits of the distance symbols. -/
def distanceSymbols : List (Nat × Nat) :=
  [(1, 0), (2, 0), (3, 0), (4, 0), (5, 1), (7, 1), (9, 2), (13, 2), (17, 3), (25, 3),
    (33, 4), (49, 4), (65, 5), (97, 5), (129, 6), (193, 6), (257, 7), (385, 7), (513, 8),
    (769, 8), (1025, 9), (1537, 9), (2049, 10), (3073, 10), (4097, 11), (6145, 11),
    (8193, 12), (12289, 12), (16385, 13), (24577, 13)]

/-- The codes of a compressed block. -/
structure BlockCodes where
  symbols : PrefixCode
  distances : PrefixCode

/-- The value of a symbol that has extra bits. -/
def takeExtra (table : List (Nat × Nat)) (symbol : Nat) (bits : Bits) :
    Except Fault (Nat × Bits) :=
  match table[symbol]? with
  | none => .error .corrupt
  | some (base, extra) =>
    match bits.takeNat extra with
    | .error fault => .error fault
    | .ok (offset, rest) => .ok (base + offset, rest)

/-- The length and the distance of a repetition, behind its length symbol. -/
def takeRepetition (codes : BlockCodes) (lengthSymbol : Nat) (bits : Bits) :
    Except Fault (Nat × Nat × Bits) :=
  match takeExtra lengthSymbols lengthSymbol bits with
  | .error fault => .error fault
  | .ok (length, rest) =>
    match codes.distances.decode rest with
    | .error fault => .error fault
    | .ok (symbol, rest) =>
      match takeExtra distanceSymbols symbol rest with
      | .error fault => .error fault
      | .ok (distance, rest) => .ok (length, distance, rest)

theorem length_takeExtra_le {table : List (Nat × Nat)} {symbol value : Nat} {bits rest : Bits}
    (h : takeExtra table symbol bits = .ok (value, rest)) : rest.length ≤ bits.length := by
  unfold takeExtra at h
  split at h
  · simp at h
  · split at h
    · simp at h
    · next taken =>
      have := Bits.length_takeNat taken
      simp only [Except.ok.injEq, Prod.mk.injEq] at h
      obtain ⟨rfl, rfl⟩ := h
      omega

theorem length_takeRepetition_le {codes : BlockCodes} {symbol length distance : Nat}
    {bits rest : Bits} (h : takeRepetition codes symbol bits = .ok (length, distance, rest)) :
    rest.length ≤ bits.length := by
  unfold takeRepetition at h
  split at h
  · simp at h
  · next long =>
    split at h
    · simp at h
    · next decoded =>
      split at h
      · simp at h
      · next far =>
        have := length_takeExtra_le long
        have := PrefixCode.length_decode_lt decoded
        have := length_takeExtra_le far
        simp only [Except.ok.injEq, Prod.mk.injEq] at h
        obtain ⟨rfl, rfl, rfl⟩ := h
        omega

/-- The symbols of a compressed block, up to the one that ends it. -/
def inflateSymbols (codes : BlockCodes) (bits : Bits) (out : Output) :
    Except Fault (Output × Bits) :=
  match _decoded : codes.symbols.decode bits with
  | .error fault => .error fault
  | .ok (symbol, rest) =>
    match Instruction.ofSymbol symbol with
    | .byte value => inflateSymbols codes rest (out.push value)
    | .stop => .ok (out, rest)
    | .repetition lengthSymbol =>
      match _repeated : takeRepetition codes lengthSymbol rest with
      | .error fault => .error fault
      | .ok (length, distance, rest) =>
        inflateSymbols codes rest (out.copyBack distance length)
termination_by bits.length
decreasing_by
  · exact PrefixCode.length_decode_lt _decoded
  · have := PrefixCode.length_decode_lt _decoded
    have := length_takeRepetition_le _repeated
    omega

/-- A stored block: its length, the complement of its length, and its bytes. -/
def inflateStored (bits : Bits) (out : Output) : Except Fault (Output × Bits) :=
  match bits.align.takeNat 16 with
  | .error fault => .error fault
  | .ok (length, rest) =>
    match rest.takeNat 16 with
    | .error fault => .error fault
    | .ok (complement, rest) =>
      if length + complement = 65535 then
        match rest.takeBytes length with
        | .error fault => .error fault
        | .ok (bytes, rest) => .ok (out ++ bytes.toArray, rest)
      else .error .corrupt

/-- Codeword lengths of the fixed code. -/
def fixedLengths : List Nat :=
  List.replicate 144 8 ++ List.replicate 112 9 ++ List.replicate 24 7 ++ List.replicate 8 8

def fixedCodes : Except Fault BlockCodes := do
  let symbols ← PrefixCode.ofLengths fixedLengths false
  let distances ← PrefixCode.ofLengths (List.replicate 32 5) false
  return ⟨symbols, distances⟩

/-- The symbols of codeword lengths, in the order in which a block lists their own lengths. -/
def lengthOrder : List Nat := [16, 17, 18, 0, 8, 7, 9, 6, 10, 5, 11, 4, 12, 3, 13, 2, 14, 1, 15]

/-- `count` numbers of three bits. -/
def takeTriples : (count : Nat) → Bits → Except Fault (List Nat × Bits)
  | 0, bits => .ok ([], bits)
  | count + 1, bits =>
    match bits.takeNat 3 with
    | .error fault => .error fault
    | .ok (value, rest) =>
      match takeTriples count rest with
      | .error fault => .error fault
      | .ok (values, rest) => .ok (value :: values, rest)

/-- What a symbol of a list of codeword lengths adds to the list, given the last length before
it: the length itself, or a run of the last length or of zeros. -/
def takeRun (last : Option Nat) (symbol : Nat) (bits : Bits) : Except Fault (List Nat × Bits) :=
  let run (length base width : Nat) : Except Fault (List Nat × Bits) :=
    match bits.takeNat width with
    | .error fault => .error fault
    | .ok (more, rest) => .ok (List.replicate (base + more) length, rest)
  if symbol < 16 then .ok ([symbol], bits)
  else if symbol = 16 then
    match last with
    | none => .error .corrupt
    | some length => run length 3 2
  else if symbol = 17 then run 0 3 3
  else run 0 11 7

theorem length_takeRun_le {last : Option Nat} {symbol : Nat} {bits rest : Bits}
    {lengths : List Nat} (h : takeRun last symbol bits = .ok (lengths, rest)) :
    rest.length ≤ bits.length := by
  unfold takeRun at h
  grind [Bits.length_takeNat]

/-- A list of `count` codeword lengths. The last run has to end where the list does. -/
def takeLengths (code : PrefixCode) (count : Nat) (bits : Bits) (lengths : List Nat) :
    Except Fault (List Nat × Bits) :=
  if lengths.length = count then .ok (lengths, bits)
  else if count < lengths.length then .error .corrupt
  else
    match _decoded : code.decode bits with
    | .error fault => .error fault
    | .ok (symbol, rest) =>
      match _added : takeRun lengths.getLast? symbol rest with
      | .error fault => .error fault
      | .ok (run, rest) => takeLengths code count rest (lengths ++ run)
termination_by bits.length
decreasing_by
  have := PrefixCode.length_decode_lt _decoded
  have := length_takeRun_le _added
  omega

/-- The codes that a block brings with it. -/
def takeCodes (bits : Bits) : Except Fault (BlockCodes × Bits) := do
  let (symbols, bits) ← bits.takeNat 5
  let (distances, bits) ← bits.takeNat 5
  let (orders, bits) ← bits.takeNat 4
  let symbols := symbols + 257
  let distances := distances + 1
  if 286 < symbols || 30 < distances then .error .corrupt
  else
    let (listed, bits) ← takeTriples (orders + 4) bits
    let entries := lengthOrder.zip listed
    let own := (List.range 19).map fun symbol => (entries.lookup symbol).getD 0
    let code ← PrefixCode.ofLengths own false
    let (lengths, bits) ← takeLengths code (symbols + distances) bits []
    let distanceCode ← PrefixCode.ofLengths (lengths.drop symbols) true
    let symbolCode ← PrefixCode.ofLengths (lengths.take symbols) true
    return (⟨symbolCode, distanceCode⟩, bits)

/-- The body of a block, behind the two bits of its type. -/
def inflateBlock (low high : Bool) (bits : Bits) (out : Output) : Except Fault (Output × Bits) :=
  match high, low with
  | false, false => inflateStored bits out
  | false, true => do
    let codes ← fixedCodes
    inflateSymbols codes bits out
  | true, false => do
    let (codes, bits) ← takeCodes bits
    inflateSymbols codes bits out
  | true, true => .error .corrupt

theorem length_inflateSymbols_le {codes : BlockCodes} {bits rest : Bits} {out out' : Output}
    (h : inflateSymbols codes bits out = .ok (out', rest)) : rest.length ≤ bits.length := by
  fun_induction inflateSymbols codes bits out with
  | case1 => simp at h
  | case2 bits out symbol rest' decoded value _ ih =>
    have := PrefixCode.length_decode_lt decoded
    have := ih h
    omega
  | case3 bits out symbol rest' decoded _ =>
    have := PrefixCode.length_decode_lt decoded
    simp only [Except.ok.injEq, Prod.mk.injEq] at h
    obtain ⟨_, rfl⟩ := h
    omega
  | case4 => simp at h
  | case5 bits out symbol rest' decoded _ _ length distance rest'' repeated ih =>
    have := PrefixCode.length_decode_lt decoded
    have := length_takeRepetition_le repeated
    have := ih h
    omega

theorem length_inflateStored_le {bits rest : Bits} {out out' : Output}
    (h : inflateStored bits out = .ok (out', rest)) : rest.length ≤ bits.length := by
  unfold inflateStored at h
  split at h
  · simp at h
  · next first =>
    split at h
    · simp at h
    · next second =>
      split at h
      · split at h
        · simp at h
        · next bytes =>
          have := bits.length_align_le
          have := Bits.length_takeNat first
          have := Bits.length_takeNat second
          have := Bits.length_takeBytes bytes
          simp only [Except.ok.injEq, Prod.mk.injEq] at h
          obtain ⟨_, rfl⟩ := h
          omega
      · simp at h

theorem length_takeTriples_le {count : Nat} {bits rest : Bits} {values : List Nat}
    (h : takeTriples count bits = .ok (values, rest)) : rest.length ≤ bits.length := by
  fun_induction takeTriples count bits generalizing values rest with
  | case1 => simp_all
  | case2 => simp at h
  | case3 => simp at h
  | case4 count bits value rest₁ first values₁ rest₂ others ih =>
    have := Bits.length_takeNat first
    have := ih others
    simp only [Except.ok.injEq, Prod.mk.injEq] at h
    obtain ⟨_, rfl⟩ := h
    omega

theorem length_takeLengths_le {code : PrefixCode} {count : Nat} {bits rest : Bits}
    {lengths lengths' : List Nat} (h : takeLengths code count bits lengths = .ok (lengths', rest)) :
    rest.length ≤ bits.length := by
  fun_induction takeLengths code count bits lengths with
  | case1 => simp_all
  | case2 => simp at h
  | case3 => simp at h
  | case4 => simp at h
  | case5 bits lengths _ _ symbol rest₁ decoded run rest₂ added ih =>
    have := PrefixCode.length_decode_lt decoded
    have := length_takeRun_le added
    have := ih h
    omega

theorem length_takeCodes_le {bits rest : Bits} {codes : BlockCodes}
    (h : takeCodes bits = .ok (codes, rest)) : rest.length ≤ bits.length := by
  simp only [takeCodes, bind_eq_ok] at h
  obtain ⟨⟨symbols, bits₁⟩, first, ⟨distances, bits₂⟩, second, ⟨orders, bits₃⟩, third, h⟩ := h
  split at h
  · simp at h
  · simp only [bind_eq_ok] at h
    obtain ⟨⟨listed, bits₄⟩, fourth, _, _, ⟨lengths, bits₅⟩, fifth, _, _, _, _, _, rfl⟩ := h
    have := Bits.length_takeNat first
    have := Bits.length_takeNat second
    have := Bits.length_takeNat third
    have := length_takeTriples_le fourth
    have := length_takeLengths_le fifth
    simp only at *
    omega

theorem length_inflateBlock_le {low high : Bool} {bits rest : Bits} {out out' : Output}
    (h : inflateBlock low high bits out = .ok (out', rest)) : rest.length ≤ bits.length := by
  unfold inflateBlock at h
  split at h
  · exact length_inflateStored_le h
  · simp only [bind_eq_ok] at h
    obtain ⟨_, _, h⟩ := h
    exact length_inflateSymbols_le h
  · simp only [bind_eq_ok] at h
    obtain ⟨⟨_, _⟩, first, h⟩ := h
    exact Nat.le_trans (length_inflateSymbols_le h) (length_takeCodes_le first)
  · simp at h

/-- All blocks of a stream, and the bits behind the last one. -/
def inflateBlocks (bits : Bits) (out : Output) : Except Fault (Output × Bits) :=
  match bits with
  | last :: low :: high :: body =>
    match _block : inflateBlock low high body out with
    | .error fault => .error fault
    | .ok (out, rest) => if last then .ok (out, rest) else inflateBlocks rest out
  | _ => .error .incomplete
termination_by bits.length
decreasing_by
  have := length_inflateBlock_le _block
  simp only [List.length_cons]
  omega

/-- Expands a stream, and returns the bytes behind it as well. -/
def inflate (bytes : List UInt8) : Except Fault (List UInt8 × List UInt8) :=
  match inflateBlocks (.ofBytes bytes) #[] with
  | .error fault => .error fault
  | .ok (out, rest) => .ok (out.toList, bytes.drop (bytes.length - rest.length / 8))

end TripleCube.Gzip
