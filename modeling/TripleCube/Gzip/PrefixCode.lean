import TripleCube.Gzip.Bits
import TripleCube.Total

/-! Prefix codes, given by the length of each symbol's codeword. The codewords of one
length are consecutive numbers in the order of their symbols, and shorter ones come first. -/
namespace TripleCube.Gzip

/-- What a sequence of bits leads to. -/
inductive CodeTree
  | unused
  | leaf (symbol : Nat)
  | fork (zero one : CodeTree)

namespace CodeTree

/-- Puts a symbol at the end of a path. -/
def insert : CodeTree → (path : Bits) → (symbol : Nat) → CodeTree
  | _, [], symbol => leaf symbol
  | fork zero one, bit :: path, symbol =>
    if bit then fork zero (one.insert path symbol) else fork (zero.insert path symbol) one
  | _, bit :: path, symbol =>
    if bit then fork unused (unused.insert path symbol)
    else fork (unused.insert path symbol) unused

/-- Follows the bits to a symbol. A path that no codeword has is corrupt as soon as it
leaves the tree. -/
def walk : CodeTree → Bits → Except Fault (Nat × Bits)
  | leaf symbol, bits => .ok (symbol, bits)
  | unused, _ => .error .corrupt
  | fork _ _, [] => .error .incomplete
  | fork zero one, bit :: rest => if bit then one.walk rest else zero.walk rest

theorem length_walk_le {tree : CodeTree} {bits rest : Bits} {symbol : Nat}
    (h : tree.walk bits = .ok (symbol, rest)) : rest.length ≤ bits.length := by
  fun_induction walk tree bits <;> grind

end CodeTree

/-- A prefix code, by what its first bit leads to. Each codeword has at least one bit. -/
structure PrefixCode where
  zero : CodeTree
  one : CodeTree

namespace PrefixCode

def decode (code : PrefixCode) : Bits → Except Fault (Nat × Bits)
  | [] => .error .incomplete
  | bit :: rest => if bit then code.one.walk rest else code.zero.walk rest

theorem length_decode_lt {code : PrefixCode} {bits rest : Bits} {symbol : Nat}
    (h : code.decode bits = .ok (symbol, rest)) : rest.length < bits.length := by
  cases bits with
  | nil => simp [decode] at h
  | cons bit bits =>
    simp only [decode] at h
    split at h
    all_goals
      have := CodeTree.length_walk_le h
      simp only [List.length_cons]
      omega

/-- The longest codeword has this many bits. -/
def maxLength : Nat := 15

/-- The path of a codeword, highest bit first. -/
def path (length codeword : Nat) : Bits := (List.range length).reverse.map codeword.testBit

/-- Enters the codewords from a length on; `next` is the first codeword of that length. -/
def enter (lengths : List Nat) : (more length next : Nat) → CodeTree → CodeTree
  | 0, _, _, tree => tree
  | more + 1, length, next, tree =>
    let symbols := (lengths.zipIdx.filter fun entry => entry.1 == length).map Prod.snd
    let tree := (symbols.zipIdx next).foldl
      (fun tree (symbol, codeword) => tree.insert (path length codeword) symbol) tree
    enter lengths more (length + 1) ((next + symbols.length) * 2) tree

/-- Whether the codewords fill the code space exactly. -/
def isComplete (lengths : List Nat) : Bool :=
  total (fun length => 1 <<< (maxLength - length)) (lengths.filter (· != 0)) == 1 <<< maxLength

/-- Whether there is no symbol, or a single one with a codeword of one bit. -/
def isMinimal (lengths : List Nat) : Bool := total id lengths ≤ 1

/-- The code with the given codeword lengths; zero marks a symbol without a codeword. A code
that is not complete is refused, except that a minimal one is accepted where it may be
`sparse`. -/
def ofLengths (lengths : List Nat) (sparse : Bool) : Except Fault PrefixCode :=
  if isComplete lengths || (sparse && isMinimal lengths) then
    match enter lengths maxLength 1 0 (.fork .unused .unused) with
    | .fork zero one => .ok ⟨zero, one⟩
    | _ => .error .corrupt
  else .error .corrupt

end PrefixCode

end TripleCube.Gzip
