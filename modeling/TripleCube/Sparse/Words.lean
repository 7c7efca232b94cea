/-! Bits packed into 64-bit words: bit `s` of a word list is bit `s % 64` of word `s / 64`. -/
namespace TripleCube

abbrev Words := List UInt64

namespace Words

/-- As many words as `bits` bits need, all of them zero. -/
def zeros (bits : Nat) : Words := List.replicate ((bits + 63) / 64) 0

/-- The word in which only the bit of a slot is set. -/
def mask (slot : Nat) : UInt64 := 1 <<< (slot % 64).toUInt64

def get (words : Words) (slot : Nat) : Bool :=
  match words[slot / 64]? with
  | some word => word &&& mask slot != 0
  | none => false

def set (words : Words) (slot : Nat) : Words :=
  words.modify (slot / 64) (· ||| mask slot)

def clear (words : Words) (slot : Nat) : Words :=
  words.modify (slot / 64) (· &&& ~~~mask slot)

/-- The number of zero bits below the lowest one bit, or 64 for the zero word. -/
def trailingZeros (word : UInt64) : Nat := countUpTo 64 word
where
  countUpTo : (limit : Nat) → UInt64 → Nat
    | 0, _ => 0
    | limit + 1, word => if word &&& 1 = 1 then 0 else countUpTo limit (word >>> 1) + 1

/-- The least set slot of the words; the first word listed has number `word`. -/
def firstSet? : Words → (word : Nat) → Option Nat
  | [], _ => none
  | bits :: rest, word =>
    if bits = 0 then firstSet? rest (word + 1) else some (word * 64 + trailingZeros bits)

/-- The least set slot at or past `start`. The bits below `start` in its own word are
masked off, and from then on whole words are skipped. -/
def nextSet? (words : Words) (start : Nat) : Option Nat :=
  match words.drop (start / 64) with
  | [] => none
  | bits :: rest =>
    firstSet? ((bits &&& (~~~0 <<< (start % 64).toUInt64)) :: rest) (start / 64)

/-- The set slots in ascending order; the first word listed has number `word`. -/
def slotsFrom : Words → (word : Nat) → List Nat
  | [], _ => []
  | bits :: rest, word =>
    ((List.range 64).filter fun slot => bits &&& mask slot != 0).map (word * 64 + ·)
      ++ slotsFrom rest (word + 1)

def toList (words : Words) : List Nat := slotsFrom words 0

end Words

end TripleCube
