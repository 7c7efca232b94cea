/-! Cyclic redundancy checks of 32 bits, with the least significant bit first, a register
that starts with all bits set, and a result that is inverted. -/
namespace TripleCube

/-- A check, by its polynomial in reversed bit order. -/
structure Crc where
  polynomial : UInt32

namespace Crc

/-- The check of content hashes. -/
def castagnoli : Crc := ⟨0x82F63B78⟩

/-- The check of gzip streams. -/
def ieee : Crc := ⟨0xEDB88320⟩

/-- Divides one bit out of the register. -/
def shift (crc : Crc) (register : UInt32) : UInt32 :=
  if register &&& 1 = 1 then (register >>> 1) ^^^ crc.polynomial else register >>> 1

def shifts (crc : Crc) : Nat → UInt32 → UInt32
  | 0, register => register
  | count + 1, register => crc.shifts count (crc.shift register)

def step (crc : Crc) (register : UInt32) (byte : UInt8) : UInt32 :=
  crc.shifts 8 (register ^^^ byte.toUInt32)

/-- A check in progress. -/
structure State where
  register : UInt32
  deriving DecidableEq

def start : State := ⟨0xFFFFFFFF⟩

def update (crc : Crc) (state : State) (bytes : List UInt8) : State :=
  ⟨bytes.foldl crc.step state.register⟩

def State.finish (state : State) : UInt32 := ~~~state.register

/-- The check of some bytes. -/
def checksum (crc : Crc) (bytes : List UInt8) : UInt32 := (crc.update start bytes).finish

/-- It does not matter how the bytes are cut into pieces. -/
theorem update_append (crc : Crc) (state : State) (first second : List UInt8) :
    crc.update state (first ++ second) = crc.update (crc.update state first) second := by
  simp [update]

end Crc

/-- The content hash of a record: the check of its tag and the payload behind it. -/
def contentHash (tag : UInt8) (payload : List UInt8) : UInt32 :=
  Crc.castagnoli.checksum (tag :: payload)

end TripleCube
