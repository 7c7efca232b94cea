/-! Compression of payloads. What compresses is not part of the store: any pair of functions
will do that can give back what was put in. -/
namespace TripleCube

class Compression where
  /-- Compresses, or tells in words why this failed. -/
  compress : List UInt8 → Except String (List UInt8)
  /-- Expands what was compressed, or tells in words why it cannot be expanded. -/
  decompress : List UInt8 → Except String (List UInt8)

namespace Compression

variable [Compression]

/-- All bytes can be compressed, and what comes out is expanded to them again. -/
def Lossless : Prop :=
  ∀ bytes, ∃ compressed, compress bytes = .ok compressed ∧ decompress compressed = .ok bytes

end Compression

end TripleCube
