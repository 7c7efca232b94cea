import TripleCube.Grid.Cube
import TripleCube.Snapshot.Codec

/-! Snapshots of a cube: its page size, its element counter and its cells in the order of
a search. Reading one sets the cells in whatever order they are listed and takes the
counter as it stands. -/
namespace TripleCube

namespace Snapshot

/-- A cell as its coordinates `x`, `y` and `z`. -/
def voxel : Codec Voxel where
  encode v := (Codec.pair .int32 (.pair .int32 .int32)).encode (v.x, v.y, v.z)
  decode source := do
    let ((x, y, z), source) ← (Codec.pair .int32 (.pair .int32 .int32)).decode source
    return (⟨x, y, z⟩, source)

/-- Page size, counter and cells. -/
abbrev Image := UInt32 × Int64 × List Voxel

def image : Codec Image := .pair .uint32 (.pair .int64 (.list voxel))

end Snapshot

namespace Cube

variable {p : PageSize}

def image (c : Cube p) : Snapshot.Image := (p.val, c.counter, c.voxels)

def write (c : Cube p) (sink : Sink) : Except Error Sink := Snapshot.image.write c.image sink

/-- The bytes of a snapshot. -/
def snapshot (c : Cube p) : List UInt8 := Snapshot.image.encode c.image

/-- Sets cells in the order in which they are listed; the counter stays. -/
def setAll (c : Cube p) : List Voxel → Except Error (Cube p)
  | [] => .ok c
  | v :: rest => do
    let (x, y, z) ← locate v.x v.y v.z
    setAll (c.setAt x y z).2 rest

/-- The cube of a snapshot, with the page size that the snapshot names. -/
def read (source : Source) : Except Error ((p : PageSize) × Cube p) := do
  let (size, counter, voxels) ← Snapshot.image.read source
  match PageSize.ofUInt32? size with
  | none => throw (.snapshot .zeroPageSize)
  | some p =>
    let c ← (empty (p := p)).setAll voxels
    return ⟨p, { c with counter }⟩

end Cube

end TripleCube
