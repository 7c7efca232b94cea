/-! Cells of a matrix and of a cube, by their coordinates. -/
namespace TripleCube

structure Cell where
  x : Int32
  y : Int32
  deriving DecidableEq

structure Voxel where
  x : Int32
  y : Int32
  z : Int32
  deriving DecidableEq

namespace Cell

protected def toString (c : Cell) : String := s!"({c.x}, {c.y})"

/-- Cells are ordered by `x`, then by `y`. A search yields them in another order. -/
def le (a b : Cell) : Bool := a.x < b.x || (a.x == b.x && a.y ≤ b.y)

def sort (cells : List Cell) : List Cell := cells.mergeSort le

end Cell

namespace Voxel

/-- A matrix cell in the plane at depth `z`. -/
def onPlane (c : Cell) (z : Int32) : Voxel := ⟨c.x, c.y, z⟩

protected def toString (v : Voxel) : String := s!"({v.x}, {v.y}, {v.z})"

/-- Voxels are ordered by `x`, then `y`, then `z`. A search yields them in another order. -/
def le (a b : Voxel) : Bool :=
  a.x < b.x || (a.x == b.x && (a.y < b.y || (a.y == b.y && a.z ≤ b.z)))

def sort (voxels : List Voxel) : List Voxel := voxels.mergeSort le

end Voxel

end TripleCube
