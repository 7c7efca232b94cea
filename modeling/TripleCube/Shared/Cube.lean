import TripleCube.Grid.Cube
import TripleCube.Shared.Matrix

/-! Cubes whose planes are shared with the searches that stand in them, as the rows of each
plane are. -/
namespace TripleCube

structure SharedCube (p : PageSize) where
  planes : Holder p (SharedMatrix p)
  counter : Int64

namespace SharedCube

variable {p : PageSize}

def empty : SharedCube p := ⟨.empty .empty, 0⟩

def setAt (c : SharedCube p) (x y z : UInt32) : Bool × SharedCube p :=
  let (changed, planes) := c.planes.setIn z .empty (·.setAt x y)
  (changed, { c with planes })

/-- Clears a cell and tells whether it was set. A plane is dropped with its last cell. -/
def clearAt (c : SharedCube p) (x y z : UInt32) : Bool × SharedCube p :=
  let (changed, planes) := c.planes.clearIn z (·.clearAt x y) SharedMatrix.isEmpty
  (changed, { c with planes })

def containsAt (c : SharedCube p) (x y z : UInt32) : Bool :=
  match c.planes.handle? z with
  | none => false
  | some handle => (c.planes.object handle).containsAt x y

/-- Sets a cell and counts it, whether or not it was set already. -/
def set (c : SharedCube p) (x y z : Int32) : Except Error (Bool × SharedCube p) := do
  let (x, y, z) ← Cube.locate x y z
  let (changed, c) := c.setAt x y z
  return (changed, { c with counter := c.counter + 1 })

/-- Clears a cell and uncounts it, whether or not it was clear already. -/
def clear (c : SharedCube p) (x y z : Int32) : Except Error (Bool × SharedCube p) := do
  let (x, y, z) ← Cube.locate x y z
  let (changed, c) := c.clearAt x y z
  return (changed, { c with counter := c.counter - 1 })

/-- Sets a cell and counts it if it was clear. -/
def insert (c : SharedCube p) (x y z : Int32) : Except Error (Bool × SharedCube p) := do
  let (x, y, z) ← Cube.locate x y z
  let (changed, c) := c.setAt x y z
  return (changed, if changed then { c with counter := c.counter + 1 } else c)

/-- Clears a cell and uncounts it if it was set. -/
def remove (c : SharedCube p) (x y z : Int32) : Except Error (Bool × SharedCube p) := do
  let (x, y, z) ← Cube.locate x y z
  let (changed, c) := c.clearAt x y z
  return (changed, if changed then { c with counter := c.counter - 1 } else c)

def contains (c : SharedCube p) (x y z : Int32) : Except Error Bool := do
  let (x, y, z) ← Cube.locate x y z
  return c.containsAt x y z

def isEmpty (c : SharedCube p) : Bool := c.planes.isEmpty

/-- How a plane is searched: as a matrix is, until its end. -/
def planeProbe (x y : Axis) : Probe (SharedMatrix p) SharedMatrix.Cursor Voxel where
  first := .opening x y false
  look z plane c :=
    match c.next plane with
    | (some cell, c) => (some (.onPlane cell z.toInt32), some c)
    | (none, _) => (none, none)

/-- Where a search has come to, plane by plane. -/
structure Cursor where
  x : Axis
  y : Axis
  planes : Holder.Cursor SharedMatrix.Cursor

/-- Moves to the next matching voxel. -/
def Cursor.next (s : SharedCube p) (c : Cursor) : Option Voxel × Cursor :=
  let (voxel, planes) := c.planes.next (planeProbe c.x c.y) s.planes
  (voxel, { c with planes })

/-- Opens a search; over an empty cube it has ended from the start. -/
def search (c : SharedCube p) (x y z : Int32) : Except Error Cursor := do
  let x ← Axis.pattern .x x
  let y ← Axis.pattern .y y
  let z ← Axis.pattern .z z
  return ⟨x, y, .opening z c.isEmpty⟩

/-- A write does nothing to the searches. -/
instance : Traversal (SharedCube p) Cursor Voxel where
  next s c :=
    let (voxel, c) := c.next s
    (voxel, s, c)
  settle _ c := c

end SharedCube

end TripleCube
