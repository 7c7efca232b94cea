import TripleCube.Grid.Matrix

/-! Sparse cubes of bits. Planes are keyed by `z`; a plane exists only while it has a cell.
A cube carries an element counter beside its cells. `insert` and `remove` move it when the
cell changes, `set` and `clear` move it always, so repeated `set`s and `clear`s let it
drift from the number of cells. -/
namespace TripleCube

structure Cube (p : PageSize) where
  planes : PagedMap p (Matrix p)
  counter : Int64
  deriving DecidableEq

namespace Cube

variable {p : PageSize}

def empty : Cube p := ⟨.empty, 0⟩

def setAt (c : Cube p) (x y z : UInt32) : Bool × Cube p :=
  let (changed, plane) := ((c.planes.get? z).getD .empty).setAt x y
  (changed, { c with planes := c.planes.insert z plane })

/-- Clears a cell and tells whether it was set. A plane goes with its last cell. -/
def clearAt (c : Cube p) (x y z : UInt32) : Bool × Cube p :=
  match c.planes.get? z with
  | none => (false, c)
  | some plane =>
    let (changed, plane) := plane.clearAt x y
    (changed, { c with
      planes := if plane.isEmpty then c.planes.erase z else c.planes.insert z plane })

def containsAt (c : Cube p) (x y z : UInt32) : Bool :=
  match c.planes.get? z with
  | none => false
  | some plane => plane.containsAt x y

/-- Reads the coordinates of a cell. -/
def locate (x y z : Int32) : Except Error (UInt32 × UInt32 × UInt32) := do
  let x ← Axis.concrete .x x
  let y ← Axis.concrete .y y
  let z ← Axis.concrete .z z
  return (x, y, z)

/-- Sets a cell and counts it, whether or not it was set already. -/
def set (c : Cube p) (x y z : Int32) : Except Error (Bool × Cube p) := do
  let (x, y, z) ← locate x y z
  let (changed, c) := c.setAt x y z
  return (changed, { c with counter := c.counter + 1 })

/-- Clears a cell and uncounts it, whether or not it was clear already. -/
def clear (c : Cube p) (x y z : Int32) : Except Error (Bool × Cube p) := do
  let (x, y, z) ← locate x y z
  let (changed, c) := c.clearAt x y z
  return (changed, { c with counter := c.counter - 1 })

/-- Sets a cell and counts it if it was clear. -/
def insert (c : Cube p) (x y z : Int32) : Except Error (Bool × Cube p) := do
  let (x, y, z) ← locate x y z
  let (changed, c) := c.setAt x y z
  return (changed, if changed then { c with counter := c.counter + 1 } else c)

/-- Clears a cell and uncounts it if it was set. -/
def remove (c : Cube p) (x y z : Int32) : Except Error (Bool × Cube p) := do
  let (x, y, z) ← locate x y z
  let (changed, c) := c.clearAt x y z
  return (changed, if changed then { c with counter := c.counter - 1 } else c)

def contains (c : Cube p) (x y z : Int32) : Except Error Bool := do
  let (x, y, z) ← locate x y z
  return c.containsAt x y z

def isEmpty (c : Cube p) : Bool := c.planes.isEmpty

/-- The number of set cells, whatever the counter says. -/
def cardinality (c : Cube p) : Nat := total (fun entry => entry.2.size) c.planes.toList

def planeCount (c : Cube p) : Nat := c.planes.size

/-- All set cells, by plane, then by row, then along the row. -/
def voxels (c : Cube p) : List Voxel :=
  c.planes.toList.flatMap fun (z, plane) => plane.cells.map (Voxel.onPlane · z.toInt32)

end Cube

end TripleCube
