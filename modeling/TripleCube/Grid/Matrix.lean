import TripleCube.Grid.Axis
import TripleCube.Grid.Cell
import TripleCube.Sparse.BitSet

/-! Sparse matrices of bits. Rows are keyed by `y` and hold the `x` of the set cells; a
row exists only while it has a cell. -/
namespace TripleCube

structure Matrix (p : PageSize) where
  rows : PagedMap p (BitSet p)
  deriving DecidableEq

namespace Matrix

variable {p : PageSize}

def empty : Matrix p := ⟨.empty⟩

/-- Sets a cell and tells whether it was clear. -/
def setAt (m : Matrix p) (x y : UInt32) : Bool × Matrix p :=
  let (changed, row) := ((m.rows.get? y).getD .empty).set x
  (changed, ⟨m.rows.insert y row⟩)

/-- Clears a cell and tells whether it was set. A row goes with its last cell. -/
def clearAt (m : Matrix p) (x y : UInt32) : Bool × Matrix p :=
  match m.rows.get? y with
  | none => (false, m)
  | some row =>
    let (changed, row) := row.clear x
    (changed, ⟨if row.isEmpty then m.rows.erase y else m.rows.insert y row⟩)

def containsAt (m : Matrix p) (x y : UInt32) : Bool :=
  match m.rows.get? y with
  | none => false
  | some row => row.contains x

def set (m : Matrix p) (x y : Int32) : Except Error (Bool × Matrix p) := do
  let x ← Axis.concrete .x x
  let y ← Axis.concrete .y y
  return m.setAt x y

def clear (m : Matrix p) (x y : Int32) : Except Error (Bool × Matrix p) := do
  let x ← Axis.concrete .x x
  let y ← Axis.concrete .y y
  return m.clearAt x y

def contains (m : Matrix p) (x y : Int32) : Except Error Bool := do
  let x ← Axis.concrete .x x
  let y ← Axis.concrete .y y
  return m.containsAt x y

def isEmpty (m : Matrix p) : Bool := m.rows.isEmpty

def size (m : Matrix p) : Nat := total (fun entry => entry.2.size) m.rows.toList

def rowCount (m : Matrix p) : Nat := m.rows.size

/-- All set cells, by row and then along the row. -/
def cells (m : Matrix p) : List Cell :=
  m.rows.toList.flatMap fun (y, row) => row.toList.map fun x => ⟨x.toInt32, y.toInt32⟩

end Matrix

end TripleCube
