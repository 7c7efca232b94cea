import TripleCube.Grid.Cell
import TripleCube.Live
import TripleCube.Shared.Search
import TripleCube.Sparse.BitSet

/-! Matrices whose rows are shared with the searches that stand in them. -/
namespace TripleCube

structure SharedMatrix (p : PageSize) where
  rows : Holder p (BitSet p)

namespace SharedMatrix

variable {p : PageSize}

def empty : SharedMatrix p := ⟨.empty .empty⟩

/-- Sets a cell and tells whether it was clear. -/
def setAt (m : SharedMatrix p) (x y : UInt32) : Bool × SharedMatrix p :=
  let (changed, rows) := m.rows.setIn y .empty (·.set x)
  (changed, ⟨rows⟩)

/-- Clears a cell and tells whether it was set. A row is dropped with its last cell. -/
def clearAt (m : SharedMatrix p) (x y : UInt32) : Bool × SharedMatrix p :=
  let (changed, rows) := m.rows.clearIn y (·.clear x) BitSet.isEmpty
  (changed, ⟨rows⟩)

def containsAt (m : SharedMatrix p) (x y : UInt32) : Bool :=
  match m.rows.handle? y with
  | none => false
  | some handle => (m.rows.object handle).contains x

def set (m : SharedMatrix p) (x y : Int32) : Except Error (Bool × SharedMatrix p) := do
  let x ← Axis.concrete .x x
  let y ← Axis.concrete .y y
  return m.setAt x y

def clear (m : SharedMatrix p) (x y : Int32) : Except Error (Bool × SharedMatrix p) := do
  let x ← Axis.concrete .x x
  let y ← Axis.concrete .y y
  return m.clearAt x y

def contains (m : SharedMatrix p) (x y : Int32) : Except Error Bool := do
  let x ← Axis.concrete .x x
  let y ← Axis.concrete .y y
  return m.containsAt x y

def isEmpty (m : SharedMatrix p) : Bool := m.rows.isEmpty

/-- How a row is searched from a position on. A single `x` has no further cell in its row. -/
def rowProbe (x : Axis) : Probe (BitSet p) UInt64 Cell where
  first := 0
  look y row bit :=
    match x with
    | .only x => (if row.contains x then some ⟨x.toInt32, y.toInt32⟩ else none, none)
    | .any =>
      match row.next? bit with
      | some x => (some ⟨x.toInt32, y.toInt32⟩, some (x.toUInt64 + 1))
      | none => (none, none)

/-- Where a search has come to, row by row. -/
structure Cursor where
  x : Axis
  rows : Holder.Cursor UInt64

namespace Cursor

def opening (x y : Axis) (done : Bool) : Cursor := ⟨x, .opening y done⟩

/-- Moves to the next matching cell. -/
def next (m : SharedMatrix p) (c : Cursor) : Option Cell × Cursor :=
  let (cell, rows) := c.rows.next (rowProbe c.x) m.rows
  (cell, { c with rows })

end Cursor

/-- Opens a search; over an empty matrix it has ended from the start. -/
def search (m : SharedMatrix p) (x y : Int32) : Except Error Cursor := do
  let x ← Axis.pattern .x x
  let y ← Axis.pattern .y y
  return .opening x y m.isEmpty

/-- A write does nothing to the searches. -/
instance : Traversal (SharedMatrix p) Cursor Cell where
  next m c :=
    let (cell, c) := c.next m
    (cell, m, c)
  settle _ c := c

end SharedMatrix

end TripleCube
