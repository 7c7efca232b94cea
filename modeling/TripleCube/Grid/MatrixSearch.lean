import TripleCube.Grid.Matrix
import TripleCube.Live

/-! Step-by-step searches of a matrix, row by row and then along the row. A search keeps
its place between steps: it stands within a row, or before the rows still to come. When
a write drops the row it stands in, the search goes on with the rows behind it, also if
a later write brings the row back. -/
namespace TripleCube

namespace Matrix

variable {p : PageSize}

/-- Where a search will look next. -/
inductive Place
  | row (y : UInt32) (bit : UInt64)
  | rows (start : UInt64)
  | finished
  deriving DecidableEq

/-- The first `x` that an axis admits in a row, at or past a position. -/
def hit? (row : BitSet p) (x : Axis) (start : UInt64) : Option UInt32 :=
  match x with
  | .any => row.next? start
  | .only x => if row.contains x then some x else none

namespace Place

/-- The place behind the cell `(x, y)`: a single `x` has no further hit in its row. -/
def behind (axis : Axis) (x y : UInt32) : Place :=
  match axis with
  | .any => .row y (x.toUInt64 + 1)
  | .only _ => .rows (y.toUInt64 + 1)

/-- The first hit in the rows at or past `start`, and the place behind it. -/
def searchRows (m : Matrix p) (x y : Axis) (start : UInt64) : Option Cell × Place :=
  match m.rows.findAlong? y start fun y row => (hit? row x 0).map (·, y) with
  | some (bit, y) => (some ⟨bit.toInt32, y.toInt32⟩, behind x bit y)
  | none => (none, .finished)

def next (m : Matrix p) (x y : Axis) : Place → Option Cell × Place
  | .finished => (none, .finished)
  | .rows start => searchRows m x y start
  | .row r start =>
    match (m.rows.get? r).bind (hit? · x start) with
    | some bit => (some ⟨bit.toInt32, r.toInt32⟩, behind x bit r)
    | none => searchRows m x y (r.toUInt64 + 1)

/-- Leaves a row that is gone. -/
def settle (m : Matrix p) : Place → Place
  | .row r bit => if m.rows.contains r then .row r bit else .rows (r.toUInt64 + 1)
  | place => place

end Place

/-- A search in progress. -/
structure Search where
  x : Axis
  y : Axis
  place : Place
  deriving DecidableEq

/-- Opens a search; over an empty matrix it has ended from the start. -/
def search (m : Matrix p) (x y : Int32) : Except Error Search := do
  let x ← Axis.pattern .x x
  let y ← Axis.pattern .y y
  return ⟨x, y, if m.isEmpty then .finished else .rows y.start⟩

instance : Traversal (Matrix p) Search Cell where
  next m s :=
    let (cell, place) := s.place.next m s.x s.y
    (cell, m, { s with place })
  settle m s := { s with place := s.place.settle m }

/-- The cells that match a pattern, in the order of the search. -/
def find (m : Matrix p) (x y : Int32) : Except Error (List Cell) := do
  let s ← m.search x y
  return (Traversal.drain m.size m s).1

end Matrix

end TripleCube
