import TripleCube.Grid.Cube
import TripleCube.Grid.MatrixSearch

/-! Step-by-step searches of a cube, plane by plane and in each plane as in a matrix. When
a write drops the plane a search stands in, the search goes on with the planes behind it. -/
namespace TripleCube

namespace Cube

variable {p : PageSize}

/-- Where a search will look next. -/
inductive Place
  | plane (z : UInt32) (inner : Matrix.Place)
  | planes (start : UInt64)
  | finished
  deriving DecidableEq

/-- What a search admits along each axis. -/
structure Pattern where
  x : Axis
  y : Axis
  z : Axis
  deriving DecidableEq

namespace Place

/-- One step within a plane. -/
def nextIn (pattern : Pattern) (z : UInt32) (m : Matrix p) (inner : Matrix.Place) :
    Option (Voxel × Place) :=
  match inner.next m pattern.x pattern.y with
  | (some cell, inner) => some (.onPlane cell z.toInt32, .plane z inner)
  | (none, _) => none

/-- The first hit in the planes at or past `start`, and the place behind it. -/
def searchPlanes (c : Cube p) (pattern : Pattern) (start : UInt64) : Option Voxel × Place :=
  match c.planes.findAlong? pattern.z start fun z m =>
      nextIn pattern z m (.rows pattern.y.start) with
  | some (voxel, place) => (some voxel, place)
  | none => (none, .finished)

def next (c : Cube p) (pattern : Pattern) : Place → Option Voxel × Place
  | .finished => (none, .finished)
  | .planes start => searchPlanes c pattern start
  | .plane z inner =>
    match (c.planes.get? z).bind fun m => nextIn pattern z m inner with
    | some (voxel, place) => (some voxel, place)
    | none => searchPlanes c pattern (z.toUInt64 + 1)

/-- Leaves a plane, or a row of it, that is gone. -/
def settle (c : Cube p) : Place → Place
  | .plane z inner =>
    match c.planes.get? z with
    | some m => .plane z (inner.settle m)
    | none => .planes (z.toUInt64 + 1)
  | place => place

end Place

/-- A search in progress. -/
structure Search where
  pattern : Pattern
  place : Place
  deriving DecidableEq

/-- Opens a search; over an empty cube it has ended from the start. -/
def search (c : Cube p) (x y z : Int32) : Except Error Search := do
  let x ← Axis.pattern .x x
  let y ← Axis.pattern .y y
  let z ← Axis.pattern .z z
  return ⟨⟨x, y, z⟩, if c.isEmpty then .finished else .planes z.start⟩

instance : Traversal (Cube p) Search Voxel where
  next c s :=
    let (voxel, place) := s.place.next c s.pattern
    (voxel, c, { s with place })
  settle c s := { s with place := s.place.settle c }

/-- The voxels that match a pattern, in the order of the search. -/
def find (c : Cube p) (x y z : Int32) : Except Error (List Voxel) := do
  let s ← c.search x y z
  return (Traversal.drain c.cardinality c s).1

end Cube

end TripleCube
