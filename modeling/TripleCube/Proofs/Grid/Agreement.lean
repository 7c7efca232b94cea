import TripleCube.Proofs.Grid.Canonical
import TripleCube.Proofs.Grid.CellSet
import TripleCube.Proofs.Grid.MatrixHorizon
import TripleCube.Proofs.Grid.CubeHorizon

/-! Grids that agree on their cells, whatever their page sizes. A search reads a grid as the list
of its points, and leaves a row or a plane when that has no cell; neither depends on the pages. So
grids that agree are searched alike. -/
namespace TripleCube

variable {p q : PageSize}

namespace Matrix

/-- Well-formed matrices with the same cells. -/
structure Agree (m : Matrix p) (other : Matrix q) : Prop where
  wf : m.WellFormed
  otherWf : other.WellFormed
  containsAt : ∀ x y, m.containsAt x y = other.containsAt x y

variable {m : Matrix p} {other : Matrix q} {cells : Finset Cell}

theorem Represents.agree (represents : m.Represents cells)
    (otherRepresents : other.Represents cells) : m.Agree other where
  wf := represents.wf
  otherWf := otherRepresents.wf
  containsAt x y := by
    rw [Bool.eq_iff_iff, represents.cell (y, x), otherRepresents.cell (y, x)]

/-- What two matrices answer tells whether they have the same cells. -/
theorem Represents.cells_unique {otherCells : Finset Cell} (represents : m.Represents cells)
    (otherRepresents : other.Represents otherCells)
    (same : ∀ x y, m.contains x y = other.contains x y) : cells = otherCells :=
  Finset.ext fun c => by
    rw [← represents.contains_iff, ← otherRepresents.contains_iff, same]

/-- Matrices of one page size that agree are equal. -/
theorem Agree.eq {other : Matrix p} (agree : m.Agree other) : m = other :=
  agree.wf.eq_of_containsAt agree.otherWf agree.containsAt

theorem Agree.points (agree : m.Agree other) : m.points = other.points := by
  refine Sorted.eq_of_mem_iff Place.lex_asymm (pairwise_points agree.wf)
    (pairwise_points agree.otherWf) fun point => ?_
  rw [mem_points agree.wf, mem_points agree.otherWf, agree.containsAt]

theorem Agree.isEmpty (agree : m.Agree other) : m.isEmpty = other.isEmpty := by
  rw [Bool.eq_iff_iff, isEmpty_iff agree.wf, isEmpty_iff agree.otherWf]
  simp only [agree.containsAt]

theorem Agree.next (agree : m.Agree other) {x y : Axis} {place : Place}
    (valid : place.Valid x y) : place.next m x y = place.next other x y := by
  rw [Place.next_eq agree.wf valid, Place.next_eq agree.otherWf valid, Place.remaining,
    Place.remaining, agree.points]

theorem Agree.settle (agree : m.Agree other) (place : Place) :
    place.settle m = place.settle other := by
  cases place with
  | row r bit =>
    have stored : m.rows.contains r = other.rows.contains r := by
      rw [Bool.eq_iff_iff, contains_rows_iff agree.wf, contains_rows_iff agree.otherWf]
      simp only [agree.containsAt]
    rw [Place.settle, Place.settle, stored]
  | rows start => rfl
  | finished => rfl

theorem Agree.search (agree : m.Agree other) (x y : Int32) : m.search x y = other.search x y := by
  rw [Matrix.search, Matrix.search, agree.isEmpty]

end Matrix

namespace Cube

/-- Well-formed cubes with the same cells. -/
structure Agree (c : Cube p) (other : Cube q) : Prop where
  wf : c.WellFormed
  otherWf : other.WellFormed
  containsAt : ∀ x y z, c.containsAt x y z = other.containsAt x y z

variable {c : Cube p} {other : Cube q} {voxels : Finset Voxel}

theorem Represents.agree (represents : c.Represents voxels)
    (otherRepresents : other.Represents voxels) : c.Agree other where
  wf := represents.wf
  otherWf := otherRepresents.wf
  containsAt x y z := by
    rw [Bool.eq_iff_iff, represents.voxel (z, y, x), otherRepresents.voxel (z, y, x)]

/-- Cubes of one page size that agree are equal but for the counter. -/
theorem Agree.eq {other : Cube p} (agree : c.Agree other) :
    c = { other with counter := c.counter } :=
  agree.wf.eq_of_containsAt (agree.otherWf.recount c.counter) agree.containsAt rfl

theorem Agree.points (agree : c.Agree other) : c.points = other.points := by
  refine Sorted.eq_of_mem_iff (PagedMap.lex_asymm Matrix.Place.lex_asymm)
    (pairwise_points agree.wf) (pairwise_points agree.otherWf) fun point => ?_
  rw [mem_points agree.wf, mem_points agree.otherWf, agree.containsAt]

theorem Agree.planeFor (agree : c.Agree other) (z : UInt32) :
    (c.planeFor z).Agree (other.planeFor z) where
  wf := agree.wf.planeFor z
  otherWf := agree.otherWf.planeFor z
  containsAt x y := by
    rw [containsAt_planeFor, containsAt_planeFor, agree.containsAt]

theorem Agree.isEmpty (agree : c.Agree other) : c.isEmpty = other.isEmpty := by
  rw [Bool.eq_iff_iff, isEmpty_iff agree.wf, isEmpty_iff agree.otherWf]
  simp only [agree.containsAt]

theorem Agree.next (agree : c.Agree other) {pattern : Pattern} {place : Place}
    (valid : place.Valid pattern) : place.next c pattern = place.next other pattern := by
  rw [Place.next_eq agree.wf valid, Place.next_eq agree.otherWf valid, Place.remaining,
    Place.remaining, agree.points]

/-- A search leaves a plane without a cell, and in any other plane what it leaves there. -/
theorem Place.settle_plane (wf : c.WellFormed) (z : UInt32) (inner : Matrix.Place) :
    (plane z inner).settle c = if (c.planeFor z).isEmpty then .planes (z.toUInt64 + 1)
      else .plane z (inner.settle (c.planeFor z)) := by
  rw [settle, wf.get?_planes]
  by_cases vacant : (c.planeFor z).isEmpty = true <;> simp [vacant]

theorem Agree.settle (agree : c.Agree other) (place : Place) :
    place.settle c = place.settle other := by
  cases place with
  | plane z inner =>
    have planes := agree.planeFor z
    rw [Place.settle_plane agree.wf, Place.settle_plane agree.otherWf, planes.isEmpty,
      planes.settle]
  | planes start => rfl
  | finished => rfl

theorem Agree.search (agree : c.Agree other) (x y z : Int32) :
    c.search x y z = other.search x y z := by
  rw [Cube.search, Cube.search, agree.isEmpty]

end Cube

end TripleCube
