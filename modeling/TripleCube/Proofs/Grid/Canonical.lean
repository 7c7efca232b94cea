import TripleCube.Proofs.Grid.Cube
import TripleCube.Proofs.Sparse.Canonical

/-! Grids have one form for their cells. Rows and planes are determined by what is in them, and
none of them is empty, so two well-formed matrices with the same cells are equal. Two cubes are
when they have the same counter as well. -/
namespace TripleCube

namespace Matrix

variable {p : PageSize} {m other : Matrix p}

/-- The matrix has a row unless that row would be empty. -/
theorem WellFormed.get?_rows (wf : m.WellFormed) (y : UInt32) :
    m.rows.get? y = if (m.rowFor y).isEmpty then none else some (m.rowFor y) := by
  rw [Matrix.rowFor]
  cases stored : m.rows.get? y with
  | none => rfl
  | some row => simp [(wf.rows.value y row stored).isEmpty_eq_false]

/-- A matrix is determined by its cells. -/
theorem WellFormed.eq_of_containsAt (wf : m.WellFormed) (otherWf : other.WellFormed)
    (same : ∀ x y, m.containsAt x y = other.containsAt x y) : m = other := by
  have rowFor : ∀ y, m.rowFor y = other.rowFor y := fun y =>
    (wf.rowFor y).eq_of_contains (otherWf.rowFor y) fun x => by
      rw [contains_rowFor, contains_rowFor, same]
  have rows := wf.rows.wf.eq_of_get? otherWf.rows.wf fun y => by
    rw [wf.get?_rows, otherWf.get?_rows, rowFor]
  cases m
  cases other
  simp_all

end Matrix

namespace Cube

variable {p : PageSize} {c other : Cube p}

/-- The cube has a plane unless that plane would be empty. -/
theorem WellFormed.get?_planes (wf : c.WellFormed) (z : UInt32) :
    c.planes.get? z = if (c.planeFor z).isEmpty then none else some (c.planeFor z) := by
  rw [Cube.planeFor]
  cases stored : c.planes.get? z with
  | none => rfl
  | some plane => simp [(wf.planes.value z plane stored).isEmpty_eq_false]

/-- A cube is determined by its cells and its counter. -/
theorem WellFormed.eq_of_containsAt (wf : c.WellFormed) (otherWf : other.WellFormed)
    (same : ∀ x y z, c.containsAt x y z = other.containsAt x y z)
    (counter : c.counter = other.counter) : c = other := by
  have planeFor : ∀ z, c.planeFor z = other.planeFor z := fun z =>
    (wf.planeFor z).eq_of_containsAt (otherWf.planeFor z) fun x y => by
      rw [containsAt_planeFor, containsAt_planeFor, same]
  have planes := wf.planes.wf.eq_of_get? otherWf.planes.wf fun z => by
    rw [wf.get?_planes, otherWf.get?_planes, planeFor]
  cases c
  cases other
  simp_all

end Cube

end TripleCube
