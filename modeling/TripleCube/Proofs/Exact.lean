import TripleCube.Proofs.Grid.CellSet
import TripleCube.Proofs.Snapshot.Reload
import TripleCube.Proofs.Sparse.Exact

/-! The arithmetic of grids. A row and a plane are kept under a word that some coordinate names,
and so are the cells of a row, so the sign that a search gives to these words changes none of
them. With that, no computation on a map, a set, a matrix or a cube loses anything, whatever calls
have led to it. -/
namespace TripleCube

theorem IsCoordinate.le {index : UInt32} (valid : IsCoordinate index) :
    index.toNat ≤ 2 ^ 31 - 1 := Nat.le_sub_one_of_lt valid

/-- A search along an axis answers for an entry of the map. -/
theorem PagedMap.exists_of_findAlong? {p : PageSize} {σ β : Type} {m : PagedMap p σ}
    (wf : m.WellFormed) {axis : Axis} {start : UInt64} {f : UInt32 → σ → Option β} {answer : β}
    (found : m.findAlong? axis start f = some answer) :
    ∃ index value, m.get? index = some value ∧ f index value = some answer := by
  rw [findAlong?_eq wf] at found
  obtain ⟨⟨index, value⟩, listed, answered⟩ := List.exists_of_findSome?_eq_some found
  exact ⟨index, value, (mem_toList wf).mp (List.mem_filter.mp listed).1, answered⟩

namespace Matrix

variable {p : PageSize} {m : Matrix p} {x y : Axis} {cell : Cell}

theorem contains_of_hit? {row : BitSet p} (wf : row.WellFormed) {start : UInt64} {bit : UInt32}
    (hit : hit? row x start = some bit) : row.contains bit = true := by
  cases x with
  | any =>
    rw [Place.hit?_any_eq wf] at hit
    exact (BitSet.mem_toList wf).mp (List.mem_filter.mp (List.mem_of_head? hit)).1
  | only index =>
    rw [hit?] at hit
    split at hit
    · next set => exact Option.some.inj hit ▸ set
    · cases hit

namespace Place

theorem stored_of_searchRows (wf : m.WellFormed) {start : UInt64}
    (answer : (searchRows m x y start).1 = some cell) :
    ∃ point, m.containsAt point.2 point.1 = true ∧ cellOf point = cell := by
  rw [searchRows] at answer
  split at answer
  · next bit r found =>
    obtain ⟨index, row, stored, answered⟩ := PagedMap.exists_of_findAlong? wf.rows.wf found
    obtain ⟨hit, inRow, same⟩ := Option.map_eq_some_iff.mp answered
    cases same
    have set := contains_of_hit? (wf.rows.value r row stored).wf inRow
    exact ⟨(r, bit), containsAt_eq_true.mpr ⟨row, stored, set⟩, Option.some.inj answer⟩
  · cases answer

/-- What a step yields, at whatever place, is the cell of a point that is stored. -/
theorem stored_of_next (wf : m.WellFormed) {place : Place}
    (answer : (place.next m x y).1 = some cell) :
    ∃ point, m.containsAt point.2 point.1 = true ∧ cellOf point = cell := by
  cases place with
  | finished => cases answer
  | rows start => exact stored_of_searchRows wf answer
  | row r start =>
    rw [next] at answer
    split at answer
    · next bit found =>
      obtain ⟨row, stored, hit⟩ := Option.bind_eq_some_iff.mp found
      have set := contains_of_hit? (wf.rows.value r row stored).wf hit
      exact ⟨(r, bit), containsAt_eq_true.mpr ⟨row, stored, set⟩, Option.some.inj answer⟩
    · exact stored_of_searchRows wf answer

end Place

/-- No computation on a matrix loses anything, and what a search yields are the very numbers that
are stored. -/
structure Exact (m : Matrix p) : Prop where
  rows : m.rows.Exact
  row : ∀ y row, m.rows.get? y = some row → row.Exact ∧
    y.toNat ≤ 2 ^ 31 - 1 ∧ ∀ x, row.contains x = true → x.toNat ≤ 2 ^ 31 - 1
  found : ∀ x y (place : Place) cell, (place.next m x y).1 = some cell →
    ∃ a b, m.containsAt a b = true ∧ cell.x.toInt = a.toNat ∧ cell.y.toInt = b.toNat

theorem WellFormed.exact (wf : m.WellFormed) : m.Exact where
  rows := wf.rows.wf.exact
  row y row stored := by
    have isRow := wf.rows.value y row stored
    have bounded := fun x set => wf.bounded x y (containsAt_eq_true.mpr ⟨row, stored, set⟩)
    obtain ⟨first, member⟩ := isRow.inhabited
    exact ⟨isRow.wf.exact, (bounded first member).2.le, fun x set => (bounded x set).1.le⟩
  found x y place cell answer := by
    obtain ⟨⟨b, a⟩, stored, rfl⟩ := Place.stored_of_next wf answer
    obtain ⟨va, vb⟩ := wf.bounded a b stored
    exact ⟨a, b, stored, toInt_toInt32 va, toInt_toInt32 vb⟩

end Matrix

namespace Cube

variable {p : PageSize} {c : Cube p} {pattern : Pattern} {voxel : Voxel}

namespace Place

theorem stored_of_nextIn {plane : Matrix p} (wf : plane.WellFormed) {inner : Matrix.Place}
    {z : UInt32} {place : Place} (answer : nextIn pattern z plane inner = some (voxel, place)) :
    ∃ point, plane.containsAt point.2 point.1 = true ∧ voxelOf (z, point) = voxel := by
  rw [nextIn] at answer
  split at answer
  · next cell behind stepped =>
    cases answer
    obtain ⟨point, stored, rfl⟩ := Matrix.Place.stored_of_next wf (congrArg Prod.fst stepped)
    exact ⟨point, stored, rfl⟩
  · cases answer

theorem stored_of_searchPlanes (wf : c.WellFormed) {start : UInt64}
    (answer : (searchPlanes c pattern start).1 = some voxel) :
    ∃ point, c.containsAt point.2.2 point.2.1 point.1 = true ∧ voxelOf point = voxel := by
  rw [searchPlanes] at answer
  split at answer
  · next yielded place found =>
    cases answer
    obtain ⟨z, plane, stored, answered⟩ := PagedMap.exists_of_findAlong? wf.planes.wf found
    obtain ⟨point, inPlane, same⟩ := stored_of_nextIn (wf.planes.value z plane stored).wf answered
    exact ⟨(z, point), containsAt_eq_true.mpr ⟨plane, stored, inPlane⟩, same⟩
  · cases answer

/-- What a step yields, at whatever place, is the voxel of a point that is stored. -/
theorem stored_of_next (wf : c.WellFormed) {place : Place}
    (answer : (place.next c pattern).1 = some voxel) :
    ∃ point, c.containsAt point.2.2 point.2.1 point.1 = true ∧ voxelOf point = voxel := by
  cases place with
  | finished => cases answer
  | planes start => exact stored_of_searchPlanes wf answer
  | plane z inner =>
    rw [next] at answer
    split at answer
    · next yielded behind found =>
      cases answer
      obtain ⟨plane, stored, answered⟩ := Option.bind_eq_some_iff.mp found
      obtain ⟨point, inPlane, same⟩ :=
        stored_of_nextIn (wf.planes.value z plane stored).wf answered
      exact ⟨(z, point), containsAt_eq_true.mpr ⟨plane, stored, inPlane⟩, same⟩
    · exact stored_of_searchPlanes wf answer

end Place

/-- No computation on a cube loses anything, and what a search yields are the very numbers that
are stored. -/
structure Exact (c : Cube p) : Prop where
  planes : c.planes.Exact
  plane : ∀ z plane, c.planes.get? z = some plane → plane.Exact ∧ z.toNat ≤ 2 ^ 31 - 1
  found : ∀ pattern (place : Place) voxel, (place.next c pattern).1 = some voxel →
    ∃ x y z, c.containsAt x y z = true ∧
      voxel.x.toInt = x.toNat ∧ voxel.y.toInt = y.toNat ∧ voxel.z.toInt = z.toNat

theorem WellFormed.exact (wf : c.WellFormed) : c.Exact where
  planes := wf.planes.wf.exact
  plane z plane stored := by
    have isPlane := wf.planes.value z plane stored
    obtain ⟨x, y, set⟩ := isPlane.inhabited
    exact ⟨isPlane.wf.exact,
      (wf.bounded x y z (containsAt_eq_true.mpr ⟨plane, stored, set⟩)).le⟩
  found pattern place voxel answer := by
    obtain ⟨⟨z, y, x⟩, stored, rfl⟩ := Place.stored_of_next wf answer
    obtain ⟨vx, vy, vz⟩ := isCoordinate_of_containsAt wf stored
    exact ⟨x, y, z, stored, toInt_toInt32 vx, toInt_toInt32 vy, toInt_toInt32 vz⟩

end Cube

/-- For every page size, the base of every page fits its word, and no computation on a map or a
set after any writes, on a matrix after any calls, or on a cube after any calls and snapshots
loses anything. What the pages of the map and of the set hold lies where it was written, and what
a search of the matrix or the cube yields are the numbers that are stored. -/
theorem arithmetic_exact (p : PageSize) (α : Type) :
    (∀ offset : UInt32, (p.base offset).toNat = offset.toNat * p.val.toNat) ∧
    (∀ writes : List (PagedMap.Write α),
      let reached := (Calls.run PagedMap.step writes (.empty : PagedMap p α)).2
      reached.Exact ∧ reached.Traces writes) ∧
    (∀ writes : List BitSet.Write,
      let reached := (Calls.run BitSet.step writes (.empty : BitSet p)).2
      reached.Exact ∧ reached.Traces writes) ∧
    (∀ calls : List Matrix.Call, (Calls.run Matrix.step calls (.empty : Matrix p)).2.Exact) ∧
    ∀ c : Cube p, c.Reachable → c.Exact := by
  refine ⟨PageSize.toNat_base, PagedMap.exact_run p, BitSet.exact_run p, fun calls => ?_,
    fun c reached => ?_⟩
  · obtain ⟨-, represents⟩ := Calls.run_simulates Matrix.Represents
      (fun _ _ call represents => represents.step call) calls (Matrix.represents_empty (p := p))
    exact represents.wf.exact
  · obtain ⟨voxels, represents⟩ := reached.represents
    exact represents.wf.exact

/-- A cube with the greatest voxel that there is, in pages of three slots, which divide neither the
coordinates nor the index space evenly. -/
def cornerExample : Cube ⟨3, by decide⟩ :=
  Cube.empty.apply (.set 2147483647 2147483647 2147483647)

theorem arithmetic_exact_corner :
    cornerExample.Reachable ∧
    (Cube.Place.next cornerExample ⟨.any, .any, .any⟩ (.planes 0)).1 =
      some ⟨2147483647, 2147483647, 2147483647⟩ ∧
    ∃ x y z, cornerExample.containsAt x y z = true ∧
      2147483647 = x.toNat ∧ 2147483647 = y.toNat ∧ 2147483647 = z.toNat := by
  have reached : cornerExample.Reachable := .write _ .empty
  have answer : (Cube.Place.next cornerExample ⟨.any, .any, .any⟩ (.planes 0)).1 =
      some ⟨2147483647, 2147483647, 2147483647⟩ := by decide +kernel
  obtain ⟨-, -, -, -, exact⟩ := arithmetic_exact ⟨3, by decide⟩ Unit
  obtain ⟨x, y, z, stored, sameX, sameY, sameZ⟩ := (exact cornerExample reached).found _ _ _ answer
  exact ⟨reached, answer, x, y, z, stored, Int.ofNat.inj sameX, Int.ofNat.inj sameY,
    Int.ofNat.inj sameZ⟩

end TripleCube
