import TripleCube.Grid.CubeSearch
import TripleCube.Proofs.Grid.Cube
import TripleCube.Proofs.Grid.MatrixSearch

/-! One step of a cube search, at any place and over any cube. As in a matrix, a step yields
the first of the points that remain, and the rest is what remains behind it. -/
namespace TripleCube.Cube.Place

variable {p : PageSize} {c : Cube p} {pattern : Pattern} {place : Place}

/-- A search stands only within planes that it wants, and there at a valid place. -/
def Valid (pattern : Pattern) : Place → Prop
  | .plane z inner => pattern.z.admits z = true ∧ inner.Valid pattern.x pattern.y
  | .planes _ => True
  | .finished => True

/-- Where a search begins in each plane. -/
def entrance (pattern : Pattern) : Matrix.Place := .rows pattern.y.start

theorem valid_entrance (pattern : Pattern) : (entrance pattern).Valid pattern.x pattern.y :=
  trivial

/-- Whether a point is ahead of a place and matches the pattern. -/
def admits (pattern : Pattern) : Place → UInt32 × UInt32 × UInt32 → Bool
  | .finished, _ => false
  | .planes start, point =>
    pattern.z.admits point.1 && decide (start ≤ point.1.toUInt64) &&
      (entrance pattern).admits pattern.x pattern.y point.2
  | .plane z inner, point =>
    pattern.z.admits point.1 && (z == point.1 && inner.admits pattern.x pattern.y point.2 ||
      decide (z.toUInt64 + 1 ≤ point.1.toUInt64) &&
        (entrance pattern).admits pattern.x pattern.y point.2)

/-- What a search has still to yield, in order. -/
def remaining (c : Cube p) (pattern : Pattern) (place : Place) : List (UInt32 × UInt32 × UInt32) :=
  c.points.filter (place.admits pattern)

@[simp] theorem remaining_finished (c : Cube p) (pattern : Pattern) :
    remaining c pattern .finished = [] :=
  List.filter_eq_nil_iff.mpr (by simp [admits])

/-- The place behind a point. -/
def behind (pattern : Pattern) (point : UInt32 × UInt32 × UInt32) : Place :=
  .plane point.1 (Matrix.Place.behind pattern.x point.2.2 point.2.1)

/-- The answer and the next place of a step that found a point, or none. -/
def found (pattern : Pattern) : Option (UInt32 × UInt32 × UInt32) → Option Voxel × Place
  | some point => (some (voxelOf point), behind pattern point)
  | none => (none, .finished)

theorem nextIn_eq {plane : Matrix p} (wf : plane.WellFormed) {inner : Matrix.Place}
    (valid : inner.Valid pattern.x pattern.y) (z : UInt32) :
    nextIn pattern z plane inner =
      (plane.points.filter (inner.admits pattern.x pattern.y)).head?.map fun item =>
        (voxelOf (z, item), behind pattern (z, item)) := by
  rw [nextIn, Matrix.Place.next_eq wf valid, Matrix.Place.remaining]
  cases (plane.points.filter (inner.admits pattern.x pattern.y)).head? <;> rfl

theorem searchPlanes_eq (wf : c.WellFormed) (start : UInt64) :
    searchPlanes c pattern start = found pattern (remaining c pattern (.planes start)).head? := by
  have search : c.planes.findAlong? pattern.z start
        (fun z plane => nextIn pattern z plane (entrance pattern)) =
      (remaining c pattern (.planes start)).head?.map fun point =>
        (voxelOf point, behind pattern point) :=
    PagedMap.findAlong?_eq_head? wf.planes.wf fun z plane stored =>
      nextIn_eq (wf.planes.value z plane stored).wf (valid_entrance pattern) z
  rw [searchPlanes, ← entrance, search]
  cases (remaining c pattern (.planes start)).head? <;> rfl

/-- A step yields the first remaining point and stands behind it. -/
theorem next_eq (wf : c.WellFormed) (valid : place.Valid pattern) :
    place.next c pattern = found pattern (remaining c pattern place).head? := by
  cases place with
  | finished =>
    rw [next, remaining_finished]
    rfl
  | planes start => exact searchPlanes_eq wf start
  | plane z inner =>
    have search : ((c.planes.get? z).bind fun plane => nextIn pattern z plane inner).or
          (c.planes.findAlong? pattern.z (z.toUInt64 + 1) fun z plane =>
            nextIn pattern z plane (entrance pattern)) =
        (remaining c pattern (.plane z inner)).head?.map fun point =>
          (voxelOf point, behind pattern point) :=
      PagedMap.resume_eq_head? wf.planes.wf Matrix.Place.lex_asymm
        (fun z plane stored => Matrix.pairwise_points (wf.planes.value z plane stored).wf) valid.1
        (inner.admits pattern.x pattern.y) ((entrance pattern).admits pattern.x pattern.y)
        (fun z plane => nextIn pattern z plane inner)
        (fun z plane => nextIn pattern z plane (entrance pattern))
        (fun point => (voxelOf point, behind pattern point))
        (fun z plane stored => nextIn_eq (wf.planes.value z plane stored).wf valid.2 z)
        (fun z plane stored =>
          nextIn_eq (wf.planes.value z plane stored).wf (valid_entrance pattern) z)
    rw [next]
    cases inPlane : (c.planes.get? z).bind fun plane => nextIn pattern z plane inner with
    | none =>
      rw [inPlane, Option.none_or] at search
      dsimp only
      rw [searchPlanes, ← entrance, search]
      cases (remaining c pattern (.plane z inner)).head? <;> rfl
    | some hit =>
      rw [inPlane, Option.some_or] at search
      obtain ⟨point, first, same⟩ := Option.map_eq_some_iff.mp search.symm
      cases same
      rw [first]
      rfl

/-- Ahead of the place behind a point is what was ahead and comes after the point. -/
theorem admits_behind (valid : place.Valid pattern) {point : UInt32 × UInt32 × UInt32}
    (ahead : place.admits pattern point = true) (other : UInt32 × UInt32 × UInt32) :
    (behind pattern point).admits pattern other = true ↔
      place.admits pattern other = true ∧
        Prod.Lex (· < ·) (Prod.Lex (· < ·) (· < ·)) point other := by
  have entered : (entrance pattern).admits pattern.x pattern.y point.2 = true → _ :=
    fun ahead => Matrix.Place.admits_behind (valid_entrance pattern) ahead other.2
  rw [Prod.lex_def]
  cases place with
  | finished => simp [admits] at ahead
  | planes start =>
    simp only [admits, behind, succ_le_iff] at ahead ⊢
    grind [position_le_of_lt]
  | plane z inner =>
    have stayed : inner.admits pattern.x pattern.y point.2 = true → _ :=
      fun ahead => Matrix.Place.admits_behind valid.2 ahead other.2
    simp only [admits, behind, succ_le_iff] at ahead ⊢
    grind

theorem admits_plane {point : UInt32 × UInt32 × UInt32}
    (ahead : place.admits pattern point = true) : pattern.z.admits point.1 = true := by
  cases place <;> simp_all [admits]

theorem valid_behind {point : UInt32 × UInt32 × UInt32} (ahead : place.admits pattern point = true)
    (row : pattern.y.admits point.2.1 = true) : (behind pattern point).Valid pattern :=
  ⟨admits_plane ahead, Matrix.Place.valid_behind row _⟩

theorem admits_row {point : UInt32 × UInt32 × UInt32} (ahead : place.admits pattern point = true) :
    pattern.y.admits point.2.1 = true := by
  cases place with
  | finished => simp [admits] at ahead
  | planes start =>
    simp only [admits, Bool.and_eq_true] at ahead
    exact Matrix.Place.admits_row ahead.2
  | plane z inner =>
    simp only [admits, Bool.and_eq_true, Bool.or_eq_true] at ahead
    rcases ahead.2 with here | later
    · exact Matrix.Place.admits_row here.2
    · exact Matrix.Place.admits_row later.2

theorem admits_of_head? {point : UInt32 × UInt32 × UInt32}
    (first : (remaining c pattern place).head? = some point) : place.admits pattern point = true :=
  (List.mem_filter.mp (List.mem_of_head? first)).2

/-- Behind the first remaining point the others remain. -/
theorem remaining_behind (wf : c.WellFormed) (valid : place.Valid pattern)
    {point : UInt32 × UInt32 × UInt32} (first : (remaining c pattern place).head? = some point) :
    remaining c pattern (behind pattern point) = (remaining c pattern place).tail :=
  Sorted.filter_eq_tail (PagedMap.lex_asymm Matrix.Place.lex_asymm) (pairwise_points wf) first
    (admits_behind valid (admits_of_head? first))

theorem next_fst (wf : c.WellFormed) (valid : place.Valid pattern) :
    (place.next c pattern).1 = (remaining c pattern place).head?.map voxelOf := by
  rw [next_eq wf valid]
  cases (remaining c pattern place).head? <;> rfl

theorem remaining_next (wf : c.WellFormed) (valid : place.Valid pattern) :
    remaining c pattern (place.next c pattern).2 = (remaining c pattern place).tail := by
  rw [next_eq wf valid]
  cases first : (remaining c pattern place).head? with
  | some point => exact remaining_behind wf valid first
  | none =>
    rw [List.head?_eq_none_iff.mp first]
    exact remaining_finished c pattern

theorem valid_next (wf : c.WellFormed) (valid : place.Valid pattern) :
    (place.next c pattern).2.Valid pattern := by
  rw [next_eq wf valid]
  cases first : (remaining c pattern place).head? with
  | some point =>
    have ahead := admits_of_head? first
    exact valid_behind ahead (admits_row ahead)
  | none => trivial

/-- A search of a cube that is not written to lists what remains at its place. -/
theorem lists (wf : c.WellFormed) :
    Traversal.Lists c (fun s : Search => (remaining c s.pattern s.place).map voxelOf)
      fun s => s.place.Valid s.pattern where
  answer s valid := by
    rw [List.head?_map]
    exact next_fst wf valid
  unchanged _ := rfl
  tail s valid := by
    rw [← List.map_tail]
    exact congrArg (List.map voxelOf) (remaining_next wf valid)
  valid _ valid := valid_next wf valid

theorem admits_entrance (pattern : Pattern) (point : UInt32 × UInt32) :
    (entrance pattern).admits pattern.x pattern.y point =
      (pattern.y.admits point.1 && pattern.x.admits point.2) :=
  Matrix.Place.admits_start pattern.x pattern.y point

/-- A search that begins has everything ahead that matches the pattern. -/
theorem admits_start (pattern : Pattern) (point : UInt32 × UInt32 × UInt32) :
    (planes pattern.z.start).admits pattern point =
      (pattern.z.admits point.1 && (pattern.y.admits point.2.1 && pattern.x.admits point.2.2)) := by
  rw [admits, admits_entrance]
  cases admitted : pattern.z.admits point.1 with
  | false => rfl
  | true => simp [Axis.start_le_of_admits admitted]

/-- A search that begins has all voxels that match before it. -/
theorem remaining_start (c : Cube p) (pattern : Pattern) :
    remaining c pattern (.planes pattern.z.start) = c.points.filter fun point =>
      pattern.z.admits point.1 && (pattern.y.admits point.2.1 && pattern.x.admits point.2.2) :=
  List.filter_congr fun point _ => admits_start pattern point

end TripleCube.Cube.Place
