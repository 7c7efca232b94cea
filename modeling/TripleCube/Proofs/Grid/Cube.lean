import TripleCube.Grid.Cube
import TripleCube.Proofs.Grid.Matrix

/-! Cubes as finite sets of voxels. What holds of a matrix and its rows holds of a cube and
its planes: writes change one cell, tell whether it changed, and leave no empty plane. -/
namespace TripleCube.Cube

variable {p : PageSize}

/-- What a cube keeps as a plane: a well-formed matrix with a cell. -/
structure IsPlane (plane : Matrix p) : Prop where
  wf : plane.WellFormed
  inhabited : ∃ x y, plane.containsAt x y = true

theorem IsPlane.isEmpty_eq_false {plane : Matrix p} (isPlane : IsPlane plane) :
    plane.isEmpty = false := by
  obtain ⟨x, y, set⟩ := isPlane.inhabited
  refine Bool.eq_false_iff.mpr fun isEmpty => ?_
  simp [(Matrix.isEmpty_iff isPlane.wf).mp isEmpty] at set

structure WellFormed (c : Cube p) : Prop where
  planes : c.planes.Holds IsPlane
  bounded : ∀ x y z, c.containsAt x y z = true → IsCoordinate z

variable {c : Cube p}

theorem containsAt_eq_true {x y z : UInt32} :
    c.containsAt x y z = true ↔
      ∃ plane, c.planes.get? z = some plane ∧ plane.containsAt x y = true := by
  rw [containsAt]
  cases c.planes.get? z <;> simp

theorem containsAt_empty (x y z : UInt32) : (empty : Cube p).containsAt x y z = false := rfl

theorem wellFormed_empty : (empty : Cube p).WellFormed :=
  ⟨PagedMap.holds_empty, fun x y z set => by simp [containsAt_empty] at set⟩

/-- The counter is no part of the set of cells. -/
theorem WellFormed.recount (wf : c.WellFormed) (counter : Int64) :
    WellFormed { c with counter } := ⟨wf.planes, wf.bounded⟩

theorem containsAt_insert (wf : c.WellFormed) (x y z z' : UInt32) (plane : Matrix p) :
    containsAt { c with planes := c.planes.insert z plane } x y z' =
      if z = z' then plane.containsAt x y else c.containsAt x y z' := by
  simp only [containsAt, PagedMap.get?_insert wf.planes.wf]
  by_cases same : z = z' <;> simp [same]

theorem containsAt_erase (wf : c.WellFormed) (x y z z' : UInt32) :
    containsAt { c with planes := c.planes.erase z } x y z' =
      if z = z' then false else c.containsAt x y z' := by
  simp only [containsAt, PagedMap.get?_erase wf.planes.wf]
  by_cases same : z = z' <;> simp [same]

/-- The plane that setting a cell extends: the one of the cube, or an empty one. -/
def planeFor (c : Cube p) (z : UInt32) : Matrix p := (c.planes.get? z).getD .empty

theorem containsAt_planeFor (c : Cube p) (x y z : UInt32) :
    (c.planeFor z).containsAt x y = c.containsAt x y z := by
  rw [containsAt, planeFor]
  cases c.planes.get? z <;> rfl

theorem WellFormed.planeFor (wf : c.WellFormed) (z : UInt32) : (c.planeFor z).WellFormed := by
  rw [Cube.planeFor]
  cases stored : c.planes.get? z with
  | none => exact Matrix.wellFormed_empty
  | some plane => exact (wf.planes.value z plane stored).wf

theorem setAt_eq (c : Cube p) (x y z : UInt32) :
    c.setAt x y z = (((c.planeFor z).setAt x y).1,
      { c with planes := c.planes.insert z ((c.planeFor z).setAt x y).2 }) := rfl

theorem setAt_fst (wf : c.WellFormed) (x y z : UInt32) :
    (c.setAt x y z).1 = !c.containsAt x y z := by
  rw [setAt_eq, Matrix.setAt_fst (wf.planeFor z), containsAt_planeFor]

theorem containsAt_setAt (wf : c.WellFormed) (x y z x' y' z' : UInt32) :
    (c.setAt x y z).2.containsAt x' y' z' =
      (decide (x = x' ∧ y = y' ∧ z = z') || c.containsAt x' y' z') := by
  rw [setAt_eq, containsAt_insert wf, Matrix.containsAt_setAt (wf.planeFor z), containsAt_planeFor]
  by_cases samePlane : z = z'
  · simp [samePlane]
  · simp [samePlane]

theorem WellFormed.setAt (wf : c.WellFormed) {x y z : UInt32} (vx : IsCoordinate x)
    (vy : IsCoordinate y) (vz : IsCoordinate z) : (c.setAt x y z).2.WellFormed where
  planes := by
    have set : ((c.planeFor z).setAt x y).2.containsAt x y = true := by
      simp [Matrix.containsAt_setAt (wf.planeFor z)]
    exact wf.planes.insert z ⟨(wf.planeFor z).setAt vx vy, x, y, set⟩
  bounded x' y' z' set := by
    rw [containsAt_setAt wf, Bool.or_eq_true, decide_eq_true_eq] at set
    rcases set with ⟨rfl, rfl, rfl⟩ | set
    · exact vz
    · exact wf.bounded x' y' z' set

theorem clearAt_fst (wf : c.WellFormed) (x y z : UInt32) :
    (c.clearAt x y z).1 = c.containsAt x y z := by
  rw [clearAt, containsAt]
  cases stored : c.planes.get? z with
  | none => rfl
  | some plane => exact Matrix.clearAt_fst (wf.planes.value z plane stored).wf x y

theorem containsAt_clearAt (wf : c.WellFormed) (x y z x' y' z' : UInt32) :
    (c.clearAt x y z).2.containsAt x' y' z' =
      (!decide (x = x' ∧ y = y' ∧ z = z') && c.containsAt x' y' z') := by
  rw [clearAt]
  cases stored : c.planes.get? z with
  | none =>
    by_cases samePlane : z = z'
    · have clear : c.containsAt x' y' z' = false := by rw [containsAt, ← samePlane, stored]
      simp [clear]
    · simp [samePlane]
  | some plane =>
    have planeWf := (wf.planes.value z plane stored).wf
    have cleared := Matrix.containsAt_clearAt planeWf x y x' y'
    have here : c.containsAt x' y' z = plane.containsAt x' y' := by rw [containsAt, stored]
    dsimp only
    split
    · next isEmpty =>
      rw [(Matrix.isEmpty_iff (planeWf.clearAt x y)).mp isEmpty x' y'] at cleared
      rw [containsAt_erase wf]
      by_cases samePlane : z = z'
      · by_cases same : x = x' ∧ y = y' <;> simp_all
      · simp [samePlane]
    · rw [containsAt_insert wf, cleared]
      by_cases samePlane : z = z'
      · by_cases same : x = x' ∧ y = y' <;> simp [← samePlane, here]
      · simp [samePlane]

theorem WellFormed.clearAt (wf : c.WellFormed) (x y z : UInt32) :
    (c.clearAt x y z).2.WellFormed where
  planes := by
    rw [Cube.clearAt]
    cases stored : c.planes.get? z with
    | none => exact wf.planes
    | some plane =>
      have planeWf := (wf.planes.value z plane stored).wf.clearAt x y
      dsimp only
      split
      · exact wf.planes.erase z
      · next filled =>
        rw [Matrix.isEmpty_iff planeWf, Classical.not_forall] at filled
        obtain ⟨x', filled⟩ := filled
        rw [Classical.not_forall] at filled
        obtain ⟨y', set⟩ := filled
        exact wf.planes.insert z ⟨planeWf, x', y', by simpa using set⟩
  bounded x' y' z' set := by
    rw [containsAt_clearAt wf, Bool.and_eq_true] at set
    exact wf.bounded x' y' z' set.2

theorem isEmpty_iff (wf : c.WellFormed) :
    c.isEmpty = true ↔ ∀ x y z, c.containsAt x y z = false := by
  rw [isEmpty, PagedMap.isEmpty_iff wf.planes.wf]
  constructor
  · intro none x y z
    rw [containsAt, none z]
  · intro clear z
    apply Option.eq_none_iff_forall_ne_some.mpr
    intro plane stored
    obtain ⟨x, y, set⟩ := (wf.planes.value z plane stored).inhabited
    exact Bool.false_ne_true
      ((clear x y z).symm.trans (containsAt_eq_true.mpr ⟨plane, stored, set⟩))

theorem locate_of_nonneg {x y z : Int32} (nonneg : 0 ≤ x ∧ 0 ≤ y ∧ 0 ≤ z) :
    locate x y z = .ok (x.toUInt32, y.toUInt32, z.toUInt32) := by
  rw [locate, Axis.concrete_of_nonneg .x nonneg.1, Axis.concrete_of_nonneg .y nonneg.2.1,
    Axis.concrete_of_nonneg .z nonneg.2.2]
  rfl

theorem locate_of_neg {x y z : Int32} (negative : ¬ (0 ≤ x ∧ 0 ≤ y ∧ 0 ≤ z)) :
    ∃ e, locate x y z = .error e := by
  rw [locate]
  by_cases nx : 0 ≤ x
  · rw [Axis.concrete_of_nonneg .x nx]
    by_cases ny : 0 ≤ y
    · obtain ⟨e, refused⟩ := Axis.concrete_of_neg .z fun nz => negative ⟨nx, ny, nz⟩
      exact ⟨e, by rw [Axis.concrete_of_nonneg .y ny, refused]; rfl⟩
    · obtain ⟨e, refused⟩ := Axis.concrete_of_neg .y ny
      exact ⟨e, by rw [refused]; rfl⟩
  · obtain ⟨e, refused⟩ := Axis.concrete_of_neg .x nx
    exact ⟨e, by rw [refused]; rfl⟩

theorem counter_clearAt (c : Cube p) (x y z : UInt32) :
    (c.clearAt x y z).2.counter = c.counter := by
  rw [clearAt]
  split <;> rfl

/-- Inserting counts a cell that was clear. -/
theorem insert_of_nonneg {x y z : Int32} (nonneg : 0 ≤ x ∧ 0 ≤ y ∧ 0 ≤ z) :
    c.insert x y z =
      let step := c.setAt x.toUInt32 y.toUInt32 z.toUInt32
      .ok (step.1, { step.2 with counter := if step.1 then c.counter + 1 else c.counter }) := by
  simp only [insert, locate_of_nonneg nonneg, bind, Except.bind, pure, Except.pure]
  cases (c.setAt x.toUInt32 y.toUInt32 z.toUInt32).1 <;> rfl

/-- Removing uncounts a cell that was set. -/
theorem remove_of_nonneg {x y z : Int32} (nonneg : 0 ≤ x ∧ 0 ≤ y ∧ 0 ≤ z) :
    c.remove x y z =
      let step := c.clearAt x.toUInt32 y.toUInt32 z.toUInt32
      .ok (step.1, { step.2 with counter := if step.1 then c.counter - 1 else c.counter }) := by
  have kept := counter_clearAt c x.toUInt32 y.toUInt32 z.toUInt32
  simp only [remove, locate_of_nonneg nonneg, bind, Except.bind, pure, Except.pure, ← kept]
  cases (c.clearAt x.toUInt32 y.toUInt32 z.toUInt32).1 <;> rfl

theorem contains_of_nonneg {x y z : Int32} (nonneg : 0 ≤ x ∧ 0 ≤ y ∧ 0 ≤ z) :
    c.contains x y z = .ok (c.containsAt x.toUInt32 y.toUInt32 z.toUInt32) := by
  rw [contains, locate_of_nonneg nonneg]
  rfl

/-- The set cells, each as the index of its plane and the point in the plane. -/
def points (c : Cube p) : List (UInt32 × UInt32 × UInt32) := c.planes.points Matrix.points

/-- The voxel of a point. -/
def voxelOf (point : UInt32 × UInt32 × UInt32) : Voxel :=
  .onPlane (Matrix.cellOf point.2) point.1.toInt32

theorem mem_points (wf : c.WellFormed) {point : UInt32 × UInt32 × UInt32} :
    point ∈ c.points ↔ c.containsAt point.2.2 point.2.1 point.1 = true := by
  rw [points, PagedMap.mem_points wf.planes.wf, containsAt_eq_true]
  constructor
  · rintro ⟨plane, stored, listed⟩
    exact ⟨plane, stored, (Matrix.mem_points (wf.planes.value _ plane stored).wf).mp listed⟩
  · rintro ⟨plane, stored, set⟩
    exact ⟨plane, stored, (Matrix.mem_points (wf.planes.value _ plane stored).wf).mpr set⟩

theorem pairwise_points (wf : c.WellFormed) :
    c.points.Pairwise (Prod.Lex (· < ·) (Prod.Lex (· < ·) (· < ·))) :=
  PagedMap.pairwise_points wf.planes.wf fun z plane stored =>
    Matrix.pairwise_points (wf.planes.value z plane stored).wf

theorem cardinality_eq_length_points (wf : c.WellFormed) : c.cardinality = c.points.length :=
  PagedMap.sum_sizes wf.planes.wf fun z plane stored =>
    Matrix.size_eq_length_points (wf.planes.value z plane stored).wf

theorem isCoordinate_of_containsAt (wf : c.WellFormed) {x y z : UInt32}
    (set : c.containsAt x y z = true) : IsCoordinate x ∧ IsCoordinate y ∧ IsCoordinate z := by
  obtain ⟨plane, stored, inPlane⟩ := containsAt_eq_true.mp set
  obtain ⟨vx, vy⟩ := (wf.planes.value z plane stored).wf.bounded x y inPlane
  exact ⟨vx, vy, wf.bounded x y z set⟩

end TripleCube.Cube
