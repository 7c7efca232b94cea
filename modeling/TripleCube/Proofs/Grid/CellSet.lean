import TripleCube.Proofs.Grid.Write
import TripleCube.Proofs.Sparse.Members

/-! Matrices and cubes as finite sets, call by call. Every history of calls is answered as by a
set of cells, and leaves no plane, row or page without a cell, at any depth. -/
namespace TripleCube

/-- The size of a layer is the number of coordinates that have an entry. -/
theorem PagedMap.size_eq_card {p : PageSize} {σ : Type} {m : PagedMap p σ} (wf : m.WellFormed)
    {members : Finset Int32}
    (same : ∀ value, value ∈ members ↔ ∃ held, m.get? value.toUInt32 = some held) :
    m.size = members.card := by
  have distinct : (m.toList.map fun entry => entry.1.toInt32).Nodup := by
    refine List.pairwise_map.mpr ((pairwise_toList wf).imp fun less equal => ?_)
    exact UInt32.lt_irrefl _ (toInt32_inj.mp equal ▸ less)
  rw [size_eq_length_toList wf, ← card_eq_length distinct, List.length_map]
  intro value
  rw [same, List.mem_map]
  constructor
  · rintro ⟨⟨index, held⟩, listed, rfl⟩
    exact ⟨held, by simpa using (mem_toList wf).mp listed⟩
  · rintro ⟨held, stored⟩
    exact ⟨(value.toUInt32, held), (mem_toList wf).mpr stored, Int32.toInt32_toUInt32 value⟩

namespace Matrix

variable {p : PageSize} {m : Matrix p} {cells : Finset Cell}

/-- The calls on a matrix. -/
inductive Call
  | write (write : Write)
  | contains (x y : Int32)
  | size
  | isEmpty
  | rowCount

inductive Answer
  | told (outcome : Except Error Bool)
  | number (value : Nat)
  deriving DecidableEq

/-- Answers a call. One that fails changes nothing. -/
def step (m : Matrix p) : Call → Answer × Matrix p
  | .write write =>
    match m.change write with
    | .ok (changed, m) => (.told (.ok changed), m)
    | .error e => (.told (.error e), m)
  | .contains x y => (.told (m.contains x y), m)
  | .size => (.number m.size, m)
  | .isEmpty => (.told (.ok m.isEmpty), m)
  | .rowCount => (.number m.rowCount, m)

/-- Answers a call as a set of cells would. -/
def stepCells (cells : Finset Cell) : Call → Answer × Finset Cell
  | .write write =>
    match write.cell.refusal? with
    | some e => (.told (.error e), cells)
    | none => (.told (.ok (write.changes cells)), write.effect cells)
  | .contains x y =>
    match Cell.refusal? ⟨x, y⟩ with
    | some e => (.told (.error e), cells)
    | none => (.told (.ok (decide (⟨x, y⟩ ∈ cells))), cells)
  | .size => (.number cells.card, cells)
  | .isEmpty => (.told (.ok (decide (cells = ∅))), cells)
  | .rowCount => (.number (cells.image Cell.y).card, cells)

theorem Represents.size (represents : m.Represents cells) : m.size = cells.card := by
  have distinct := (Sorted.nodup Place.lex_asymm (pairwise_points represents.wf)).map
    fun _ _ => cellOf_injective
  rw [size_eq_length_points represents.wf,
    ← card_eq_length distinct fun _ => represents.mem_points, List.length_map]

/-- There is a row for each `y` that a cell has. -/
theorem Represents.rowCount (represents : m.Represents cells) :
    m.rowCount = (cells.image Cell.y).card := by
  refine PagedMap.size_eq_card represents.wf.rows.wf fun y => ?_
  rw [Finset.mem_image]
  constructor
  · rintro ⟨c, member, rfl⟩
    have set := represents.containsAt c
    rw [decide_eq_true member, containsAt_eq_true] at set
    exact ⟨set.choose, set.choose_spec.1⟩
  · rintro ⟨row, stored⟩
    obtain ⟨x, set⟩ := (represents.wf.rows.value _ row stored).inhabited
    have member := (represents.cell (y.toUInt32, x)).mp (containsAt_eq_true.mpr ⟨row, stored, set⟩)
    exact ⟨_, member, Int32.toInt32_toUInt32 y⟩

theorem Represents.step (represents : m.Represents cells) (call : Call) :
    (m.step call).1 = (stepCells cells call).1 ∧
      (m.step call).2.Represents (stepCells cells call).2 := by
  cases call with
  | write write =>
    have after := represents.apply write
    rw [Matrix.step, stepCells, represents.change]
    cases refused : write.cell.refusal? with
    | some e => exact ⟨rfl, represents⟩
    | none => exact ⟨rfl, after⟩
  | contains x y =>
    rw [Matrix.step, stepCells, represents.contains_eq ⟨x, y⟩]
    cases Cell.refusal? ⟨x, y⟩ <;> exact ⟨rfl, represents⟩
  | size => exact ⟨congrArg Answer.number represents.size, represents⟩
  | isEmpty => exact ⟨congrArg (fun told => Answer.told (.ok told)) represents.isEmpty, represents⟩
  | rowCount => exact ⟨congrArg Answer.number represents.rowCount, represents⟩

/-- No row and no page is empty: neither a page of rows, nor a row, nor a page of a row. -/
structure NoneEmpty (m : Matrix p) : Prop where
  pages : m.rows.NoEmptyPage
  rows : ∀ entry ∈ m.rows.pages, ∀ slot row, entry.2.get? slot = some row →
    row.isEmpty = false ∧ row.NoEmptyPage

theorem WellFormed.noneEmpty (wf : m.WellFormed) : m.NoneEmpty where
  pages := wf.rows.wf.noEmptyPage
  rows entry member slot row held := by
    have isRow := wf.rows.value _ row (wf.rows.wf.get?_of_page member held)
    exact ⟨isRow.isEmpty_eq_false, isRow.wf.noEmptyPage⟩

end Matrix

namespace Cube

variable {p : PageSize} {c : Cube p} {voxels : Finset Voxel}

/-- The calls on a cube. -/
inductive Call
  | write (write : Write)
  | contains (x y z : Int32)
  | cardinality
  | isEmpty
  | planeCount

inductive Answer
  | told (outcome : Except Error Bool)
  | number (value : Nat)
  deriving DecidableEq

/-- Answers a call. One that fails changes nothing. -/
def step (c : Cube p) : Call → Answer × Cube p
  | .write write =>
    match c.change write with
    | .ok (changed, c) => (.told (.ok changed), c)
    | .error e => (.told (.error e), c)
  | .contains x y z => (.told (c.contains x y z), c)
  | .cardinality => (.number c.cardinality, c)
  | .isEmpty => (.told (.ok c.isEmpty), c)
  | .planeCount => (.number c.planeCount, c)

/-- Answers a call as a set of voxels would. -/
def stepVoxels (voxels : Finset Voxel) : Call → Answer × Finset Voxel
  | .write write =>
    match write.voxel.refusal? with
    | some e => (.told (.error e), voxels)
    | none => (.told (.ok (write.changes voxels)), write.effect voxels)
  | .contains x y z =>
    match Voxel.refusal? ⟨x, y, z⟩ with
    | some e => (.told (.error e), voxels)
    | none => (.told (.ok (decide (⟨x, y, z⟩ ∈ voxels))), voxels)
  | .cardinality => (.number voxels.card, voxels)
  | .isEmpty => (.told (.ok (decide (voxels = ∅))), voxels)
  | .planeCount => (.number (voxels.image Voxel.z).card, voxels)

theorem Represents.cardinality (represents : c.Represents voxels) :
    c.cardinality = voxels.card := by
  have distinct := (Sorted.nodup (PagedMap.lex_asymm Matrix.Place.lex_asymm)
    (pairwise_points represents.wf)).map fun _ _ => voxelOf_injective
  rw [cardinality_eq_length_points represents.wf,
    ← card_eq_length distinct fun _ => represents.mem_points, List.length_map]

/-- There is a plane for each `z` that a voxel has. -/
theorem Represents.planeCount (represents : c.Represents voxels) :
    c.planeCount = (voxels.image Voxel.z).card := by
  refine PagedMap.size_eq_card represents.wf.planes.wf fun z => ?_
  rw [Finset.mem_image]
  constructor
  · rintro ⟨v, member, rfl⟩
    have set := represents.containsAt v
    rw [decide_eq_true member, containsAt_eq_true] at set
    exact ⟨set.choose, set.choose_spec.1⟩
  · rintro ⟨plane, stored⟩
    obtain ⟨x, y, set⟩ := (represents.wf.planes.value _ plane stored).inhabited
    have member := (represents.voxel (z.toUInt32, y, x)).mp
      (containsAt_eq_true.mpr ⟨plane, stored, set⟩)
    exact ⟨_, member, Int32.toInt32_toUInt32 z⟩

theorem Represents.step (represents : c.Represents voxels) (call : Call) :
    (c.step call).1 = (stepVoxels voxels call).1 ∧
      (c.step call).2.Represents (stepVoxels voxels call).2 := by
  cases call with
  | write write =>
    have after := represents.apply write
    rw [Cube.step, stepVoxels, represents.change]
    cases refused : write.voxel.refusal? with
    | some e => exact ⟨rfl, represents⟩
    | none => exact ⟨rfl, after⟩
  | contains x y z =>
    rw [Cube.step, stepVoxels, represents.contains_eq ⟨x, y, z⟩]
    cases Voxel.refusal? ⟨x, y, z⟩ <;> exact ⟨rfl, represents⟩
  | cardinality => exact ⟨congrArg Answer.number represents.cardinality, represents⟩
  | isEmpty => exact ⟨congrArg (fun told => Answer.told (.ok told)) represents.isEmpty, represents⟩
  | planeCount => exact ⟨congrArg Answer.number represents.planeCount, represents⟩

/-- No plane and no page is empty, and within the planes no row and no page. -/
structure NoneEmpty (c : Cube p) : Prop where
  pages : c.planes.NoEmptyPage
  planes : ∀ entry ∈ c.planes.pages, ∀ slot plane, entry.2.get? slot = some plane →
    plane.isEmpty = false ∧ plane.NoneEmpty

theorem WellFormed.noneEmpty (wf : c.WellFormed) : c.NoneEmpty where
  pages := wf.planes.wf.noEmptyPage
  planes entry member slot plane held := by
    have isPlane := wf.planes.value _ plane (wf.planes.wf.get?_of_page member held)
    exact ⟨isPlane.isEmpty_eq_false, isPlane.wf.noneEmpty⟩

end Cube

/-- For every page size, every history of calls on an empty matrix or cube is answered as by a
set of cells or voxels, all with coordinates, and leaves nothing empty within. -/
theorem answers_eq_cellSet (p : PageSize) :
    (∀ calls : List Matrix.Call,
      let reached := Calls.run Matrix.step calls (.empty : Matrix p)
      let expected := Calls.run Matrix.stepCells calls ∅
      reached.1 = expected.1 ∧ (∀ c ∈ expected.2, c.Proper) ∧ reached.2.NoneEmpty) ∧
    (∀ calls : List Cube.Call,
      let reached := Calls.run Cube.step calls (.empty : Cube p)
      let expected := Calls.run Cube.stepVoxels calls ∅
      reached.1 = expected.1 ∧ (∀ v ∈ expected.2, v.Proper) ∧ reached.2.NoneEmpty) := by
  constructor
  · intro calls
    obtain ⟨answers, represents⟩ := Calls.run_simulates Matrix.Represents
      (fun _ _ call represents => represents.step call) calls (Matrix.represents_empty (p := p))
    exact ⟨answers, fun c => represents.nonneg, represents.wf.noneEmpty⟩
  · intro calls
    obtain ⟨answers, represents⟩ := Calls.run_simulates Cube.Represents
      (fun _ _ call represents => represents.step call) calls (Cube.represents_empty (p := p))
    exact ⟨answers, fun v => represents.nonneg, represents.wf.noneEmpty⟩

end TripleCube
