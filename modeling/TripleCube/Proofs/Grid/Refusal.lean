import TripleCube.Outcome
import TripleCube.Proofs.Grid.CellSet

/-! Which calls a matrix and a cube refuse, whatever is in them: those that name a negative
coordinate and, of searches, those that name one below the wildcard. -/
namespace TripleCube

namespace Axis

theorem failed_concrete (axis : Dimension) (value : Int32) :
    Failed (concrete axis value) ↔ value < 0 := by
  rw [concrete_eq, ← Int32.not_le, ← @refusal?_eq_none_iff axis value]
  cases refusal? axis value <;> simp

theorem failed_pattern (axis : Dimension) (value : Int32) :
    Failed (pattern axis value) ↔ value < wild := by
  by_cases below : value < wild
  · have negative : value < 0 := Int32.lt_trans below (by decide)
    simp [pattern, Int32.ne_of_lt below, negative, below]
  · simp [pattern_eq axis (Int32.not_lt.mp below), below]

end Axis

namespace Matrix

variable {p : PageSize}

/-- The coordinates that a call names. -/
def Call.coordinates : Call → List Int32
  | .write change => [change.cell.x, change.cell.y]
  | .contains x y => [x, y]
  | .size | .isEmpty | .rowCount => []

def Answer.Failed : Answer → Prop
  | .told outcome => TripleCube.Failed outcome
  | .number _ => False

theorem failed_change (m : Matrix p) (write : Write) :
    Failed (m.change write) ↔ ∃ value ∈ [write.cell.x, write.cell.y], value < 0 := by
  cases write with
  | set x y | clear x y =>
    refine failed_two.trans ?_
    simp [Axis.failed_concrete, Write.cell]

/-- A call fails where one of its coordinates is negative. -/
theorem failed_step (m : Matrix p) (call : Call) :
    (m.step call).1.Failed ↔ ∃ value ∈ call.coordinates, value < 0 := by
  cases call with
  | write write =>
    rw [Call.coordinates, ← m.failed_change, step]
    cases m.change write <;> simp [Answer.Failed]
  | contains x y =>
    refine failed_two.trans ?_
    simp [Axis.failed_concrete, Call.coordinates]
  | size | isEmpty | rowCount => simp [step, Answer.Failed, Call.coordinates]

theorem step_of_failed {m : Matrix p} {call : Call} (failed : (m.step call).1.Failed) :
    (m.step call).2 = m := by
  cases call with
  | write write =>
    rw [step] at failed ⊢
    cases outcome : m.change write with
    | ok changed => simp [outcome, Answer.Failed] at failed
    | error e => rfl
  | contains | size | isEmpty | rowCount => rfl

/-- A search fails where one of its coordinates is below the wildcard. -/
theorem failed_search (m : Matrix p) (x y : Int32) :
    Failed (m.search x y) ↔ ∃ value ∈ [x, y], value < wild := by
  refine failed_two.trans ?_
  simp [Axis.failed_pattern]

end Matrix

namespace Cube

variable {p : PageSize}

/-- The coordinates that a call names. -/
def Call.coordinates : Call → List Int32
  | .write change => [change.voxel.x, change.voxel.y, change.voxel.z]
  | .contains x y z => [x, y, z]
  | .cardinality | .isEmpty | .planeCount => []

def Answer.Failed : Answer → Prop
  | .told outcome => TripleCube.Failed outcome
  | .number _ => False

theorem failed_locate (x y z : Int32) :
    Failed (locate x y z) ↔ ∃ value ∈ [x, y, z], value < 0 := by
  refine failed_three.trans ?_
  simp [Axis.failed_concrete]

theorem failed_contains (c : Cube p) (x y z : Int32) :
    Failed (c.contains x y z) ↔ ∃ value ∈ [x, y, z], value < 0 :=
  failed_bind_pure.trans (failed_locate x y z)

theorem failed_change (c : Cube p) (write : Write) : Failed (c.change write) ↔
    ∃ value ∈ [write.voxel.x, write.voxel.y, write.voxel.z], value < 0 := by
  cases write with
  | set x y z | clear x y z | insert x y z | remove x y z =>
    exact failed_bind_pure.trans (failed_locate x y z)

/-- A call fails where one of its coordinates is negative. -/
theorem failed_step (c : Cube p) (call : Call) :
    (c.step call).1.Failed ↔ ∃ value ∈ call.coordinates, value < 0 := by
  cases call with
  | write write =>
    rw [Call.coordinates, ← c.failed_change, step]
    cases c.change write <;> simp [Answer.Failed]
  | contains x y z => exact c.failed_contains x y z
  | cardinality | isEmpty | planeCount => simp [step, Answer.Failed, Call.coordinates]

theorem step_of_failed {c : Cube p} {call : Call} (failed : (c.step call).1.Failed) :
    (c.step call).2 = c := by
  cases call with
  | write write =>
    rw [step] at failed ⊢
    cases outcome : c.change write with
    | ok changed => simp [outcome, Answer.Failed] at failed
    | error e => rfl
  | contains | cardinality | isEmpty | planeCount => rfl

/-- A search fails where one of its coordinates is below the wildcard. -/
theorem failed_search (c : Cube p) (x y z : Int32) :
    Failed (c.search x y z) ↔ ∃ value ∈ [x, y, z], value < wild := by
  refine failed_three.trans ?_
  simp [Axis.failed_pattern]

end Cube

end TripleCube
