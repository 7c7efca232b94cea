import TripleCube.Proofs.Grid.Counted
import TripleCube.Proofs.Live

/-! What the writes to a matrix and to a cube answer. A write is refused for the first axis
along which its coordinate names no cell; any other tells whether it changed the set of cells. -/
namespace TripleCube

/-- What is said of a coordinate that does not name a cell. -/
def Axis.refusal? (axis : Dimension) (value : Int32) : Option Error :=
  if value = wild then some (.invalidArgument (.wildCoordinate axis))
  else if value < 0 then some (.invalidArgument (.negativeCoordinate axis value))
  else none

theorem Axis.concrete_eq (axis : Dimension) (value : Int32) :
    concrete axis value = match refusal? axis value with
      | some e => .error e
      | none => .ok value.toUInt32 := by
  rw [concrete, refusal?]
  split
  · rfl
  · split <;> rfl

theorem Axis.refusal?_eq_none_iff {axis : Dimension} {value : Int32} :
    refusal? axis value = none ↔ 0 ≤ value := by
  rw [refusal?]
  constructor
  · intro accepted
    split at accepted
    · cases accepted
    · split at accepted
      · cases accepted
      · next nonneg => exact Int32.not_lt.mp nonneg
  · intro nonneg
    rw [if_neg (ne_wild nonneg), if_neg (not_lt_zero nonneg)]

namespace Cell

/-- Whether a cell has coordinates. -/
def Proper (c : Cell) : Prop := 0 ≤ c.x ∧ 0 ≤ c.y

instance (c : Cell) : Decidable c.Proper := inferInstanceAs (Decidable (_ ∧ _))

/-- What is said of the first coordinate that does not name a cell. -/
def refusal? (c : Cell) : Option Error := (Axis.refusal? .x c.x).or (Axis.refusal? .y c.y)

theorem refusal?_eq_none_iff {c : Cell} : c.refusal? = none ↔ c.Proper := by
  simp [refusal?, Axis.refusal?_eq_none_iff, Proper]

end Cell

namespace Voxel

/-- Whether a voxel has coordinates. -/
def Proper (v : Voxel) : Prop := 0 ≤ v.x ∧ 0 ≤ v.y ∧ 0 ≤ v.z

instance (v : Voxel) : Decidable v.Proper := inferInstanceAs (Decidable (_ ∧ _ ∧ _))

/-- What is said of the first coordinate that does not name a cell. -/
def refusal? (v : Voxel) : Option Error :=
  (Axis.refusal? .x v.x).or ((Axis.refusal? .y v.y).or (Axis.refusal? .z v.z))

theorem refusal?_eq_none_iff {v : Voxel} : v.refusal? = none ↔ v.Proper := by
  simp [refusal?, Axis.refusal?_eq_none_iff, Proper]

end Voxel

namespace Matrix

variable {p : PageSize}

/-- A call that changes a matrix, with its answer. -/
def change (m : Matrix p) : Write → Except Error (Bool × Matrix p)
  | .set x y => m.set x y
  | .clear x y => m.clear x y

instance : Searchable (Matrix p) Search Write (Int32 × Int32) where
  write := change
  search m pattern := m.search pattern.1 pattern.2

theorem apply_eq (m : Matrix p) (write : Write) :
    m.apply write = match m.change write with
      | .ok (_, m) => m
      | .error _ => m := by
  cases write <;> rfl

theorem apply_of_change {m m' : Matrix p} {write : Write} {changed : Bool}
    (outcome : m.change write = .ok (changed, m')) : m.apply write = m' := by
  rw [apply_eq, outcome]

/-- The cell that a call writes to. -/
def Write.cell : Write → Cell
  | .set x y | .clear x y => ⟨x, y⟩

/-- Whether a call changes a set of cells. -/
def Write.changes (cells : Finset Cell) : Write → Bool
  | .set x y => decide (⟨x, y⟩ ∉ cells)
  | .clear x y => decide (⟨x, y⟩ ∈ cells)

/-- Reading the coordinates of a cell. -/
theorem locate_eq {α : Type} (x y : Int32) (act : UInt32 → UInt32 → Except Error α) :
    (Axis.concrete .x x >>= fun x => Axis.concrete .y y >>= fun y => act x y) =
      match Cell.refusal? ⟨x, y⟩ with
      | some e => .error e
      | none => act x.toUInt32 y.toUInt32 := by
  rw [Axis.concrete_eq, Axis.concrete_eq, Cell.refusal?]
  cases Axis.refusal? .x x with
  | some e => rfl
  | none => cases Axis.refusal? .y y <;> rfl

variable {m : Matrix p} {cells : Finset Cell}

theorem Represents.containsAt (represents : m.Represents cells) (c : Cell) :
    m.containsAt c.x.toUInt32 c.y.toUInt32 = decide (c ∈ cells) := by
  have set := represents.cell (c.y.toUInt32, c.x.toUInt32)
  rw [cellOf_words] at set
  rw [Bool.eq_iff_iff, set, decide_eq_true_iff]

theorem Represents.contains_eq (represents : m.Represents cells) (c : Cell) :
    m.contains c.x c.y = match c.refusal? with
      | some e => .error e
      | none => .ok (decide (c ∈ cells)) := by
  rw [← represents.containsAt]
  exact locate_eq c.x c.y fun x y => pure (m.containsAt x y)

theorem Represents.isEmpty (represents : m.Represents cells) :
    m.isEmpty = decide (cells = ∅) := by
  rw [Bool.eq_iff_iff, decide_eq_true_iff, isEmpty_iff represents.wf]
  constructor
  · intro clear
    apply Finset.eq_empty_of_forall_notMem
    intro c member
    have set := represents.containsAt c
    rw [clear, decide_eq_true member] at set
    cases set
  · rintro rfl x y
    simpa using represents.cell (y, x)

/-- A write is refused, or it tells whether it changes the cells and changes them so. -/
theorem Represents.change (represents : m.Represents cells) (write : Write) :
    m.change write = match write.cell.refusal? with
      | some e => .error e
      | none => .ok (write.changes cells, m.apply write) := by
  have eq := apply_eq m write
  cases write with
  | set x y =>
    have written : m.change (.set x y) = _ := locate_eq x y fun x y => pure (m.setAt x y)
    have changed := setAt_fst represents.wf x.toUInt32 y.toUInt32
    rw [represents.containsAt ⟨x, y⟩, ← decide_not] at changed
    rw [written] at eq ⊢
    rw [Write.cell]
    cases refused : Cell.refusal? ⟨x, y⟩ with
    | some e => rfl
    | none =>
      rw [refused] at eq
      rw [eq, Write.changes, ← changed]
      rfl
  | clear x y =>
    have written : m.change (.clear x y) = _ := locate_eq x y fun x y => pure (m.clearAt x y)
    have changed := clearAt_fst represents.wf x.toUInt32 y.toUInt32
    rw [represents.containsAt ⟨x, y⟩] at changed
    rw [written] at eq ⊢
    rw [Write.cell]
    cases refused : Cell.refusal? ⟨x, y⟩ with
    | some e => rfl
    | none =>
      rw [refused] at eq
      rw [eq, Write.changes, ← changed]
      rfl

end Matrix

namespace Cube

variable {p : PageSize}

/-- A call that changes a cube, with its answer. -/
def change (c : Cube p) : Write → Except Error (Bool × Cube p)
  | .set x y z => c.set x y z
  | .clear x y z => c.clear x y z
  | .insert x y z => c.insert x y z
  | .remove x y z => c.remove x y z

instance : Searchable (Cube p) Search Write (Int32 × Int32 × Int32) where
  write := change
  search c pattern := c.search pattern.1 pattern.2.1 pattern.2.2

theorem apply_eq (c : Cube p) (write : Write) :
    c.apply write = match c.change write with
      | .ok (_, c) => c
      | .error _ => c := by
  cases write <;> rfl

theorem apply_of_change {c c' : Cube p} {write : Write} {changed : Bool}
    (outcome : c.change write = .ok (changed, c')) : c.apply write = c' := by
  rw [apply_eq, outcome]

/-- The voxel that a call writes to. -/
def Write.voxel : Write → Voxel
  | .set x y z | .clear x y z | .insert x y z | .remove x y z => ⟨x, y, z⟩

/-- Whether a call changes a set of voxels. -/
def Write.changes (voxels : Finset Voxel) : Write → Bool
  | .set x y z | .insert x y z => decide (⟨x, y, z⟩ ∉ voxels)
  | .clear x y z | .remove x y z => decide (⟨x, y, z⟩ ∈ voxels)

theorem locate_eq (x y z : Int32) :
    locate x y z = match Voxel.refusal? ⟨x, y, z⟩ with
      | some e => .error e
      | none => .ok (x.toUInt32, y.toUInt32, z.toUInt32) := by
  rw [locate, Axis.concrete_eq, Axis.concrete_eq, Axis.concrete_eq, Voxel.refusal?]
  cases Axis.refusal? .x x with
  | some e => rfl
  | none =>
    cases Axis.refusal? .y y with
    | some e => rfl
    | none => cases Axis.refusal? .z z <;> rfl

variable {c : Cube p} {voxels : Finset Voxel}

theorem Represents.contains_eq (represents : c.Represents voxels) (v : Voxel) :
    c.contains v.x v.y v.z = match v.refusal? with
      | some e => .error e
      | none => .ok (decide (v ∈ voxels)) := by
  rw [Cube.contains, locate_eq, ← represents.containsAt]
  cases Voxel.refusal? ⟨v.x, v.y, v.z⟩ <;> rfl

/-- A write is refused, or it tells whether it changes the voxels and changes them so. -/
theorem Represents.change (represents : c.Represents voxels) (write : Write) :
    c.change write = match write.voxel.refusal? with
      | some e => .error e
      | none => .ok (write.changes voxels, c.apply write) := by
  have eq := apply_eq c write
  have set : ∀ x y z : Int32, (c.setAt x.toUInt32 y.toUInt32 z.toUInt32).1 =
      decide (⟨x, y, z⟩ ∉ voxels) := fun x y z => by
    rw [setAt_fst represents.wf, represents.containsAt ⟨x, y, z⟩, decide_not]
  have cleared : ∀ x y z : Int32, (c.clearAt x.toUInt32 y.toUInt32 z.toUInt32).1 =
      decide (⟨x, y, z⟩ ∈ voxels) := fun x y z => by
    rw [clearAt_fst represents.wf, represents.containsAt ⟨x, y, z⟩]
  cases write with
  | set x y z | insert x y z =>
    rw [Write.voxel, Write.changes, ← set]
    simp only [Cube.change, Cube.set, Cube.insert, locate_eq] at eq ⊢
    cases refused : Voxel.refusal? ⟨x, y, z⟩ with
    | some e => rfl
    | none => rw [eq, refused]; rfl
  | clear x y z | remove x y z =>
    rw [Write.voxel, Write.changes, ← cleared]
    simp only [Cube.change, Cube.clear, Cube.remove, locate_eq] at eq ⊢
    cases refused : Voxel.refusal? ⟨x, y, z⟩ with
    | some e => rfl
    | none => rw [eq, refused]; rfl

/-- The counter after a write that is not refused: `set` and `clear` move it always, `insert` and
`remove` where they change a cell. -/
def Write.moved (voxels : Finset Voxel) (counter : Int64) : Write → Int64
  | .set _ _ _ => counter + 1
  | .clear _ _ _ => counter - 1
  | .insert x y z => if ⟨x, y, z⟩ ∈ voxels then counter else counter + 1
  | .remove x y z => if ⟨x, y, z⟩ ∈ voxels then counter - 1 else counter

/-- A write that is refused leaves the counter as well. -/
def Write.count (voxels : Finset Voxel) (counter : Int64) (write : Write) : Int64 :=
  if write.voxel.Proper then write.moved voxels counter else counter

theorem Represents.counter_apply (represents : c.Represents voxels) (write : Write) :
    (c.apply write).counter = write.count voxels c.counter := by
  rw [Write.count]
  split
  · next proper =>
    cases write with
    | set x y z =>
      have nonneg : 0 ≤ x ∧ 0 ≤ y ∧ 0 ≤ z := proper
      simp only [Cube.apply, Cube.set, locate_of_nonneg nonneg]
      rfl
    | clear x y z =>
      have nonneg : 0 ≤ x ∧ 0 ≤ y ∧ 0 ≤ z := proper
      have kept := counter_clearAt c x.toUInt32 y.toUInt32 z.toUInt32
      simp only [Cube.apply, Cube.clear, locate_of_nonneg nonneg]
      exact congrArg (· - 1) kept
    | insert x y z =>
      have nonneg : 0 ≤ x ∧ 0 ≤ y ∧ 0 ≤ z := proper
      have changed := setAt_fst represents.wf x.toUInt32 y.toUInt32 z.toUInt32
      rw [represents.containsAt ⟨x, y, z⟩] at changed
      simp only [Cube.apply, insert_of_nonneg nonneg, changed, Write.moved]
      by_cases member : (⟨x, y, z⟩ : Voxel) ∈ voxels <;> simp [member]
    | remove x y z =>
      have nonneg : 0 ≤ x ∧ 0 ≤ y ∧ 0 ≤ z := proper
      have changed := clearAt_fst represents.wf x.toUInt32 y.toUInt32 z.toUInt32
      rw [represents.containsAt ⟨x, y, z⟩] at changed
      simp only [Cube.apply, remove_of_nonneg nonneg, changed, Write.moved]
      by_cases member : (⟨x, y, z⟩ : Voxel) ∈ voxels <;> simp [member]
  · next improper =>
    rw [apply_eq, represents.change]
    cases refused : write.voxel.refusal? with
    | none => exact absurd (Voxel.refusal?_eq_none_iff.mp refused) improper
    | some e => rfl

end Cube

end TripleCube
