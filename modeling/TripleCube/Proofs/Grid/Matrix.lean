import TripleCube.Grid.Matrix
import TripleCube.Proofs.Grid.Coordinate
import TripleCube.Proofs.Grid.Layer
import TripleCube.Proofs.Sparse.BitSet

/-! Matrices as finite sets of cells. A matrix is well formed when its rows are, none of
them is empty and all its cells have coordinates. Writes keep that, change one cell and tell
whether it changed. -/
namespace TripleCube.Matrix

variable {p : PageSize}

/-- What a matrix keeps as a row: a well-formed set with a member. -/
structure IsRow (row : BitSet p) : Prop where
  wf : row.WellFormed
  inhabited : ∃ x, row.contains x = true

theorem IsRow.isEmpty_eq_false {row : BitSet p} (isRow : IsRow row) : row.isEmpty = false := by
  obtain ⟨x, set⟩ := isRow.inhabited
  refine Bool.eq_false_iff.mpr fun isEmpty => ?_
  simp [(BitSet.isEmpty_iff isRow.wf).mp isEmpty] at set

structure WellFormed (m : Matrix p) : Prop where
  rows : m.rows.Holds IsRow
  bounded : ∀ x y, m.containsAt x y = true → IsCoordinate x ∧ IsCoordinate y

variable {m : Matrix p}

theorem containsAt_eq_true {x y : UInt32} :
    m.containsAt x y = true ↔ ∃ row, m.rows.get? y = some row ∧ row.contains x = true := by
  rw [containsAt]
  cases m.rows.get? y <;> simp

theorem containsAt_empty (x y : UInt32) : (empty : Matrix p).containsAt x y = false := rfl

theorem wellFormed_empty : (empty : Matrix p).WellFormed :=
  ⟨PagedMap.holds_empty, fun x y set => by simp [containsAt_empty] at set⟩

theorem containsAt_insert (wf : m.WellFormed) (x y y' : UInt32) (row : BitSet p) :
    (⟨m.rows.insert y row⟩ : Matrix p).containsAt x y' =
      if y = y' then row.contains x else m.containsAt x y' := by
  simp only [containsAt, PagedMap.get?_insert wf.rows.wf]
  by_cases same : y = y' <;> simp [same]

theorem containsAt_erase (wf : m.WellFormed) (x y y' : UInt32) :
    (⟨m.rows.erase y⟩ : Matrix p).containsAt x y' =
      if y = y' then false else m.containsAt x y' := by
  simp only [containsAt, PagedMap.get?_erase wf.rows.wf]
  by_cases same : y = y' <;> simp [same]

/-- The row that setting a cell extends: the one of the matrix, or an empty one. -/
def rowFor (m : Matrix p) (y : UInt32) : BitSet p := (m.rows.get? y).getD .empty

theorem contains_rowFor (m : Matrix p) (x y : UInt32) :
    (m.rowFor y).contains x = m.containsAt x y := by
  rw [containsAt, rowFor]
  cases m.rows.get? y <;> rfl

theorem WellFormed.rowFor (wf : m.WellFormed) (y : UInt32) : (m.rowFor y).WellFormed := by
  rw [Matrix.rowFor]
  cases stored : m.rows.get? y with
  | none => exact BitSet.wellFormed_empty
  | some row => exact (wf.rows.value y row stored).wf

theorem setAt_eq (m : Matrix p) (x y : UInt32) :
    m.setAt x y =
      (((m.rowFor y).assign x true).1, ⟨m.rows.insert y ((m.rowFor y).assign x true).2⟩) := rfl

theorem setAt_fst (wf : m.WellFormed) (x y : UInt32) :
    (m.setAt x y).1 = !m.containsAt x y := by
  rw [setAt_eq, BitSet.assign_fst (wf.rowFor y), contains_rowFor]
  simp

theorem containsAt_setAt (wf : m.WellFormed) (x y x' y' : UInt32) :
    (m.setAt x y).2.containsAt x' y' = (decide (x = x' ∧ y = y') || m.containsAt x' y') := by
  rw [setAt_eq, containsAt_insert wf, BitSet.contains_assign (wf.rowFor y), contains_rowFor]
  by_cases sameRow : y = y'
  · by_cases same : x = x' <;> simp [sameRow, same]
  · simp [sameRow]

theorem WellFormed.setAt (wf : m.WellFormed) {x y : UInt32} (vx : IsCoordinate x)
    (vy : IsCoordinate y) : (m.setAt x y).2.WellFormed where
  rows := by
    have set : ((m.rowFor y).assign x true).2.contains x = true := by
      rw [BitSet.contains_assign (wf.rowFor y), if_pos rfl]
    exact wf.rows.insert y ⟨(wf.rowFor y).assign x true, x, set⟩
  bounded x' y' set := by
    rw [containsAt_setAt wf, Bool.or_eq_true, decide_eq_true_eq] at set
    rcases set with ⟨rfl, rfl⟩ | set
    · exact ⟨vx, vy⟩
    · exact wf.bounded x' y' set

theorem clearAt_fst (wf : m.WellFormed) (x y : UInt32) :
    (m.clearAt x y).1 = m.containsAt x y := by
  rw [clearAt, containsAt]
  cases stored : m.rows.get? y with
  | none => rfl
  | some row =>
    simp only [BitSet.clear, BitSet.assign_fst (wf.rows.value y row stored).wf]
    simp

theorem containsAt_clearAt (wf : m.WellFormed) (x y x' y' : UInt32) :
    (m.clearAt x y).2.containsAt x' y' = (!decide (x = x' ∧ y = y') && m.containsAt x' y') := by
  rw [clearAt]
  cases stored : m.rows.get? y with
  | none =>
    by_cases sameRow : y = y'
    · have clear : m.containsAt x' y' = false := by rw [containsAt, ← sameRow, stored]
      simp [clear]
    · simp [sameRow]
  | some row =>
    have rowWf := (wf.rows.value y row stored).wf
    have cleared := BitSet.contains_assign rowWf x x' false
    have here : m.containsAt x' y = row.contains x' := by rw [containsAt, stored]
    dsimp only [BitSet.clear]
    split
    · next isEmpty =>
      rw [(BitSet.isEmpty_iff (rowWf.assign x false)).mp isEmpty x'] at cleared
      rw [containsAt_erase wf]
      by_cases sameRow : y = y'
      · by_cases same : x = x' <;> simp_all
      · simp [sameRow]
    · rw [containsAt_insert wf, cleared]
      by_cases sameRow : y = y'
      · by_cases same : x = x' <;> simp [same, ← sameRow, here]
      · simp [sameRow]

theorem WellFormed.clearAt (wf : m.WellFormed) (x y : UInt32) :
    (m.clearAt x y).2.WellFormed where
  rows := by
    rw [Matrix.clearAt]
    cases stored : m.rows.get? y with
    | none => exact wf.rows
    | some row =>
      have rowWf := (wf.rows.value y row stored).wf.assign x false
      dsimp only [BitSet.clear]
      split
      · exact wf.rows.erase y
      · next filled =>
        rw [BitSet.isEmpty_iff rowWf, Classical.not_forall] at filled
        obtain ⟨other, set⟩ := filled
        exact wf.rows.insert y ⟨rowWf, other, by simpa using set⟩
  bounded x' y' set := by
    rw [containsAt_clearAt wf, Bool.and_eq_true] at set
    exact wf.bounded x' y' set.2

theorem isEmpty_iff (wf : m.WellFormed) :
    m.isEmpty = true ↔ ∀ x y, m.containsAt x y = false := by
  rw [isEmpty, PagedMap.isEmpty_iff wf.rows.wf]
  constructor
  · intro none x y
    rw [containsAt, none y]
  · intro clear y
    apply Option.eq_none_iff_forall_ne_some.mpr
    intro row stored
    obtain ⟨x, set⟩ := (wf.rows.value y row stored).inhabited
    exact Bool.false_ne_true ((clear x y).symm.trans (containsAt_eq_true.mpr ⟨row, stored, set⟩))

theorem set_of_nonneg {x y : Int32} (nonneg : 0 ≤ x ∧ 0 ≤ y) :
    m.set x y = .ok (m.setAt x.toUInt32 y.toUInt32) := by
  rw [set, Axis.concrete_of_nonneg .x nonneg.1, Axis.concrete_of_nonneg .y nonneg.2]
  rfl

theorem clear_of_nonneg {x y : Int32} (nonneg : 0 ≤ x ∧ 0 ≤ y) :
    m.clear x y = .ok (m.clearAt x.toUInt32 y.toUInt32) := by
  rw [clear, Axis.concrete_of_nonneg .x nonneg.1, Axis.concrete_of_nonneg .y nonneg.2]
  rfl

/-- Nothing is done to a cell that has no coordinates. -/
theorem locate_of_neg {α : Type} {x y : Int32} (negative : ¬ (0 ≤ x ∧ 0 ≤ y))
    (act : UInt32 → UInt32 → Except Error α) :
    ∃ e, (Axis.concrete .x x >>= fun x => Axis.concrete .y y >>= fun y => act x y) = .error e := by
  by_cases nonneg : 0 ≤ x
  · obtain ⟨e, refused⟩ := Axis.concrete_of_neg .y fun ny => negative ⟨nonneg, ny⟩
    exact ⟨e, by rw [Axis.concrete_of_nonneg .x nonneg, refused]; rfl⟩
  · obtain ⟨e, refused⟩ := Axis.concrete_of_neg .x nonneg
    exact ⟨e, by rw [refused]; rfl⟩

theorem set_of_neg {x y : Int32} (negative : ¬ (0 ≤ x ∧ 0 ≤ y)) : ∃ e, m.set x y = .error e :=
  locate_of_neg negative fun x y => pure (m.setAt x y)

theorem clear_of_neg {x y : Int32} (negative : ¬ (0 ≤ x ∧ 0 ≤ y)) :
    ∃ e, m.clear x y = .error e :=
  locate_of_neg negative fun x y => pure (m.clearAt x y)

/-- The set cells, each as the index of its row and the index in the row. -/
def points (m : Matrix p) : List (UInt32 × UInt32) := m.rows.points BitSet.toList

/-- The cell of a point. -/
def cellOf (point : UInt32 × UInt32) : Cell := ⟨point.2.toInt32, point.1.toInt32⟩

theorem mem_points (wf : m.WellFormed) {point : UInt32 × UInt32} :
    point ∈ m.points ↔ m.containsAt point.2 point.1 = true := by
  rw [points, PagedMap.mem_points wf.rows.wf, containsAt_eq_true]
  constructor
  · rintro ⟨row, stored, listed⟩
    exact ⟨row, stored, (BitSet.mem_toList (wf.rows.value _ row stored).wf).mp listed⟩
  · rintro ⟨row, stored, set⟩
    exact ⟨row, stored, (BitSet.mem_toList (wf.rows.value _ row stored).wf).mpr set⟩

theorem pairwise_points (wf : m.WellFormed) : m.points.Pairwise (Prod.Lex (· < ·) (· < ·)) :=
  PagedMap.pairwise_points wf.rows.wf fun y row stored =>
    BitSet.pairwise_toList (wf.rows.value y row stored).wf

theorem size_eq_length_points (wf : m.WellFormed) : m.size = m.points.length :=
  PagedMap.sum_sizes wf.rows.wf fun y row stored =>
    BitSet.size_eq_length_toList (wf.rows.value y row stored).wf

end TripleCube.Matrix
