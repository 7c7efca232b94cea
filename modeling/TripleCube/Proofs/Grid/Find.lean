import Mathlib.Data.Finset.Sort
import TripleCube.Proofs.Grid.CubeSearch

/-! Searches against brute force. The set of cells is kept by the history of writes alone;
filtering it by the pattern and sorting what is left gives what a search yields, whatever the
page size. -/
namespace TripleCube

/-- A sorted list without repetitions is the sorted list of its members. -/
theorem eq_sort {α : Type} {r : α → α → Prop} [DecidableRel r] [IsTrans α r] [Std.Antisymm r]
    [Std.Total r] {items : List α} {members : Finset α} (sorted : items.Pairwise r)
    (distinct : items.Nodup) (same : ∀ item, item ∈ items ↔ item ∈ members) :
    items = members.sort r := by
  refine List.Perm.eq_of_pairwise (fun _ _ _ _ => Std.Antisymm.antisymm _ _) sorted
    (Finset.pairwise_sort _ _)
    ((List.perm_ext_iff_of_nodup distinct (Finset.sort_nodup _ _)).mpr fun item => ?_)
  rw [Finset.mem_sort, same]

namespace Axis

/-- Whether a coordinate agrees with a pattern along its axis. -/
def Agrees (value coordinate : Int32) : Prop := value = wild ∨ coordinate = value

instance (value coordinate : Int32) : Decidable (Agrees value coordinate) :=
  inferInstanceAs (Decidable (_ ∨ _))

theorem admits_ofPattern {value : Int32} {index : UInt32} :
    (ofPattern value).admits index = true ↔ Agrees value index.toInt32 := by
  rw [ofPattern, Agrees]
  by_cases isWild : value = wild
  · simp [isWild]
  · rw [if_neg isWild, admits_only, beq_iff_eq, toInt32_eq_iff, eq_comm]
    simp [isWild]

end Axis

namespace Matrix

variable {p : PageSize}

/-- The calls that change a matrix. -/
inductive Write
  | set (x y : Int32)
  | clear (x y : Int32)

/-- The matrix after a call. One that fails changes nothing. -/
def apply (m : Matrix p) (write : Write) : Matrix p :=
  let outcome := match write with
    | .set x y => m.set x y
    | .clear x y => m.clear x y
  match outcome with
  | .ok (_, m) => m
  | .error _ => m

/-- The matrix that a history of calls leaves. -/
def ofWrites (p : PageSize) (writes : List Write) : Matrix p := writes.foldl apply empty

/-- The cells after a call. -/
def Write.effect (cells : Finset Cell) : Write → Finset Cell
  | .set x y => if 0 ≤ x ∧ 0 ≤ y then insert ⟨x, y⟩ cells else cells
  | .clear x y => cells.erase ⟨x, y⟩

/-- The cells that a history of calls leaves set. -/
def cellsOf (writes : List Write) : Finset Cell := writes.foldl Write.effect ∅

/-- The order of a search: by `y`, then by `x`. -/
def SearchOrder (a b : Cell) : Prop := a.y < b.y ∨ a.y = b.y ∧ a.x ≤ b.x

instance : DecidableRel SearchOrder := fun _ _ => inferInstanceAs (Decidable (_ ∨ _))

theorem searchOrder_iff (a b : Cell) : SearchOrder a b ↔
    a.y.toInt < b.y.toInt ∨ a.y.toInt = b.y.toInt ∧ a.x.toInt ≤ b.x.toInt := by
  rw [SearchOrder, Int32.lt_iff_toInt_lt, Int32.le_iff_toInt_le, Int32.toInt_inj]

instance : IsTrans Cell SearchOrder where
  trans a b c first second := by
    rw [searchOrder_iff] at first second ⊢
    omega

instance : Std.Total SearchOrder where
  total a b := by
    rw [searchOrder_iff, searchOrder_iff]
    omega

instance : Std.Antisymm SearchOrder where
  antisymm a b first second := by
    rw [searchOrder_iff] at first second
    have x : a.x = b.x := Int32.toInt_inj.mp (by omega)
    have y : a.y = b.y := Int32.toInt_inj.mp (by omega)
    cases a
    cases b
    simp_all

/-- What a search has to yield: the cells that agree with the pattern, in the search order. -/
def bruteForce (writes : List Write) (x y : Int32) : List Cell :=
  ((cellsOf writes).filter fun c => Axis.Agrees x c.x ∧ Axis.Agrees y c.y).sort SearchOrder

/-- A well-formed matrix in which exactly the cells of a set are set. -/
structure Represents (m : Matrix p) (cells : Finset Cell) : Prop where
  wf : m.WellFormed
  cell : ∀ point, m.containsAt point.2 point.1 = true ↔ cellOf point ∈ cells

theorem cellOf_eq_iff {point : UInt32 × UInt32} {x y : Int32} :
    cellOf point = ⟨x, y⟩ ↔ x.toUInt32 = point.2 ∧ y.toUInt32 = point.1 := by
  rw [cellOf, Cell.mk.injEq, toInt32_eq_iff, toInt32_eq_iff, eq_comm, eq_comm (a := point.1)]

theorem cellOf_words (c : Cell) : cellOf (c.y.toUInt32, c.x.toUInt32) = c :=
  cellOf_eq_iff.mpr ⟨rfl, rfl⟩

variable {m : Matrix p} {cells : Finset Cell}

theorem Represents.nonneg (represents : Represents m cells) {c : Cell} (member : c ∈ cells) :
    0 ≤ c.x ∧ 0 ≤ c.y := by
  have set := (represents.cell _).mpr ((cellOf_words c).symm ▸ member)
  obtain ⟨vx, vy⟩ := represents.wf.bounded _ _ set
  exact ⟨vx.toInt32_nonneg, vy.toInt32_nonneg⟩

theorem Represents.mem_points (represents : Represents m cells) {c : Cell} :
    c ∈ m.points.map cellOf ↔ c ∈ cells := by
  rw [List.mem_map]
  constructor
  · rintro ⟨point, listed, rfl⟩
    exact (represents.cell point).mp ((Matrix.mem_points represents.wf).mp listed)
  · intro member
    have set := (represents.cell _).mpr ((cellOf_words c).symm ▸ member)
    exact ⟨_, (Matrix.mem_points represents.wf).mpr set, cellOf_words c⟩

theorem Represents.apply (represents : Represents m cells) (write : Write) :
    Represents (m.apply write) (write.effect cells) := by
  cases write with
  | set x y =>
    by_cases nonneg : 0 ≤ x ∧ 0 ≤ y
    · simp only [Matrix.apply, Write.effect, set_of_nonneg nonneg, if_pos nonneg]
      refine ⟨represents.wf.setAt (isCoordinate_toUInt32 nonneg.1)
        (isCoordinate_toUInt32 nonneg.2), fun point => ?_⟩
      rw [containsAt_setAt represents.wf, Bool.or_eq_true, decide_eq_true_eq, represents.cell,
        Finset.mem_insert, cellOf_eq_iff]
    · obtain ⟨e, refused⟩ := set_of_neg (m := m) nonneg
      simp only [Matrix.apply, Write.effect, refused, if_neg nonneg]
      exact represents
  | clear x y =>
    by_cases nonneg : 0 ≤ x ∧ 0 ≤ y
    · simp only [Matrix.apply, Write.effect, clear_of_nonneg nonneg]
      refine ⟨represents.wf.clearAt _ _, fun point => ?_⟩
      rw [containsAt_clearAt represents.wf, Bool.and_eq_true, Bool.not_eq_true',
        decide_eq_false_iff_not, represents.cell, Finset.mem_erase, Ne, cellOf_eq_iff]
    · obtain ⟨e, refused⟩ := clear_of_neg (m := m) nonneg
      have absent : (⟨x, y⟩ : Cell) ∉ cells := fun member => nonneg (represents.nonneg member)
      simp only [Matrix.apply, Write.effect, refused, Finset.erase_eq_of_notMem absent]
      exact represents

theorem represents_empty : Represents (empty : Matrix p) ∅ :=
  ⟨wellFormed_empty, fun point => by simp [containsAt_empty]⟩

theorem represents_ofWrites (writes : List Write) :
    Represents (ofWrites p writes) (cellsOf writes) := by
  have run : ∀ (m : Matrix p) (cells : Finset Cell), Represents m cells →
      Represents (writes.foldl Matrix.apply m) (writes.foldl Write.effect cells) := by
    induction writes with
    | nil => exact fun _ _ represents => represents
    | cons write rest ih => exact fun _ _ represents => ih _ _ (represents.apply write)
  exact run empty ∅ represents_empty

theorem cellOf_injective {a b : UInt32 × UInt32} (same : cellOf a = cellOf b) : a = b := by
  obtain ⟨x, y⟩ := cellOf_eq_iff.mp same
  exact Prod.ext y.symm x.symm

/-- Cells come out of a matrix in the search order. -/
theorem pairwise_searchOrder (wf : m.WellFormed) :
    m.points.Pairwise fun a b => SearchOrder (cellOf a) (cellOf b) := by
  refine (pairwise_points wf).imp_of_mem fun {a b} first second less => ?_
  obtain ⟨ax, ay⟩ := wf.bounded _ _ ((mem_points wf).mp first)
  obtain ⟨bx, byy⟩ := wf.bounded _ _ ((mem_points wf).mp second)
  rcases Prod.lex_def.mp less with before | ⟨same, before⟩
  · exact Or.inl ((toInt32_lt_toInt32 ay byy).mpr before)
  · exact Or.inr ⟨congrArg UInt32.toInt32 same,
      Int32.le_of_lt ((toInt32_lt_toInt32 ax bx).mpr before)⟩

/-- The matching cells, in the order of the points, are what brute force lists. -/
theorem matching_eq_bruteForce {writes : List Write} (represents : Represents m (cellsOf writes))
    (x y : Int32) :
    (m.points.filter fun point => (Axis.ofPattern y).admits point.1 &&
      (Axis.ofPattern x).admits point.2).map cellOf = bruteForce writes x y := by
  have wf := represents.wf
  have distinct := (Sorted.nodup Place.lex_asymm (pairwise_points wf)).filter fun point =>
    (Axis.ofPattern y).admits point.1 && (Axis.ofPattern x).admits point.2
  refine eq_sort (List.pairwise_map.mpr ((pairwise_searchOrder wf).filter _))
    (distinct.map fun _ _ => cellOf_injective) fun c => ?_
  rw [Finset.mem_filter, List.mem_map]
  simp only [List.mem_filter, mem_points wf, represents.cell, Bool.and_eq_true,
    Axis.admits_ofPattern]
  constructor
  · rintro ⟨point, ⟨member, agreesY, agreesX⟩, rfl⟩
    exact ⟨member, agreesX, agreesY⟩
  · rintro ⟨member, agreesX, agreesY⟩
    exact ⟨(c.y.toUInt32, c.x.toUInt32), ⟨(cellOf_words c).symm ▸ member, agreesY, agreesX⟩,
      cellOf_words c⟩

theorem search_eq (m : Matrix p) {x y : Int32} (gx : wild ≤ x) (gy : wild ≤ y) :
    m.search x y = .ok ⟨Axis.ofPattern x, Axis.ofPattern y,
      if m.isEmpty then .finished else .rows (Axis.ofPattern y).start⟩ := by
  rw [search, Axis.pattern_eq .x gx, Axis.pattern_eq .y gy]
  rfl

/-- Ending at once over an empty matrix leaves out nothing. -/
theorem remaining_opening (wf : m.WellFormed) (x y : Axis) :
    Place.remaining m x y (if m.isEmpty then .finished else .rows y.start) =
      m.points.filter fun point => y.admits point.1 && x.admits point.2 := by
  split
  · next isEmpty =>
    have none : m.points = [] := List.eq_nil_iff_forall_not_mem.mpr fun point member => by
      have set := (mem_points wf).mp member
      rw [(isEmpty_iff wf).mp isEmpty] at set
      exact Bool.false_ne_true set
    rw [Place.remaining_finished, none]
    rfl
  · exact Place.remaining_start m x y

/-- A search of a matrix yields what brute force lists, and `find` collects all of it. -/
theorem search_yields {writes : List Write} (represents : Represents m (cellsOf writes))
    {x y : Int32} (gx : wild ≤ x) (gy : wild ≤ y) :
    ∃ s, m.search x y = .ok s ∧ Traversal.Yields m s (bruteForce writes x y) ∧
      m.find x y = .ok (bruteForce writes x y) := by
  have wf := represents.wf
  have listed := matching_eq_bruteForce represents x y
  rw [← remaining_opening wf] at listed
  have valid : (if m.isEmpty then Place.finished else .rows (Axis.ofPattern y).start).Valid
      (Axis.ofPattern x) (Axis.ofPattern y) := by
    split <;> trivial
  refine ⟨_, search_eq m gx gy, ?_, ?_⟩
  · rw [← listed]
    exact (Place.lists wf).yields valid
  · rw [find, search_eq m gx gy, ← listed]
    refine congrArg Except.ok (((Place.lists wf).drain_fst valid m.size).trans ?_)
    refine List.take_of_length_le ?_
    rw [List.length_map, size_eq_length_points wf]
    exact List.length_filter_le _ _

end Matrix

namespace Cube

variable {p : PageSize}

/-- The calls that change a cube. -/
inductive Write
  | set (x y z : Int32)
  | clear (x y z : Int32)
  | insert (x y z : Int32)
  | remove (x y z : Int32)

/-- The cube after a call. One that fails changes nothing. -/
def apply (c : Cube p) (write : Write) : Cube p :=
  let outcome := match write with
    | .set x y z => c.set x y z
    | .clear x y z => c.clear x y z
    | .insert x y z => c.insert x y z
    | .remove x y z => c.remove x y z
  match outcome with
  | .ok (_, c) => c
  | .error _ => c

/-- The cube that a history of calls leaves. -/
def ofWrites (p : PageSize) (writes : List Write) : Cube p := writes.foldl apply empty

/-- The voxels after a call. How a call counts does not matter to them. -/
def Write.effect (voxels : Finset Voxel) : Write → Finset Voxel
  | .set x y z | .insert x y z =>
    if 0 ≤ x ∧ 0 ≤ y ∧ 0 ≤ z then Insert.insert ⟨x, y, z⟩ voxels else voxels
  | .clear x y z | .remove x y z => voxels.erase ⟨x, y, z⟩

/-- The voxels that a history of calls leaves set. -/
def voxelsOf (writes : List Write) : Finset Voxel := writes.foldl Write.effect ∅

/-- The order of a search: by `z`, then by `y`, then by `x`. -/
def SearchOrder (a b : Voxel) : Prop :=
  a.z < b.z ∨ a.z = b.z ∧ (a.y < b.y ∨ a.y = b.y ∧ a.x ≤ b.x)

instance : DecidableRel SearchOrder := fun _ _ => inferInstanceAs (Decidable (_ ∨ _))

theorem searchOrder_iff (a b : Voxel) : SearchOrder a b ↔
    a.z.toInt < b.z.toInt ∨ a.z.toInt = b.z.toInt ∧
      (a.y.toInt < b.y.toInt ∨ a.y.toInt = b.y.toInt ∧ a.x.toInt ≤ b.x.toInt) := by
  rw [SearchOrder, Int32.lt_iff_toInt_lt, Int32.lt_iff_toInt_lt, Int32.le_iff_toInt_le,
    Int32.toInt_inj, Int32.toInt_inj]

instance : IsTrans Voxel SearchOrder where
  trans a b c first second := by
    rw [searchOrder_iff] at first second ⊢
    omega

instance : Std.Total SearchOrder where
  total a b := by
    rw [searchOrder_iff, searchOrder_iff]
    omega

instance : Std.Antisymm SearchOrder where
  antisymm a b first second := by
    rw [searchOrder_iff] at first second
    have x : a.x = b.x := Int32.toInt_inj.mp (by omega)
    have y : a.y = b.y := Int32.toInt_inj.mp (by omega)
    have z : a.z = b.z := Int32.toInt_inj.mp (by omega)
    cases a
    cases b
    simp_all

/-- What a search has to yield: the voxels that agree with the pattern, in the search order. -/
def bruteForce (writes : List Write) (x y z : Int32) : List Voxel :=
  ((voxelsOf writes).filter fun v =>
    Axis.Agrees x v.x ∧ Axis.Agrees y v.y ∧ Axis.Agrees z v.z).sort SearchOrder

/-- A well-formed cube in which exactly the voxels of a set are set. -/
structure Represents (c : Cube p) (voxels : Finset Voxel) : Prop where
  wf : c.WellFormed
  voxel : ∀ point, c.containsAt point.2.2 point.2.1 point.1 = true ↔ voxelOf point ∈ voxels

theorem voxelOf_eq_iff {point : UInt32 × UInt32 × UInt32} {x y z : Int32} :
    voxelOf point = ⟨x, y, z⟩ ↔
      x.toUInt32 = point.2.2 ∧ y.toUInt32 = point.2.1 ∧ z.toUInt32 = point.1 := by
  rw [voxelOf, Voxel.onPlane, Matrix.cellOf, Voxel.mk.injEq, toInt32_eq_iff, toInt32_eq_iff,
    toInt32_eq_iff, eq_comm, eq_comm (a := point.2.1), eq_comm (a := point.1)]

theorem voxelOf_injective {a b : UInt32 × UInt32 × UInt32} (same : voxelOf a = voxelOf b) :
    a = b := by
  obtain ⟨x, y, z⟩ := voxelOf_eq_iff.mp same
  exact Prod.ext z.symm (Prod.ext y.symm x.symm)

theorem voxelOf_words (v : Voxel) :
    voxelOf (v.z.toUInt32, v.y.toUInt32, v.x.toUInt32) = v :=
  voxelOf_eq_iff.mpr ⟨rfl, rfl, rfl⟩

variable {c : Cube p} {voxels : Finset Voxel}

theorem Represents.nonneg (represents : Represents c voxels) {v : Voxel} (member : v ∈ voxels) :
    0 ≤ v.x ∧ 0 ≤ v.y ∧ 0 ≤ v.z := by
  have set := (represents.voxel _).mpr ((voxelOf_words v).symm ▸ member)
  obtain ⟨vx, vy, vz⟩ := isCoordinate_of_containsAt represents.wf set
  exact ⟨vx.toInt32_nonneg, vy.toInt32_nonneg, vz.toInt32_nonneg⟩

theorem Represents.mem_points (represents : Represents c voxels) {v : Voxel} :
    v ∈ c.points.map voxelOf ↔ v ∈ voxels := by
  rw [List.mem_map]
  constructor
  · rintro ⟨point, listed, rfl⟩
    exact (represents.voxel point).mp ((Cube.mem_points represents.wf).mp listed)
  · intro member
    have set := (represents.voxel _).mpr ((voxelOf_words v).symm ▸ member)
    exact ⟨_, (Cube.mem_points represents.wf).mpr set, voxelOf_words v⟩

theorem Represents.recount (represents : Represents c voxels) (counter : Int64) :
    Represents { c with counter } voxels := ⟨represents.wf.recount counter, represents.voxel⟩

theorem Represents.setAt (represents : Represents c voxels) {x y z : Int32}
    (nonneg : 0 ≤ x ∧ 0 ≤ y ∧ 0 ≤ z) :
    Represents (c.setAt x.toUInt32 y.toUInt32 z.toUInt32).2 (Insert.insert ⟨x, y, z⟩ voxels) where
  wf := represents.wf.setAt (isCoordinate_toUInt32 nonneg.1) (isCoordinate_toUInt32 nonneg.2.1)
    (isCoordinate_toUInt32 nonneg.2.2)
  voxel point := by
    rw [containsAt_setAt represents.wf, Bool.or_eq_true, decide_eq_true_eq, represents.voxel,
      Finset.mem_insert, voxelOf_eq_iff]

theorem Represents.clearAt (represents : Represents c voxels) (x y z : Int32) :
    Represents (c.clearAt x.toUInt32 y.toUInt32 z.toUInt32).2 (voxels.erase ⟨x, y, z⟩) where
  wf := represents.wf.clearAt _ _ _
  voxel point := by
    rw [containsAt_clearAt represents.wf, Bool.and_eq_true, Bool.not_eq_true',
      decide_eq_false_iff_not, represents.voxel, Finset.mem_erase, Ne, voxelOf_eq_iff]

theorem Represents.apply (represents : Represents c voxels) (write : Write) :
    Represents (c.apply write) (write.effect voxels) := by
  have absent : ∀ {x y z}, ¬ (0 ≤ x ∧ 0 ≤ y ∧ 0 ≤ z) → (⟨x, y, z⟩ : Voxel) ∉ voxels :=
    fun negative member => negative (represents.nonneg member)
  cases write with
  | set x y z =>
    by_cases nonneg : 0 ≤ x ∧ 0 ≤ y ∧ 0 ≤ z
    · simp only [Cube.apply, Write.effect, Cube.set, locate_of_nonneg nonneg, if_pos nonneg]
      exact (represents.setAt nonneg).recount _
    · obtain ⟨e, refused⟩ := locate_of_neg nonneg
      simp only [Cube.apply, Write.effect, Cube.set, refused, if_neg nonneg]
      exact represents
  | insert x y z =>
    by_cases nonneg : 0 ≤ x ∧ 0 ≤ y ∧ 0 ≤ z
    · simp only [Cube.apply, Write.effect, insert_of_nonneg nonneg, if_pos nonneg]
      exact (represents.setAt nonneg).recount _
    · obtain ⟨e, refused⟩ := locate_of_neg nonneg
      simp only [Cube.apply, Write.effect, Cube.insert, refused, if_neg nonneg]
      exact represents
  | clear x y z =>
    by_cases nonneg : 0 ≤ x ∧ 0 ≤ y ∧ 0 ≤ z
    · simp only [Cube.apply, Write.effect, Cube.clear, locate_of_nonneg nonneg]
      exact (represents.clearAt x y z).recount _
    · obtain ⟨e, refused⟩ := locate_of_neg nonneg
      simp only [Cube.apply, Write.effect, Cube.clear, refused,
        Finset.erase_eq_of_notMem (absent nonneg)]
      exact represents
  | remove x y z =>
    by_cases nonneg : 0 ≤ x ∧ 0 ≤ y ∧ 0 ≤ z
    · simp only [Cube.apply, Write.effect, remove_of_nonneg nonneg]
      exact (represents.clearAt x y z).recount _
    · obtain ⟨e, refused⟩ := locate_of_neg nonneg
      simp only [Cube.apply, Write.effect, Cube.remove, refused,
        Finset.erase_eq_of_notMem (absent nonneg)]
      exact represents

theorem represents_empty : Represents (empty : Cube p) ∅ :=
  ⟨wellFormed_empty, fun point => by simp [containsAt_empty]⟩

theorem represents_ofWrites (writes : List Write) :
    Represents (ofWrites p writes) (voxelsOf writes) := by
  have run : ∀ (c : Cube p) (voxels : Finset Voxel), Represents c voxels →
      Represents (writes.foldl Cube.apply c) (writes.foldl Write.effect voxels) := by
    induction writes with
    | nil => exact fun _ _ represents => represents
    | cons write rest ih => exact fun _ _ represents => ih _ _ (represents.apply write)
  exact run empty ∅ represents_empty

/-- Voxels come out of a cube in the search order. -/
theorem pairwise_searchOrder (wf : c.WellFormed) :
    c.points.Pairwise fun a b => SearchOrder (voxelOf a) (voxelOf b) := by
  refine (pairwise_points wf).imp_of_mem fun {a b} first second less => ?_
  obtain ⟨ax, ay, az⟩ := isCoordinate_of_containsAt wf ((mem_points wf).mp first)
  obtain ⟨bx, byy, bz⟩ := isCoordinate_of_containsAt wf ((mem_points wf).mp second)
  rcases Prod.lex_def.mp less with before | ⟨samePlane, inPlane⟩
  · exact Or.inl ((toInt32_lt_toInt32 az bz).mpr before)
  · refine Or.inr ⟨congrArg UInt32.toInt32 samePlane, ?_⟩
    rcases Prod.lex_def.mp inPlane with before | ⟨sameRow, before⟩
    · exact Or.inl ((toInt32_lt_toInt32 ay byy).mpr before)
    · exact Or.inr ⟨congrArg UInt32.toInt32 sameRow,
        Int32.le_of_lt ((toInt32_lt_toInt32 ax bx).mpr before)⟩

/-- The pattern of three coordinates. -/
def patternOf (x y z : Int32) : Pattern := ⟨Axis.ofPattern x, Axis.ofPattern y, Axis.ofPattern z⟩

/-- The voxels that match are those of the set that agree with the pattern. -/
theorem Represents.mem_matching (represents : Represents c voxels) {x y z : Int32} {v : Voxel} :
    v ∈ (c.points.filter fun point => (patternOf x y z).z.admits point.1 &&
        ((patternOf x y z).y.admits point.2.1 && (patternOf x y z).x.admits point.2.2)).map
          voxelOf ↔
      v ∈ voxels ∧ Axis.Agrees x v.x ∧ Axis.Agrees y v.y ∧ Axis.Agrees z v.z := by
  rw [List.mem_map]
  simp only [List.mem_filter, Cube.mem_points represents.wf, represents.voxel, Bool.and_eq_true,
    patternOf, Axis.admits_ofPattern]
  constructor
  · rintro ⟨point, ⟨member, agreesZ, agreesY, agreesX⟩, rfl⟩
    exact ⟨member, agreesX, agreesY, agreesZ⟩
  · rintro ⟨member, agreesX, agreesY, agreesZ⟩
    exact ⟨(v.z.toUInt32, v.y.toUInt32, v.x.toUInt32),
      ⟨(voxelOf_words v).symm ▸ member, agreesZ, agreesY, agreesX⟩, voxelOf_words v⟩

/-- The matching voxels, in the order of the points, are what brute force lists. -/
theorem matching_eq_bruteForce {writes : List Write} (represents : Represents c (voxelsOf writes))
    (x y z : Int32) :
    (c.points.filter fun point => (patternOf x y z).z.admits point.1 &&
      ((patternOf x y z).y.admits point.2.1 && (patternOf x y z).x.admits point.2.2)).map voxelOf =
    bruteForce writes x y z := by
  have wf := represents.wf
  have distinct := (Sorted.nodup (PagedMap.lex_asymm Matrix.Place.lex_asymm)
    (pairwise_points wf)).filter fun point => (patternOf x y z).z.admits point.1 &&
      ((patternOf x y z).y.admits point.2.1 && (patternOf x y z).x.admits point.2.2)
  refine eq_sort (List.pairwise_map.mpr ((pairwise_searchOrder wf).filter _))
    (distinct.map fun _ _ => voxelOf_injective) fun v => ?_
  rw [Finset.mem_filter, represents.mem_matching]

theorem search_eq (c : Cube p) {x y z : Int32} (gx : wild ≤ x) (gy : wild ≤ y) (gz : wild ≤ z) :
    c.search x y z = .ok ⟨patternOf x y z,
      if c.isEmpty then .finished else .planes (patternOf x y z).z.start⟩ := by
  rw [search, Axis.pattern_eq .x gx, Axis.pattern_eq .y gy, Axis.pattern_eq .z gz]
  rfl

/-- Ending at once over an empty cube leaves out nothing. -/
theorem remaining_opening (wf : c.WellFormed) (pattern : Pattern) :
    Place.remaining c pattern (if c.isEmpty then .finished else .planes pattern.z.start) =
      c.points.filter fun point => pattern.z.admits point.1 &&
        (pattern.y.admits point.2.1 && pattern.x.admits point.2.2) := by
  split
  · next isEmpty =>
    have none : c.points = [] := List.eq_nil_iff_forall_not_mem.mpr fun point member => by
      have set := (mem_points wf).mp member
      rw [(isEmpty_iff wf).mp isEmpty] at set
      exact Bool.false_ne_true set
    rw [Place.remaining_finished, none]
    rfl
  · exact Place.remaining_start c pattern

theorem valid_opening (c : Cube p) (pattern : Pattern) :
    (if c.isEmpty then Place.finished else .planes pattern.z.start).Valid pattern := by
  split <;> trivial

/-- All voxels that match are found, in the order of the points. -/
theorem find_eq (wf : c.WellFormed) {x y z : Int32} (gx : wild ≤ x) (gy : wild ≤ y)
    (gz : wild ≤ z) :
    c.find x y z = .ok ((c.points.filter fun point => (patternOf x y z).z.admits point.1 &&
      ((patternOf x y z).y.admits point.2.1 && (patternOf x y z).x.admits point.2.2)).map
        voxelOf) := by
  rw [find, search_eq c gx gy gz, ← remaining_opening wf]
  refine congrArg Except.ok (((Place.lists wf).drain_fst (valid_opening c (patternOf x y z))
    c.cardinality).trans (List.take_of_length_le ?_))
  rw [List.length_map, cardinality_eq_length_points wf]
  exact List.length_filter_le _ _

/-- A search of a cube yields what brute force lists, and `find` collects all of it. -/
theorem search_yields {writes : List Write} (represents : Represents c (voxelsOf writes))
    {x y z : Int32} (gx : wild ≤ x) (gy : wild ≤ y) (gz : wild ≤ z) :
    ∃ s, c.search x y z = .ok s ∧ Traversal.Yields c s (bruteForce writes x y z) ∧
      c.find x y z = .ok (bruteForce writes x y z) := by
  have wf := represents.wf
  have listed := matching_eq_bruteForce represents x y z
  refine ⟨_, search_eq c gx gy gz, ?_, ?_⟩
  · rw [← listed, ← remaining_opening wf]
    exact (Place.lists wf).yields (valid_opening c (patternOf x y z))
  · rw [find_eq wf gx gy gz, listed]

end Cube

/-- Whatever was written, a search of a matrix or of a cube with a valid pattern opens and
yields exactly the cells that a brute-force filter and sort of the written cells lists, in
that order, and then nothing more. -/
theorem search_yields_bruteForce (p : PageSize) :
    (∀ (writes : List Matrix.Write) (x y : Int32), wild ≤ x → wild ≤ y →
      ∃ s, (Matrix.ofWrites p writes).search x y = .ok s ∧
        Traversal.Yields (Matrix.ofWrites p writes) s (Matrix.bruteForce writes x y) ∧
        (Matrix.ofWrites p writes).find x y = .ok (Matrix.bruteForce writes x y)) ∧
    (∀ (writes : List Cube.Write) (x y z : Int32), wild ≤ x → wild ≤ y → wild ≤ z →
      ∃ s, (Cube.ofWrites p writes).search x y z = .ok s ∧
        Traversal.Yields (Cube.ofWrites p writes) s (Cube.bruteForce writes x y z) ∧
        (Cube.ofWrites p writes).find x y z = .ok (Cube.bruteForce writes x y z)) := by
  constructor
  · intro writes x y gx gy
    exact Matrix.search_yields (Matrix.represents_ofWrites writes) gx gy
  · intro writes x y z gx gy gz
    exact Cube.search_yields (Cube.represents_ofWrites writes) gx gy gz

/-- Cells at both ends of the index space, with a plane that was emptied again. -/
theorem search_yields_bruteForce_edges :
    (wild ≤ wild ∧ wild ≤ (2147483647 : Int32)) ∧
    (∃ s, (Matrix.ofWrites ⟨3, by decide⟩ [.set 0 5, .set 0 2147483647]).search wild 2147483647 =
        .ok s ∧
      Traversal.Yields (Matrix.ofWrites ⟨3, by decide⟩ [.set 0 5, .set 0 2147483647]) s
        [⟨0, 2147483647⟩]) ∧
    ∃ s, (Cube.ofWrites ⟨3, by decide⟩ [.set 2147483647 0 2147483647, .insert 5 4 0,
        .remove 5 4 0]).search wild 0 2147483647 = .ok s ∧
      Traversal.Yields (Cube.ofWrites ⟨3, by decide⟩ [.set 2147483647 0 2147483647,
        .insert 5 4 0, .remove 5 4 0]) s [⟨2147483647, 0, 2147483647⟩] := by
  have last : wild ≤ (2147483647 : Int32) := by decide
  have cells : Matrix.bruteForce [.set 0 5, .set 0 2147483647] wild 2147483647 =
      [⟨0, 2147483647⟩] :=
    (congrArg (Finset.sort · Matrix.SearchOrder) (by decide)).trans (Finset.sort_singleton _ _)
  have voxels : Cube.bruteForce [.set 2147483647 0 2147483647, .insert 5 4 0, .remove 5 4 0]
      wild 0 2147483647 = [⟨2147483647, 0, 2147483647⟩] :=
    (congrArg (Finset.sort · Cube.SearchOrder) (by decide)).trans (Finset.sort_singleton _ _)
  refine ⟨⟨by decide, last⟩, ?_, ?_⟩
  · obtain ⟨s, opened, yields, _⟩ := (search_yields_bruteForce ⟨3, by decide⟩).1
      [.set 0 5, .set 0 2147483647] wild 2147483647 (by decide) last
    exact ⟨s, opened, cells ▸ yields⟩
  · obtain ⟨s, opened, yields, _⟩ := (search_yields_bruteForce ⟨3, by decide⟩).2
      [.set 2147483647 0 2147483647, .insert 5 4 0, .remove 5 4 0] wild 0 2147483647
      (by decide) (by decide) last
    exact ⟨s, opened, voxels ▸ yields⟩

end TripleCube
