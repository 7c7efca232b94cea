import TripleCube.Proofs.Grid.Find

/-! The counter of a cube. As long as only `insert` and `remove` write to a cube, its counter
is the number of its voxels, up to the width of the counter. -/
namespace TripleCube.Cube

variable {p : PageSize}

/-- A cube in which exactly the voxels of a set are set, and counted. -/
structure Counts (c : Cube p) (voxels : Finset Voxel) : Prop where
  represents : c.Represents voxels
  counter : c.counter = Int64.ofNat voxels.card

variable {c : Cube p} {voxels : Finset Voxel}

theorem counts_empty : (empty : Cube p).Counts ∅ := ⟨represents_empty, rfl⟩

theorem Represents.containsAt (represents : c.Represents voxels) (v : Voxel) :
    c.containsAt v.x.toUInt32 v.y.toUInt32 v.z.toUInt32 = decide (v ∈ voxels) := by
  have set := represents.voxel (v.z.toUInt32, v.y.toUInt32, v.x.toUInt32)
  rw [voxelOf_words] at set
  rw [Bool.eq_iff_iff, set, decide_eq_true_iff]

theorem Represents.contains (represents : c.Represents voxels) {v : Voxel}
    (nonneg : 0 ≤ v.x ∧ 0 ≤ v.y ∧ 0 ≤ v.z) :
    c.contains v.x v.y v.z = .ok (decide (v ∈ voxels)) := by
  rw [contains_of_nonneg nonneg, represents.containsAt]

theorem Represents.isEmpty (represents : c.Represents voxels) :
    c.isEmpty = decide (voxels = ∅) := by
  rw [Bool.eq_iff_iff, decide_eq_true_iff, isEmpty_iff represents.wf]
  constructor
  · intro clear
    apply Finset.eq_empty_of_forall_notMem
    intro v member
    have set := represents.containsAt v
    rw [clear, decide_eq_true member] at set
    cases set
  · rintro rfl x y z
    have set := represents.voxel (z, y, x)
    simpa using set

/-- Inserting tells whether the voxel is new, and counts it then. -/
theorem Counts.insert (counts : c.Counts voxels) {v : Voxel}
    (nonneg : 0 ≤ v.x ∧ 0 ≤ v.y ∧ 0 ≤ v.z) :
    ∃ c', c.insert v.x v.y v.z = .ok (decide (v ∉ voxels), c') ∧
      c'.Counts (Insert.insert v voxels) := by
  have changed := setAt_fst counts.represents.wf v.x.toUInt32 v.y.toUInt32 v.z.toUInt32
  rw [counts.represents.containsAt, ← decide_not] at changed
  rw [insert_of_nonneg nonneg]
  refine ⟨_, congrArg (fun flag => Except.ok (flag, _)) changed,
    (counts.represents.setAt nonneg).recount _, ?_⟩
  dsimp only
  rw [changed, counts.counter]
  by_cases member : v ∈ voxels
  · rw [Finset.insert_eq_of_mem member]
    simp [member]
  · rw [Finset.card_insert_of_notMem member, Int64.ofNat_add]
    simp [member]

/-- Removing tells whether the voxel was there, and uncounts it then. -/
theorem Counts.remove (counts : c.Counts voxels) {v : Voxel}
    (nonneg : 0 ≤ v.x ∧ 0 ≤ v.y ∧ 0 ≤ v.z) :
    ∃ c', c.remove v.x v.y v.z = .ok (decide (v ∈ voxels), c') ∧ c'.Counts (voxels.erase v) := by
  have changed := clearAt_fst counts.represents.wf v.x.toUInt32 v.y.toUInt32 v.z.toUInt32
  rw [counts.represents.containsAt] at changed
  rw [remove_of_nonneg nonneg]
  refine ⟨_, congrArg (fun flag => Except.ok (flag, _)) changed,
    (counts.represents.clearAt v.x v.y v.z).recount _, ?_⟩
  dsimp only
  rw [changed, counts.counter]
  by_cases member : v ∈ voxels
  · rw [← Finset.card_erase_add_one member, Int64.ofNat_add]
    simp [member]
  · rw [Finset.erase_eq_of_notMem member]
    simp [member]

end TripleCube.Cube
