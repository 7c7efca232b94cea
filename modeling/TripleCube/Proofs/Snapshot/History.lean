import TripleCube.Proofs.Grid.Agreement
import TripleCube.Proofs.Snapshot.Reload
import TripleCube.Proofs.Sparse.Entries
import TripleCube.Proofs.Sparse.IndexSet

/-! Histories leave no trace but the contents. A container is well formed after every history, and
a well-formed container has one form for what it holds; so the contents tell its pages, its slots
and words and its counts, at every depth, and the bytes of its snapshot. -/
namespace TripleCube

variable {p : PageSize}

namespace PagedMap

variable {α : Type}

/-- The map that a history of calls leaves. -/
def after (p : PageSize) (calls : List (Write α)) : PagedMap p α := (Calls.run step calls empty).2

theorem represents_after (calls : List (Write α)) :
    (after p calls).Represents (Calls.run stepEntries calls ∅).2 :=
  (Calls.run_simulates Represents (fun _ _ write represents => represents.step write) calls
    represents_empty).2

end PagedMap

namespace BitSet

/-- The set that a history of calls leaves. -/
def after (p : PageSize) (calls : List Write) : BitSet p := (Calls.run step calls empty).2

theorem represents_after (calls : List Write) :
    (after p calls).Represents (Calls.run stepMembers calls ∅).2 :=
  (Calls.run_simulates Represents (fun _ _ write represents => represents.step write) calls
    represents_empty).2

end BitSet

namespace Matrix

/-- The matrix that a history of calls leaves. -/
def after (p : PageSize) (calls : List Call) : Matrix p := (Calls.run step calls empty).2

theorem represents_after (calls : List Call) :
    (after p calls).Represents (Calls.run stepCells calls ∅).2 :=
  (Calls.run_simulates Represents (fun _ _ call represents => represents.step call) calls
    represents_empty).2

end Matrix

/-- Two histories of one page size that end with the same contents end with equal containers. Maps
and sets have the same pages with the same slots, words and counts, matrices the same rows, and
cubes differ in the counter at most. Cubes with the same counter write the same snapshot. -/
theorem eq_of_same_contents (p : PageSize) :
    (∀ (α : Type) (calls others : List (PagedMap.Write α)),
      (∀ index, (PagedMap.after p calls).get? index = (PagedMap.after p others).get? index) →
        PagedMap.after p calls = PagedMap.after p others) ∧
    (∀ calls others : List BitSet.Write,
      (∀ index, (BitSet.after p calls).contains index = (BitSet.after p others).contains index) →
        BitSet.after p calls = BitSet.after p others) ∧
    (∀ calls others : List Matrix.Call,
      (∀ x y, (Matrix.after p calls).contains x y = (Matrix.after p others).contains x y) →
        Matrix.after p calls = Matrix.after p others) ∧
    (∀ c other : Cube p, c.Reachable → other.Reachable →
      (∀ x y z, c.contains x y z = other.contains x y z) →
        c = { other with counter := c.counter } ∧
          (c.counter = other.counter → ∀ sink, c.write sink = other.write sink)) := by
  refine ⟨fun α calls others same => ?_, fun calls others same => ?_, fun calls others same => ?_,
    fun c other reached otherReached same => ?_⟩
  · exact (PagedMap.represents_after calls).wf.eq_of_get? (PagedMap.represents_after others).wf same
  · exact (BitSet.represents_after calls).wf.eq_of_contains (BitSet.represents_after others).wf same
  · have represents := Matrix.represents_after (p := p) calls
    have otherRepresents := Matrix.represents_after (p := p) others
    have unique := represents.cells_unique otherRepresents same
    exact (represents.agree (unique ▸ otherRepresents)).eq
  · obtain ⟨voxels, represents, otherRepresents⟩ := reached.represents_same otherReached same
    have equal := (represents.agree otherRepresents).eq
    refine ⟨equal, fun counter sink => ?_⟩
    rw [equal, counter]

/-- Pages, a row and a plane that came and went, and a counter that drifted back. -/
theorem eq_of_same_contents_emptied :
    let p : PageSize := ⟨3, by decide⟩
    let m : PagedMap p String := .after p [.insert 5 "a", .insert 4294967295 "b", .remove 4294967295]
    let m' : PagedMap p String := .after p [.put 5 (some "b"), .remove 70, .insert 5 "a"]
    let s : BitSet p := .after p [.set 70, .set 7, .clear 70]
    let s' : BitSet p := .after p [.set 7, .set 8, .clear 8]
    let grid : Matrix p := .after p [.write (.set 1 2), .write (.set 9 9), .write (.clear 9 9)]
    let grid' : Matrix p := .after p [.write (.set 4 2), .write (.set 1 2), .write (.clear 4 2)]
    let c : Cube p := ((Cube.empty.apply (.set 1 2 3)).apply (.insert 4 4 4)).apply (.remove 4 4 4)
    let c' : Cube p := ((Cube.empty.apply (.clear 9 9 9)).apply (.set 1 2 3)).apply (.set 1 2 3)
    ((∀ index, m.get? index = m'.get? index) ∧ m = m') ∧
    ((∀ index, s.contains index = s'.contains index) ∧ s = s') ∧
    ((∀ x y, grid.contains x y = grid'.contains x y) ∧ grid = grid') ∧
    (c.Reachable ∧ c'.Reachable ∧ (∀ x y z, c.contains x y z = c'.contains x y z) ∧
      c.counter = c'.counter ∧ ∀ sink, c.write sink = c'.write sink) := by
  obtain ⟨maps, sets, matrices, cubes⟩ := eq_of_same_contents ⟨3, by decide⟩
  have reached : ∀ a b d : Cube.Write,
      (((Cube.empty (p := ⟨3, by decide⟩)).apply a).apply b).apply d |>.Reachable :=
    fun a b d => .write d (.write b (.write a .empty))
  exact ⟨⟨fun _ => rfl, maps _ _ _ fun _ => rfl⟩, ⟨fun _ => rfl, sets _ _ fun _ => rfl⟩,
    ⟨fun _ _ => rfl, matrices _ _ fun _ _ => rfl⟩, reached _ _ _, reached _ _ _, fun _ _ _ => rfl,
    by decide, (cubes _ _ (reached _ _ _) (reached _ _ _) fun _ _ _ => rfl).2 (by decide)⟩

end TripleCube
