import TripleCube.Proofs.Grid.Interleaved
import TripleCube.Proofs.Shared.Cube

/-! Searches of a matrix and of a cube whose rows and planes are shared, in any interleaving of
writes with steps of any number of searches. No write tells a search anything. A search yields
only cells that match and are set at that moment, also when it stands in a row or a plane that
was dropped. -/
namespace TripleCube

theorem SharedMatrix.holds_iff {p : PageSize} {s : SharedMatrix p} {m : Matrix p}
    (shows : s.Shows m) (c : Cell) :
    s.contains c.x c.y = .ok true ↔ m.contains c.x c.y = .ok true := by
  rw [shows.contains]

theorem SharedCube.holds_iff {p : PageSize} {s : SharedCube p} {c : Cube p}
    (shows : s.Shows c) (v : Voxel) :
    s.contains v.x v.y v.z = .ok true ↔ c.contains v.x v.y v.z = .ok true := by
  rw [shows.contains]

/-- Whatever is written and whatever else is searched, a search of a matrix or of a cube with a
valid pattern is opened, and each of its answers is consistent with what it found until then. -/
theorem searches_consistent (p : PageSize) (number : Int) :
    (∀ (earlier during : List (Live.Call Matrix.Write (Int32 × Int32))) (x y : Int32),
      wild ≤ x → wild ≤ y → (∀ pattern, .openCursor number pattern ∉ during) →
      ∃ opened, (SharedMatrix.history p earlier).step (.openCursor number (x, y)) =
          (.opened (.ok ()), opened) ∧
        ∃ answer, Live.Consistent (fun (m : SharedMatrix p) c => m.contains c.x c.y = .ok true)
          (Matrix.Matches x y) Matrix.Precedes number opened during answer) ∧
    (∀ (earlier during : List (Live.Call Cube.Write (Int32 × Int32 × Int32))) (x y z : Int32),
      wild ≤ x → wild ≤ y → wild ≤ z → (∀ pattern, .openCursor number pattern ∉ during) →
      ∃ opened, (SharedCube.history p earlier).step (.openCursor number (x, y, z)) =
          (.opened (.ok ()), opened) ∧
        ∃ answer, Live.Consistent
          (fun (c : SharedCube p) v => c.contains v.x v.y v.z = .ok true)
          (Cube.Matches x y z) Cube.Precedes number opened during answer) := by
  constructor
  · intro earlier during x y gx gy kept
    exact SharedMatrix.simulates.opens_consistent (SharedMatrix.linked_history p earlier)
      SharedMatrix.holds_iff (Matrix.search_consistent p earlier gx gy kept)
  · intro earlier during x y z gx gy gz kept
    exact SharedCube.simulates.opens_consistent (SharedCube.linked_history p earlier)
      SharedCube.holds_iff (Cube.search_consistent p earlier gx gy gz kept)

/-- A search whose row or plane is dropped and comes back goes on with the next. -/
theorem searches_consistent_rewritten :
    (wild ≤ wild ∧ (∀ pattern, .openCursor 1 pattern ∉ Matrix.rewriteRow) ∧
      ∀ pattern, .openCursor 1 pattern ∉ Cube.rewritePlane) ∧
    (∃ opened, (SharedMatrix.history smallPages Matrix.twoRows).step
          (.openCursor 1 (wild, wild)) = (.opened (.ok ()), opened) ∧
      Live.Consistent (fun (m : SharedMatrix smallPages) c => m.contains c.x c.y = .ok true)
        (Matrix.Matches wild wild) Matrix.Precedes 1 opened Matrix.rewriteRow (some ⟨9, 9⟩)) ∧
    ∃ opened, (SharedCube.history smallPages Cube.twoPlanes).step
          (.openCursor 1 (wild, wild, wild)) = (.opened (.ok ()), opened) ∧
      Live.Consistent (fun (c : SharedCube smallPages) v => c.contains v.x v.y v.z = .ok true)
        (Cube.Matches wild wild wild) Cube.Precedes 1 opened Cube.rewritePlane
        (some ⟨2, 2, 7⟩) := by
  have valid : wild ≤ wild := by decide
  have keptRow : ∀ pattern, .openCursor 1 pattern ∉ Matrix.rewriteRow := by
    simp [Matrix.rewriteRow]
  have keptPlane : ∀ pattern, .openCursor 1 pattern ∉ Cube.rewritePlane := by
    simp [Cube.rewritePlane]
  refine ⟨⟨valid, keptRow, keptPlane⟩, ?_, ?_⟩
  · obtain ⟨opened, answered, answer, consistent⟩ := (searches_consistent smallPages 1).1
      Matrix.twoRows Matrix.rewriteRow wild wild valid valid keptRow
    obtain rfl : _ = opened := congrArg Prod.snd answered
    have linked := (SharedMatrix.simulates.step
      (SharedMatrix.linked_history smallPages Matrix.twoRows) (.openCursor 1 (wild, wild))).2
    have next := SharedMatrix.simulates.answer linked Matrix.rewriteRow (.next 1)
    have found : Live.Answer.item (some (some ⟨9, 9⟩)) = .item (some answer) :=
      Eq.trans rfl (next.symm.trans consistent.answers)
    cases found
    exact ⟨_, answered, consistent⟩
  · obtain ⟨opened, answered, answer, consistent⟩ := (searches_consistent smallPages 1).2
      Cube.twoPlanes Cube.rewritePlane wild wild wild valid valid valid keptPlane
    obtain rfl : _ = opened := congrArg Prod.snd answered
    have linked := (SharedCube.simulates.step
      (SharedCube.linked_history smallPages Cube.twoPlanes) (.openCursor 1 (wild, wild, wild))).2
    have next := SharedCube.simulates.answer linked Cube.rewritePlane (.next 1)
    have found : Live.Answer.item (some (some ⟨2, 2, 7⟩)) = .item (some answer) :=
      Eq.trans rfl (next.symm.trans consistent.answers)
    cases found
    exact ⟨_, answered, consistent⟩

end TripleCube
