import TripleCube.Proofs.Grid.CubeHorizon

/-! Searches of a matrix and of a cube while these are written to, in any interleaving of
writes with steps of any number of searches. A search yields only cells that match and are set
at that moment, in ascending order; of those that stay set it leaves none out; and after its
end it yields nothing more. A cell that is set ahead of a search is yielded too, unless the
row or the plane that the search stands in was dropped before the cell came. -/
namespace TripleCube

namespace Matrix

variable {p : PageSize} {m : Matrix p} {cells : Finset Cell} {x y : Int32}

/-- The matrix that calls leave, with the searches that they leave open. -/
def history (p : PageSize) (calls : List (Live.Call Write (Int32 × Int32))) :
    Live (Matrix p) Search :=
  Live.after calls (.of .empty)

theorem valid_history (p : PageSize) (calls : List (Live.Call Write (Int32 × Int32))) :
    (horizon p).Valid (history p calls).subject :=
  lawful.valid_after calls ⟨∅, represents_empty⟩

/-- Whether a cell agrees with a pattern. -/
def Matches (x y : Int32) (c : Cell) : Prop := Axis.Agrees x c.x ∧ Axis.Agrees y c.y

/-- How a search with a pattern begins. -/
def opening (m : Matrix p) (x y : Int32) : Search :=
  ⟨Axis.ofPattern x, Axis.ofPattern y,
    if m.isEmpty then .finished else .rows (Axis.ofPattern y).start⟩

theorem wants_opening_iff (m : Matrix p) (x y : Int32) (c : Cell) :
    (horizon p).Wants (opening m x y) c ↔ c.Proper ∧ Matches x y c := by
  refine and_congr_right fun _ => ?_
  rw [and_comm, opening, Axis.admits_ofPattern, Axis.admits_ofPattern, pointOf,
    Int32.toInt32_toUInt32, Int32.toInt32_toUInt32, Matches]

theorem ahead_opening_iff (filled : m.isEmpty = false) (x y : Int32) (c : Cell) :
    (horizon p).Ahead (opening m x y) c ↔ (horizon p).Wants (opening m x y) c := by
  refine and_congr_right fun _ => ?_
  simp only [opening, filled, Bool.false_eq_true, if_false, Place.admits_start, Bool.and_eq_true]

theorem isEmpty_eq_false (represents : m.Represents cells) {c : Cell}
    (holds : (horizon p).Holds m c) : m.isEmpty = false := by
  rw [represents.isEmpty, decide_eq_false_iff_not]
  exact Finset.ne_empty_of_mem ((represents.contains_iff c).mp holds)

/-- A search with a valid pattern begins with all matching cells ahead, if there are any. -/
theorem begins (represents : m.Represents cells) (gx : wild ≤ x) (gy : wild ≤ y) :
    (horizon p).Begins m (x, y) (Matches x y) (m.isEmpty = false) (opening m x y) where
  search := search_eq m gx gy
  stands := by
    rw [opening]
    split
    · exact ⟨trivial, trivial⟩
    · exact ⟨trivial, fun _ absent => by cases absent⟩
  agrees c wants := ((wants_opening_iff m x y c).mp wants).2
  wants m' c := by
    rintro ⟨cells, represents⟩ holds agrees
    exact (wants_opening_iff m x y c).mpr
      ⟨represents.nonneg ((represents.contains_iff c).mp holds), agrees⟩
  present c holds := (ahead_opening_iff (isEmpty_eq_false represents holds) x y c).mpr
  all filled := ahead_opening_iff filled x y

/-- A search with a valid pattern is opened, and each of its answers is consistent with what it
found until then. -/
theorem search_consistent (p : PageSize) {number : Int}
    (earlier : List (Live.Call Write (Int32 × Int32)))
    {during : List (Live.Call Write (Int32 × Int32))} (gx : wild ≤ x) (gy : wild ≤ y)
    (kept : ∀ pattern, .openCursor number pattern ∉ during) :
    ∃ opened, (history p earlier).step (.openCursor number (x, y)) = (.opened (.ok ()), opened) ∧
      ∃ answer, Live.Consistent (fun (m : Matrix p) c => m.contains c.x c.y = .ok true)
        (Matches x y) Precedes number opened during answer := by
  obtain ⟨cells, represents⟩ := valid_history p earlier
  exact (begins represents gx gy).consistent lawful ⟨cells, represents⟩ kept

end Matrix

namespace Cube

variable {p : PageSize} {c : Cube p} {voxels : Finset Voxel} {x y z : Int32}

/-- The cube that calls leave, with the searches that they leave open. -/
def history (p : PageSize) (calls : List (Live.Call Write (Int32 × Int32 × Int32))) :
    Live (Cube p) Search :=
  Live.after calls (.of .empty)

theorem valid_history (p : PageSize) (calls : List (Live.Call Write (Int32 × Int32 × Int32))) :
    (horizon p).Valid (history p calls).subject :=
  lawful.valid_after calls ⟨∅, represents_empty⟩

/-- Whether a voxel agrees with a pattern. -/
def Matches (x y z : Int32) (v : Voxel) : Prop :=
  Axis.Agrees x v.x ∧ Axis.Agrees y v.y ∧ Axis.Agrees z v.z

/-- How a search with a pattern begins. -/
def opening (c : Cube p) (x y z : Int32) : Search :=
  ⟨patternOf x y z, if c.isEmpty then .finished else .planes (patternOf x y z).z.start⟩

theorem wants_opening_iff (c : Cube p) (x y z : Int32) (v : Voxel) :
    (horizon p).Wants (opening c x y z) v ↔ v.Proper ∧ Matches x y z v := by
  refine and_congr_right fun _ => ?_
  simp only [opening, patternOf, Axis.admits_ofPattern, pointOf, Int32.toInt32_toUInt32, Matches]
  constructor
  · rintro ⟨plane, row, column⟩
    exact ⟨column, row, plane⟩
  · rintro ⟨column, row, plane⟩
    exact ⟨plane, row, column⟩

theorem ahead_opening_iff (filled : c.isEmpty = false) (x y z : Int32) (v : Voxel) :
    (horizon p).Ahead (opening c x y z) v ↔ (horizon p).Wants (opening c x y z) v := by
  refine and_congr_right fun _ => ?_
  simp only [opening, filled, Bool.false_eq_true, if_false, Place.admits_start, Bool.and_eq_true]

theorem isEmpty_eq_false (represents : c.Represents voxels) {v : Voxel}
    (holds : (horizon p).Holds c v) : c.isEmpty = false := by
  rw [represents.isEmpty, decide_eq_false_iff_not]
  exact Finset.ne_empty_of_mem ((represents.contains_iff v).mp holds)

/-- A search with a valid pattern begins with all matching voxels ahead, if there are any. -/
theorem begins (represents : c.Represents voxels) (gx : wild ≤ x) (gy : wild ≤ y) (gz : wild ≤ z) :
    (horizon p).Begins c (x, y, z) (Matches x y z) (c.isEmpty = false) (opening c x y z) where
  search := search_eq c gx gy gz
  stands := by
    rw [opening]
    split
    · exact ⟨trivial, trivial⟩
    · exact ⟨trivial, fun _ absent => by cases absent⟩
  agrees v wants := ((wants_opening_iff c x y z v).mp wants).2
  wants c' v := by
    rintro ⟨voxels, represents⟩ holds agrees
    exact (wants_opening_iff c x y z v).mpr
      ⟨represents.nonneg ((represents.contains_iff v).mp holds), agrees⟩
  present v holds := (ahead_opening_iff (isEmpty_eq_false represents holds) x y z v).mpr
  all filled := ahead_opening_iff filled x y z

/-- A search with a valid pattern is opened, and each of its answers is consistent with what it
found until then. -/
theorem search_consistent (p : PageSize) {number : Int}
    (earlier : List (Live.Call Write (Int32 × Int32 × Int32)))
    {during : List (Live.Call Write (Int32 × Int32 × Int32))} (gx : wild ≤ x) (gy : wild ≤ y)
    (gz : wild ≤ z) (kept : ∀ pattern, .openCursor number pattern ∉ during) :
    ∃ opened, (history p earlier).step (.openCursor number (x, y, z)) =
        (.opened (.ok ()), opened) ∧
      ∃ answer, Live.Consistent (fun (c : Cube p) v => c.contains v.x v.y v.z = .ok true)
        (Matches x y z) Precedes number opened during answer := by
  obtain ⟨voxels, represents⟩ := valid_history p earlier
  exact (begins represents gx gy gz).consistent lawful ⟨voxels, represents⟩ kept

end Cube

/-- Pages of four indices. -/
def smallPages : PageSize := ⟨4, by decide⟩

/-- A cell in each of two rows. -/
def Matrix.twoRows : List (Live.Call Write (Int32 × Int32)) :=
  [.write (.set 0 5), .write (.set 9 9)]

/-- One step of a search, and the row that it came to is dropped and brought back. -/
def Matrix.rewriteRow : List (Live.Call Write (Int32 × Int32)) :=
  [.next 1, .write (.clear 0 5), .write (.set 3 5)]

/-- A voxel in each of two planes. -/
def Cube.twoPlanes : List (Live.Call Write (Int32 × Int32 × Int32)) :=
  [.write (.set 0 5 1), .write (.set 2 2 7)]

/-- One step of a search, and the plane that it came to is dropped and brought back. -/
def Cube.rewritePlane : List (Live.Call Write (Int32 × Int32 × Int32)) :=
  [.next 1, .write (.remove 0 5 1), .write (.insert 3 6 1)]

/-- Over a container with cells, a search returns what is set ahead of it and stays set until
its end, unless it stands in a row or a plane that was dropped and has lost the cell with it. -/
theorem searches_return_iff_not_lost (p : PageSize) (number : Int) :
    (∀ (earlier during later : List (Live.Call Matrix.Write (Int32 × Int32))) (x y : Int32),
      wild ≤ x → wild ≤ y → (Matrix.history p earlier).subject.isEmpty = false →
      (∀ pattern, .openCursor number pattern ∉ during ++ later) →
      ∃ opened, (Matrix.history p earlier).step (.openCursor number (x, y)) =
          (.opened (.ok ()), opened) ∧
        ∀ c, Matrix.Matches x y c →
          Live.Due (fun (m : Matrix p) c => m.contains c.x c.y = .ok true) Matrix.Precedes number
            opened during later c →
          (some c ∈ Live.returned number later (Live.after during opened) ↔
            ¬ Live.Lost Matrix.Apart number opened during c)) ∧
    (∀ (earlier during later : List (Live.Call Cube.Write (Int32 × Int32 × Int32)))
      (x y z : Int32), wild ≤ x → wild ≤ y → wild ≤ z →
      (Cube.history p earlier).subject.isEmpty = false →
      (∀ pattern, .openCursor number pattern ∉ during ++ later) →
      ∃ opened, (Cube.history p earlier).step (.openCursor number (x, y, z)) =
          (.opened (.ok ()), opened) ∧
        ∀ v, Cube.Matches x y z v →
          Live.Due (fun (c : Cube p) v => c.contains v.x v.y v.z = .ok true) Cube.Precedes number
            opened during later v →
          (some v ∈ Live.returned number later (Live.after during opened) ↔
            ¬ Live.Lost Cube.Apart number opened during v)) := by
  constructor
  · intro earlier during later x y gx gy filled kept
    obtain ⟨cells, represents⟩ := Matrix.valid_history p earlier
    exact (Matrix.begins represents gx gy).returned_iff Matrix.lawful ⟨cells, represents⟩ filled
      kept
  · intro earlier during later x y z gx gy gz filled kept
    obtain ⟨voxels, represents⟩ := Cube.valid_history p earlier
    exact (Cube.begins represents gx gy gz).returned_iff Cube.lawful ⟨voxels, represents⟩ filled
      kept

theorem Matrix.due_rewriteRow {opened : Live (Matrix smallPages) Search}
    (answered : (history smallPages twoRows).step (.openCursor 1 (wild, wild)) =
      (.opened (.ok ()), opened)) : ∀ c ∈ [⟨3, 5⟩, ⟨9, 9⟩],
      Live.Due (fun m c => m.contains c.x c.y = .ok true) Precedes 1 opened rewriteRow [.next 1]
        c := by
  obtain rfl : _ = opened := congrArg Prod.snd answered
  intro c listed
  exact Live.due_of_returned ⟨0, 5⟩ (by decide) rfl (by revert c; decide) (by revert c; decide)

theorem Cube.due_rewritePlane {opened : Live (Cube smallPages) Search}
    (answered : (history smallPages twoPlanes).step (.openCursor 1 (wild, wild, wild)) =
      (.opened (.ok ()), opened)) : ∀ v ∈ [⟨3, 6, 1⟩, ⟨2, 2, 7⟩],
      Live.Due (fun c v => c.contains v.x v.y v.z = .ok true) Precedes 1 opened rewritePlane
        [.next 1] v := by
  obtain rfl : _ = opened := congrArg Prod.snd answered
  intro v listed
  exact Live.due_of_returned ⟨0, 5, 1⟩ (by decide) rfl (by revert v; decide) (by revert v; decide)

/-- Of two cells that are due one is lost with its row, and of two voxels one with its plane. -/
theorem searches_return_iff_not_lost_rewritten :
    (wild ≤ wild ∧
      (Matrix.history smallPages Matrix.twoRows).subject.isEmpty = false ∧
      (∀ pattern, .openCursor 1 pattern ∉ Matrix.rewriteRow ++ [.next 1]) ∧
      (Cube.history smallPages Cube.twoPlanes).subject.isEmpty = false ∧
      ∀ pattern, .openCursor 1 pattern ∉ Cube.rewritePlane ++ [.next 1]) ∧
    (∃ opened, (Matrix.history smallPages Matrix.twoRows).step (.openCursor 1 (wild, wild)) =
        (.opened (.ok ()), opened) ∧
      ∀ c ∈ [⟨3, 5⟩, ⟨9, 9⟩],
        Live.Due (fun (m : Matrix smallPages) c => m.contains c.x c.y = .ok true)
          Matrix.Precedes 1 opened Matrix.rewriteRow [.next 1] c ∧
        (Live.Lost Matrix.Apart 1 opened Matrix.rewriteRow c ↔ c = ⟨3, 5⟩)) ∧
    ∃ opened, (Cube.history smallPages Cube.twoPlanes).step (.openCursor 1 (wild, wild, wild)) =
        (.opened (.ok ()), opened) ∧
      ∀ v ∈ [⟨3, 6, 1⟩, ⟨2, 2, 7⟩],
        Live.Due (fun (c : Cube smallPages) v => c.contains v.x v.y v.z = .ok true)
          Cube.Precedes 1 opened Cube.rewritePlane [.next 1] v ∧
        (Live.Lost Cube.Apart 1 opened Cube.rewritePlane v ↔ v = ⟨3, 6, 1⟩) := by
  have valid : wild ≤ wild := by decide
  have keptRow : ∀ pattern, .openCursor 1 pattern ∉ Matrix.rewriteRow ++ [.next 1] := by
    simp [Matrix.rewriteRow]
  have keptPlane : ∀ pattern, .openCursor 1 pattern ∉ Cube.rewritePlane ++ [.next 1] := by
    simp [Cube.rewritePlane]
  refine ⟨⟨valid, by decide, keptRow, by decide, keptPlane⟩, ?_, ?_⟩
  · obtain ⟨opened, answered, law⟩ := (searches_return_iff_not_lost smallPages 1).1
      Matrix.twoRows Matrix.rewriteRow [.next 1] wild wild valid valid (by decide) keptRow
    obtain rfl : _ = opened := congrArg Prod.snd answered
    refine ⟨_, answered, fun c listed => ?_⟩
    have due := Matrix.due_rewriteRow answered c listed
    refine ⟨due, ?_⟩
    rw [← not_iff_not, ← law c ⟨Or.inl rfl, Or.inl rfl⟩ due]
    clear due
    revert c
    decide
  · obtain ⟨opened, answered, law⟩ := (searches_return_iff_not_lost smallPages 1).2
      Cube.twoPlanes Cube.rewritePlane [.next 1] wild wild wild valid valid valid (by decide)
      keptPlane
    obtain rfl : _ = opened := congrArg Prod.snd answered
    refine ⟨_, answered, fun v listed => ?_⟩
    have due := Cube.due_rewritePlane answered v listed
    refine ⟨due, ?_⟩
    rw [← not_iff_not, ← law v ⟨Or.inl rfl, Or.inl rfl, Or.inl rfl⟩ due]
    clear due
    revert v
    decide

/-- A cell or a voxel that is set ahead of a search and stays set until its end is not always
returned: a row or a plane that comes back while a search stands in it is passed over. -/
theorem searches_pass_over_due :
    (∃ opened, (Matrix.history smallPages Matrix.twoRows).step (.openCursor 1 (wild, wild)) =
        (.opened (.ok ()), opened) ∧ Matrix.Matches wild wild ⟨3, 5⟩ ∧
      Live.Due (fun (m : Matrix smallPages) c => m.contains c.x c.y = .ok true)
        Matrix.Precedes 1 opened Matrix.rewriteRow [.next 1] ⟨3, 5⟩ ∧
      some ⟨3, 5⟩ ∉ Live.returned 1 [.next 1] (Live.after Matrix.rewriteRow opened)) ∧
    ∃ opened, (Cube.history smallPages Cube.twoPlanes).step (.openCursor 1 (wild, wild, wild)) =
        (.opened (.ok ()), opened) ∧ Cube.Matches wild wild wild ⟨3, 6, 1⟩ ∧
      Live.Due (fun (c : Cube smallPages) v => c.contains v.x v.y v.z = .ok true)
        Cube.Precedes 1 opened Cube.rewritePlane [.next 1] ⟨3, 6, 1⟩ ∧
      some ⟨3, 6, 1⟩ ∉ Live.returned 1 [.next 1] (Live.after Cube.rewritePlane opened) := by
  constructor
  · refine ⟨_, rfl, ⟨Or.inl rfl, Or.inl rfl⟩, Matrix.due_rewriteRow rfl _ (by simp), by decide⟩
  · refine ⟨_, rfl, ⟨Or.inl rfl, Or.inl rfl, Or.inl rfl⟩, Cube.due_rewritePlane rfl _ (by simp),
      by decide⟩

end TripleCube
