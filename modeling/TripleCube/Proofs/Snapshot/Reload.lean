import TripleCube.Proofs.Grid.Canonical
import TripleCube.Proofs.Grid.CellSet
import TripleCube.Proofs.Grid.CubeHorizon
import TripleCube.Proofs.Snapshot.Codec

/-! Writing a cube as a snapshot and reading it back. A snapshot lists the cells in the order of
a search, so that it is one of many lists with the same cells; reading takes any of them and
yields the cube that has these cells and the counter of the snapshot. -/
namespace TripleCube

theorem PageSize.ofUInt32?_eq_some {size : UInt32} {p : PageSize} :
    ofUInt32? size = some p ↔ p.val = size := by
  rw [ofUInt32?]
  constructor
  · intro accepted
    split at accepted
    · exact congrArg val (Option.some.inj accepted).symm
    · cases accepted
  · rintro rfl
    exact dif_pos p.pos

namespace Cube

variable {p : PageSize} {c other : Cube p} {voxels : Finset Voxel} {cells : List Voxel}

theorem voxels_eq (c : Cube p) : c.voxels = c.points.map voxelOf := by
  simp [Cube.voxels, points, PagedMap.points, Matrix.cells, Matrix.points, List.map_flatMap,
    Function.comp_def, voxelOf, Matrix.cellOf]

theorem length_voxels (wf : c.WellFormed) : c.voxels.length = c.cardinality := by
  rw [voxels_eq, List.length_map, cardinality_eq_length_points wf]

/-- A search for everything lists the voxels. -/
theorem find_wild (wf : c.WellFormed) : c.find wild wild wild = .ok c.voxels := by
  have all : ∀ point ∈ c.points, ((patternOf wild wild wild).z.admits point.1 &&
      ((patternOf wild wild wild).y.admits point.2.1 &&
        (patternOf wild wild wild).x.admits point.2.2)) = true := fun _ _ => rfl
  have valid : wild ≤ wild := Int32.le_refl wild
  rw [find_eq wf valid valid valid, List.filter_eq_self.mpr all, voxels_eq]

theorem Represents.mem_voxels (represents : c.Represents voxels) {v : Voxel} :
    v ∈ c.voxels ↔ v ∈ voxels := by
  rw [voxels_eq, represents.mem_points]

theorem asymm_precedes (a b : Voxel) (less : Precedes a b) : ¬ Precedes b a := by
  simp only [Precedes, Int32.lt_iff_toInt_lt, ← Int32.toInt_inj] at less ⊢
  omega

/-- Voxels are listed in the order of a search. -/
theorem Represents.pairwise_voxels (represents : c.Represents voxels) :
    c.voxels.Pairwise Precedes := by
  have proper : ∀ point ∈ c.points, (voxelOf point).Proper := fun point listed =>
    represents.nonneg (represents.mem_points.mp (List.mem_map_of_mem listed))
  rw [voxels_eq, List.pairwise_map]
  refine (pairwise_points represents.wf).imp_of_mem fun {a b} first second less => ?_
  rwa [precedes_iff (proper a first) (proper b second), pointOf_voxelOf, pointOf_voxelOf]

theorem Represents.toFinset_voxels (represents : c.Represents voxels) :
    c.voxels.toFinset = voxels := by
  ext v
  rw [List.mem_toFinset, represents.mem_voxels]

/-- The listing is the only one that ascends. -/
theorem Represents.voxels_eq_iff (represents : c.Represents cells.toFinset) :
    c.voxels = cells ↔ cells.Pairwise Precedes := by
  constructor
  · intro same
    exact same ▸ represents.pairwise_voxels
  · intro ascends
    refine Sorted.eq_of_mem_iff asymm_precedes represents.pairwise_voxels ascends fun v => ?_
    rw [represents.mem_voxels, List.mem_toFinset]

/-- A cube is determined by its set of voxels and its counter. -/
theorem Represents.eq (represents : c.Represents voxels) (otherRepresents : other.Represents voxels)
    (counter : c.counter = other.counter) : c = other := by
  refine represents.wf.eq_of_containsAt otherRepresents.wf (fun x y z => ?_) counter
  rw [Bool.eq_iff_iff, represents.voxel (z, y, x), otherRepresents.voxel (z, y, x)]

/-- Only cells with coordinates can be set. -/
theorem proper_of_setAll (set : c.setAll cells = .ok other) : ∀ v ∈ cells, v.Proper := by
  induction cells generalizing c with
  | nil => simp
  | cons v rest ih =>
    rw [setAll, bind_eq_ok] at set
    obtain ⟨point, located, set⟩ := set
    have accepted : v.refusal? = none := by
      rw [locate_eq] at located
      cases refused : v.refusal? with
      | none => rfl
      | some e => simp [refused] at located
    exact List.forall_mem_cons.mpr ⟨Voxel.refusal?_eq_none_iff.mp accepted, ih set⟩

/-- Setting cells adds them, in whatever order they are listed, and does not count them. -/
theorem Represents.setAll (represents : c.Represents voxels) (proper : ∀ v ∈ cells, v.Proper) :
    ∃ other, c.setAll cells = .ok other ∧ other.counter = c.counter ∧
      other.Represents (voxels ∪ cells.toFinset) := by
  induction cells generalizing c voxels with
  | nil => exact ⟨c, rfl, rfl, by simpa using represents⟩
  | cons v rest ih =>
    obtain ⟨here, later⟩ := List.forall_mem_cons.mp proper
    obtain ⟨other, set, counter, after⟩ := ih (represents.setAt here) later
    refine ⟨other, ?_, counter, ?_⟩
    · rw [Cube.setAll, locate_of_nonneg here]
      exact set
    · rwa [List.toFinset_cons, Finset.union_insert, ← Finset.insert_union]

/-- A cube is read where a snapshot stands that has its page size and counter and lists its
voxels. -/
theorem read_eq_ok {source : Source} : read source = .ok ⟨p, c⟩ ↔
    ∃ cells, Snapshot.Begins source p.val c.counter cells ∧ c.Represents cells.toFinset := by
  simp only [read, bind_eq_ok, Prod.exists, Snapshot.read_image_eq_ok]
  constructor
  · rintro ⟨size, counter, cells, begins, loaded⟩
    split at loaded
    · cases loaded
    · next accepted =>
      obtain ⟨set, filled, same⟩ := bind_eq_ok.mp loaded
      cases same
      obtain ⟨_, again, -, represents⟩ := represents_empty.setAll (proper_of_setAll filled)
      cases filled.symm.trans again
      rw [Finset.empty_union] at represents
      exact ⟨cells, PageSize.ofUInt32?_eq_some.mp accepted ▸ begins, represents.recount counter⟩
  · rintro ⟨cells, begins, represents⟩
    have proper : ∀ v ∈ cells, v.Proper := fun v listed =>
      represents.nonneg (List.mem_toFinset.mpr listed)
    obtain ⟨filled, set, -, same⟩ := (represents_empty (p := p)).setAll proper
    rw [Finset.empty_union] at same
    refine ⟨p.val, c.counter, cells, begins, ?_⟩
    rw [PageSize.ofUInt32?_eq_some.mpr rfl]
    -- The cube that is filled need not have been built as `c` was, but it has the same voxels.
    refine bind_eq_ok.mpr ⟨filled, set, ?_⟩
    rw [(same.recount c.counter).eq represents rfl]
    rfl

theorem write_unlimited (small : c.cardinality < 2 ^ 64) (wf : c.WellFormed) :
    c.write .unlimited = .ok { accepted := Snapshot.layout p.val c.counter c.voxels } := by
  rw [← Snapshot.encode_image (length_voxels wf ▸ small)]
  exact congrArg _ (Sink.write_eq rfl _)

/-- A cube is written as a given list of its voxels if that is its listing. -/
theorem Represents.rewritten_iff (represents : c.Represents cells.toFinset)
    (small : cells.length < 2 ^ 64) :
    c.write .unlimited = .ok { accepted := Snapshot.layout p.val c.counter cells } ↔
      cells.Pairwise Precedes := by
  have cardinality : c.cardinality < 2 ^ 64 :=
    represents.cardinality ▸ Nat.lt_of_le_of_lt (List.toFinset_card_le cells) small
  have listed : c.voxels.length < 2 ^ 64 := length_voxels represents.wf ▸ cardinality
  rw [← represents.voxels_eq_iff, write_unlimited cardinality represents.wf]
  constructor
  · intro written
    have same := congrArg Sink.accepted (Except.ok.inj written)
    exact Snapshot.layout_inj listed small same
  · intro same
    rw [same]

/-- The cubes that calls and snapshots lead to. -/
inductive Reachable : {p : PageSize} → Cube p → Prop
  | empty {p : PageSize} : Reachable (empty : Cube p)
  | write {p : PageSize} {c : Cube p} (write : Write) : Reachable c → Reachable (c.apply write)
  | read {p : PageSize} {c : Cube p} {source : Source} : read source = .ok ⟨p, c⟩ → Reachable c

theorem Reachable.represents {p : PageSize} {c : Cube p} (reachable : c.Reachable) :
    ∃ voxels, c.Represents voxels := by
  induction reachable with
  | empty => exact ⟨∅, represents_empty⟩
  | write write _ ih =>
    obtain ⟨voxels, represents⟩ := ih
    exact ⟨_, represents.apply write⟩
  | read loaded =>
    obtain ⟨cells, -, represents⟩ := read_eq_ok.mp loaded
    exact ⟨_, represents⟩

/-- Reachable cubes that answer alike have the same voxels. -/
theorem Reachable.represents_same {p q : PageSize} {c : Cube p} {other : Cube q}
    (reached : c.Reachable) (otherReached : other.Reachable)
    (same : ∀ x y z, c.contains x y z = other.contains x y z) :
    ∃ voxels, c.Represents voxels ∧ other.Represents voxels := by
  obtain ⟨voxels, represents⟩ := reached.represents
  obtain ⟨otherVoxels, otherRepresents⟩ := otherReached.represents
  have unique : voxels = otherVoxels := Finset.ext fun v => by
    rw [← represents.contains_iff, ← otherRepresents.contains_iff, same]
  exact ⟨voxels, represents, unique ▸ otherRepresents⟩

/-- The snapshot of a cube that calls and snapshots led to lists what a search for everything
finds, and wherever it stands the same cube is read back, so that every call on it is answered as
before, with any page size and any counter. The number of the cells is written as a word of 64
bits, so there may not be more of them than that. Of all sources, exactly those are read that begin
with a complete snapshot of a positive page size and of cells with coordinates. The cube has these
cells, in whatever order and however often they are listed, and the counter of the snapshot; it is
written as the same bytes if and only if the cells are listed in the order of a search. -/
theorem snapshots_reload :
    (∀ (p : PageSize) (c : Cube p), c.Reachable → c.cardinality < 2 ^ 64 →
      ∃ cells, c.find wild wild wild = .ok cells ∧
        c.write .unlimited = .ok { accepted := Snapshot.layout p.val c.counter cells } ∧
        ∀ source : Source, Snapshot.layout p.val c.counter cells <+: source.bytes →
          read source = .ok ⟨p, c⟩) ∧
    ∀ source : Source,
      ((∃ loaded, read source = .ok loaded) ↔ ∃ size counter cells,
        Snapshot.Begins source size counter cells ∧ 0 < size ∧ ∀ v ∈ cells, v.Proper) ∧
      ∀ size counter cells, Snapshot.Begins source size counter cells →
        ∀ (p : PageSize) (c : Cube p), read source = .ok ⟨p, c⟩ →
          p.val = size ∧ c.counter = counter ∧
          (∀ v : Voxel, c.contains v.x v.y v.z = .ok true ↔ v ∈ cells) ∧
          (c.write .unlimited = .ok { accepted := Snapshot.layout size counter cells } ↔
            cells.Pairwise Precedes) := by
  refine ⟨fun p c reachable small => ?_, fun source => ⟨⟨?_, ?_⟩, ?_⟩⟩
  · obtain ⟨voxels, represents⟩ := reachable.represents
    have wf := represents.wf
    refine ⟨c.voxels, find_wild wf, write_unlimited small wf, fun source begins => ?_⟩
    refine read_eq_ok.mpr ⟨c.voxels, ⟨length_voxels wf ▸ small, begins⟩, ?_⟩
    rwa [represents.toFinset_voxels]
  · rintro ⟨⟨p, c⟩, loaded⟩
    obtain ⟨cells, begins, represents⟩ := read_eq_ok.mp loaded
    exact ⟨_, _, cells, begins, p.pos, fun v listed =>
      represents.nonneg (List.mem_toFinset.mpr listed)⟩
  · rintro ⟨size, counter, cells, begins, positive, proper⟩
    obtain ⟨filled, -, -, represents⟩ :=
      (represents_empty (p := ⟨size, positive⟩)).setAll proper
    rw [Finset.empty_union] at represents
    exact ⟨⟨_, _⟩, read_eq_ok.mpr ⟨cells, begins, represents.recount counter⟩⟩
  · intro size counter cells begins p c loaded
    obtain ⟨listed, same, represents⟩ := read_eq_ok.mp loaded
    obtain ⟨rfl, rfl, rfl⟩ := same.unique begins
    refine ⟨rfl, rfl, fun v => ?_, represents.rewritten_iff begins.1⟩
    rw [represents.contains_iff, List.mem_toFinset]

/-- A cube whose counter has drifted below zero, and a snapshot that lists a cell twice. -/
theorem snapshots_reload_drifted :
    let p : PageSize := ⟨3, by decide⟩
    let c : Cube p := ((empty.apply (.set 1 2 3)).apply (.clear 5 5 5)).apply (.clear 5 5 5)
    let twice : List Voxel := [⟨1, 2, 0⟩, ⟨9, 0, 0⟩, ⟨1, 2, 0⟩]
    (c.counter = -1 ∧ ∃ written, c.write .unlimited = .ok { accepted := written } ∧
      read ⟨written, none⟩ = .ok ⟨p, c⟩) ∧
    ∃ loaded : Cube p, read ⟨Snapshot.layout 3 7 twice ++ [255], none⟩ = .ok ⟨p, loaded⟩ ∧
      loaded.counter = 7 ∧ loaded.contains 9 0 0 = .ok true ∧
      loaded.write .unlimited ≠ .ok { accepted := Snapshot.layout 3 7 twice } := by
  intro p c twice
  obtain ⟨reloads, reads⟩ := snapshots_reload
  have begins : Snapshot.Begins ⟨Snapshot.layout 3 7 twice ++ [255], none⟩ 3 7 twice :=
    ⟨by decide, List.prefix_append _ _⟩
  refine ⟨⟨by decide, ?_⟩, ?_⟩
  · obtain ⟨cells, -, written, reload⟩ :=
      reloads p c (.write _ (.write _ (.write _ .empty))) (by decide)
    exact ⟨_, written, reload _ (List.prefix_refl _)⟩
  · obtain ⟨accepts, yields⟩ := reads ⟨Snapshot.layout 3 7 twice ++ [255], none⟩
    obtain ⟨⟨p', loaded⟩, read⟩ := accepts.mpr ⟨3, 7, twice, begins, by decide, by decide⟩
    obtain ⟨size, counter, holds, rewritten⟩ := yields 3 7 twice begins p' loaded read
    obtain rfl : p' = p := PageSize.mk.injEq .. ▸ size
    refine ⟨loaded, read, counter, (holds ⟨9, 0, 0⟩).mpr (by decide), ?_⟩
    exact mt rewritten.mp (by decide)

end Cube

end TripleCube
