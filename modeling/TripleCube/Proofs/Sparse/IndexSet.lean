import TripleCube.Proofs.Calls
import TripleCube.Proofs.Sparse.BitSet
import TripleCube.Proofs.Sparse.Members

/-! Bit sets as finite sets of indices, call by call. Whatever is set and cleared in an empty
set, each call tells whether it changed the finite set, and every way to read the bits reads
the finite set. -/
namespace TripleCube.BitSet

variable {p : PageSize}

/-- The calls that write to a set. -/
inductive Write
  | set (index : UInt32)
  | clear (index : UInt32)

/-- Makes a call and tells whether it changed the set. -/
def step (s : BitSet p) : Write → Bool × BitSet p
  | .set index => s.set index
  | .clear index => s.clear index

/-- The same of a finite set. -/
def stepMembers (members : Finset UInt32) : Write → Bool × Finset UInt32
  | .set index => (decide (index ∉ members), insert index members)
  | .clear index => (decide (index ∈ members), members.erase index)

/-- A well-formed set with exactly the members of a finite set. -/
structure Represents (s : BitSet p) (members : Finset UInt32) : Prop where
  wf : s.WellFormed
  member : ∀ index, s.contains index = true ↔ index ∈ members

variable {s : BitSet p} {members : Finset UInt32}

theorem represents_empty : (empty : BitSet p).Represents ∅ :=
  ⟨wellFormed_empty, fun index => by simp⟩

theorem Represents.contains (represents : s.Represents members) (index : UInt32) :
    s.contains index = decide (index ∈ members) := by
  rw [Bool.eq_iff_iff, represents.member, decide_eq_true_iff]

theorem Represents.set (represents : s.Represents members) (index : UInt32) :
    (s.set index).1 = decide (index ∉ members) ∧
      (s.set index).2.Represents (insert index members) := by
  refine ⟨?_, represents.wf.assign index true, fun other => ?_⟩
  · simp [BitSet.set, assign_fst represents.wf, represents.contains]
  · rw [BitSet.set, contains_assign represents.wf, Finset.mem_insert, ← represents.member]
    by_cases same : index = other <;> simp [same, eq_comm (a := other)]

theorem Represents.clear (represents : s.Represents members) (index : UInt32) :
    (s.clear index).1 = decide (index ∈ members) ∧
      (s.clear index).2.Represents (members.erase index) := by
  refine ⟨?_, represents.wf.assign index false, fun other => ?_⟩
  · simp [BitSet.clear, assign_fst represents.wf, represents.contains]
  · rw [BitSet.clear, contains_assign represents.wf, Finset.mem_erase, ← represents.member]
    by_cases same : index = other <;> simp [same, eq_comm (a := other)]

theorem Represents.step (represents : s.Represents members) (write : Write) :
    (s.step write).1 = (stepMembers members write).1 ∧
      (s.step write).2.Represents (stepMembers members write).2 := by
  cases write with
  | set index => exact represents.set index
  | clear index => exact represents.clear index

theorem Represents.mem_toList (represents : s.Represents members) (index : UInt32) :
    index ∈ s.toList ↔ index ∈ members := by
  rw [BitSet.mem_toList represents.wf, represents.member]

theorem Represents.size (represents : s.Represents members) : s.size = members.card := by
  have distinct := (pairwise_toList represents.wf).imp UInt32.ne_of_lt
  rw [size_eq_length_toList represents.wf, card_eq_length distinct represents.mem_toList]

theorem Represents.isEmpty (represents : s.Represents members) :
    s.isEmpty = true ↔ members = ∅ := by
  simp [isEmpty_iff represents.wf, represents.contains, Finset.eq_empty_iff_forall_notMem]

/-- There is a page for each range of the index space that has a member. -/
theorem Represents.pageCount (represents : s.Represents members) :
    s.pageCount = (members.image (· / p.val)).card := by
  have wf := represents.wf
  refine PageTable.length_eq_card wf.ascending (fun entry listed => ?_) fun index member => ?_
  · obtain ⟨slot, set⟩ := wf.noEmptyPage entry listed
    have inPage := Words.mem_toList.mpr set
    have contained : p.index entry.1 slot ∈ s.toList :=
      List.mem_flatMap.mpr ⟨entry, listed, List.mem_map_of_mem inPage⟩
    exact ⟨_, (represents.mem_toList _).mp contained,
      PageSize.offset_index (wf.hasIndex_set listed inPage)⟩
  · have contained := (represents.member index).mpr member
    rw [BitSet.contains] at contained
    cases found : s.pages.find? (p.offset index) with
    | none => simp [found] at contained
    | some page => exact ⟨_, (PageTable.find?_eq_some_iff wf.ascending).mp found, rfl⟩

theorem Represents.next? (represents : s.Represents members) (start : UInt64) :
    IsNext members start (s.next? start) := by
  rw [next?_eq represents.wf]
  exact isNext_head? (pairwise_toList represents.wf) represents.mem_toList start

/-- Every way to read a set reads a finite set. -/
structure Reads (s : BitSet p) (members : Finset UInt32) : Prop where
  contains : ∀ index, s.contains index = true ↔ index ∈ members
  size : s.size = members.card
  isEmpty : s.isEmpty = true ↔ members = ∅
  pageCount : s.pageCount = (members.image (· / p.val)).card
  next? : ∀ start, IsNext members start (s.next? start)

theorem Represents.reads (represents : s.Represents members) : s.Reads members :=
  ⟨represents.member, represents.size, represents.isEmpty, represents.pageCount, represents.next?⟩

/-- For every page size, every history of writes to an empty set is answered as by a finite set,
leaves a set that reads as that finite set, and keeps the pages in order, counted and filled,
with no bit outside of the page. -/
theorem writes_refine_members (p : PageSize) (writes : List Write) :
    let reached := Calls.run step writes (empty : BitSet p)
    let expected := Calls.run stepMembers writes ∅
    reached.1 = expected.1 ∧ reached.2.Reads expected.2 ∧ reached.2.WellFormed := by
  obtain ⟨answers, represents⟩ := Calls.run_simulates Represents
    (fun _ _ write represents => represents.step write) writes (represents_empty (p := p))
  exact ⟨answers, represents.reads, represents.wf⟩

end TripleCube.BitSet
