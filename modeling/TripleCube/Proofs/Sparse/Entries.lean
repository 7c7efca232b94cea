import Mathlib.Data.Finmap
import TripleCube.Proofs.Calls
import TripleCube.Proofs.Sparse.Members
import TripleCube.Proofs.Sparse.PagedMap

/-! Paged maps as finite maps, call by call. Whatever is written to an empty map, each call
tells what the finite map held at its index, and every way to read the map reads the finite
map. -/
namespace TripleCube

/-- Finite maps from indices to values. -/
abbrev Entries (α : Type) := Finmap fun _ : UInt32 => α

namespace PagedMap

variable {p : PageSize} {α : Type}

/-- The calls that write to a map. -/
inductive Write (α : Type)
  | put (index : UInt32) (value : Option α)
  | insert (index : UInt32) (value : α)
  | remove (index : UInt32)

/-- Makes a call and tells what was stored at its index. -/
def step (m : PagedMap p α) : Write α → Option α × PagedMap p α
  | .put index value => m.put index value
  | .insert index value => ((m.put index (some value)).1, m.insert index value)
  | .remove index => ((m.put index none).1, m.erase index)

/-- The same of a finite map. No value stands for removal. -/
def stepEntries (entries : Entries α) : Write α → Option α × Entries α
  | .put index (some value) | .insert index value =>
    (entries.lookup index, entries.insert index value)
  | .put index none | .remove index => (entries.lookup index, entries.erase index)

/-- A well-formed map with exactly the entries of a finite map. -/
structure Represents (m : PagedMap p α) (entries : Entries α) : Prop where
  wf : m.WellFormed
  entry : ∀ index, m.get? index = entries.lookup index

variable {m : PagedMap p α} {entries : Entries α}

theorem represents_empty : (empty : PagedMap p α).Represents ∅ :=
  ⟨wellFormed_empty, fun index => by simp⟩

theorem Represents.insert (represents : m.Represents entries) (index : UInt32) (value : α) :
    (m.insert index value).Represents (entries.insert index value) where
  wf := represents.wf.insert index value
  entry other := by
    rw [get?_insert represents.wf]
    split
    · next same => rw [← same, Finmap.lookup_insert]
    · next different =>
      rw [Finmap.lookup_insert_of_ne entries (Ne.symm different), represents.entry]

theorem Represents.erase (represents : m.Represents entries) (index : UInt32) :
    (m.erase index).Represents (entries.erase index) where
  wf := represents.wf.erase index
  entry other := by
    rw [get?_erase represents.wf]
    split
    · next same => rw [← same, Finmap.lookup_erase]
    · next different => rw [Finmap.lookup_erase_ne (Ne.symm different), represents.entry]

theorem Represents.put_fst (represents : m.Represents entries) (index : UInt32)
    (value : Option α) : (m.put index value).1 = entries.lookup index := by
  rw [PagedMap.put_fst represents.wf, represents.entry]

theorem Represents.step (represents : m.Represents entries) (write : Write α) :
    (m.step write).1 = (stepEntries entries write).1 ∧
      (m.step write).2.Represents (stepEntries entries write).2 := by
  cases write with
  | put index value =>
    cases value with
    | none => exact ⟨represents.put_fst index none, represents.erase index⟩
    | some value => exact ⟨represents.put_fst index (some value), represents.insert index value⟩
  | insert index value =>
    exact ⟨represents.put_fst index (some value), represents.insert index value⟩
  | remove index => exact ⟨represents.put_fst index none, represents.erase index⟩

theorem Represents.mem_keys (represents : m.Represents entries) {index : UInt32} :
    index ∈ entries.keys ↔ ∃ value, m.get? index = some value := by
  rw [Finmap.mem_keys, Finmap.mem_iff, represents.entry]

theorem Represents.mem_indices (represents : m.Represents entries) (index : UInt32) :
    index ∈ m.toList.map Prod.fst ↔ index ∈ entries.keys := by
  simp [represents.mem_keys, mem_toList represents.wf]

theorem pairwise_indices (wf : m.WellFormed) : (m.toList.map Prod.fst).Pairwise (· < ·) :=
  List.pairwise_map.mpr (pairwise_toList wf)

theorem Represents.contains (represents : m.Represents entries) (index : UInt32) :
    m.contains index = true ↔ index ∈ entries := by
  rw [PagedMap.contains, represents.entry, Finmap.lookup_isSome]

theorem Represents.size (represents : m.Represents entries) : m.size = entries.keys.card := by
  have distinct := (pairwise_indices represents.wf).imp UInt32.ne_of_lt
  rw [size_eq_length_toList represents.wf, ← card_eq_length distinct represents.mem_indices,
    List.length_map]

theorem Represents.isEmpty (represents : m.Represents entries) :
    m.isEmpty = true ↔ entries = ∅ := by
  rw [isEmpty_iff represents.wf]
  constructor
  · intro none
    exact Finmap.ext_lookup fun index => by rw [← represents.entry, none, Finmap.lookup_empty]
  · rintro rfl index
    rw [represents.entry, Finmap.lookup_empty]

/-- There is a page for each range of the index space that has a key. -/
theorem Represents.pageCount (represents : m.Represents entries) :
    m.pageCount = (entries.keys.image (· / p.val)).card := by
  have wf := represents.wf
  refine PageTable.length_eq_card wf.ascending (fun entry listed => ?_) fun index member => ?_
  · obtain ⟨slot, value, held⟩ := wf.noEmptyPage entry listed
    have filled := Slots.get?_eq_some_iff.mp held
    exact ⟨_, represents.mem_keys.mpr ⟨value, wf.get?_of_page listed held⟩,
      PageSize.offset_index (wf.hasIndex_filled listed filled)⟩
  · obtain ⟨value, stored⟩ := represents.mem_keys.mp member
    obtain ⟨page, found, _⟩ := Option.bind_eq_some_iff.mp stored
    exact ⟨_, (PageTable.find?_eq_some_iff wf.ascending).mp found, rfl⟩

theorem nextEntry?_eq (wf : m.WellFormed) (start : UInt64) :
    m.nextEntry? start = (m.toList.filter fun entry => start ≤ entry.1.toUInt64).head? := by
  rw [ nextEntry?, findFrom?_eq wf]
  cases m.toList.filter fun entry => start ≤ entry.1.toUInt64 <;> rfl

/-- The two scans stop at the same entry. -/
theorem nextIndex?_eq (wf : m.WellFormed) (start : UInt64) :
    m.nextIndex? start = ( m.nextEntry? start).map Prod.fst := by
  rw [nextEntry?_eq wf, nextIndex?, findFrom?_eq wf]
  cases m.toList.filter fun entry => start ≤ entry.1.toUInt64 <;> rfl

theorem Represents.nextIndex? (represents : m.Represents entries) (start : UInt64) :
    IsNext entries.keys start (m.nextIndex? start) := by
  have scanned := isNext_head? (pairwise_indices represents.wf) represents.mem_indices start
  rwa [List.filter_map, List.head?_map, Function.comp_def, ← nextEntry?_eq represents.wf,
    ← nextIndex?_eq represents.wf] at scanned

/-- A scan for an entry finds the entry of the index that a scan for an index finds. -/
theorem Represents.nextEntry? (represents : m.Represents entries) (start : UInt64) :
    m.nextEntry? start = (m.nextIndex? start).bind fun index =>
      (entries.lookup index).map fun value => (index, value) := by
  rw [nextIndex?_eq represents.wf]
  cases found : m.nextEntry? start with
  | none => rfl
  | some entry =>
    rw [nextEntry?_eq represents.wf] at found
    have listed := (List.mem_filter.mp (List.mem_of_head? found)).1
    have stored := (mem_toList represents.wf).mp listed
    simp [← represents.entry, stored]

/-- Every way to read a map reads a finite map. -/
structure Reads (m : PagedMap p α) (entries : Entries α) : Prop where
  get? : ∀ index, m.get? index = entries.lookup index
  contains : ∀ index, m.contains index = true ↔ index ∈ entries
  size : m.size = entries.keys.card
  isEmpty : m.isEmpty = true ↔ entries = ∅
  pageCount : m.pageCount = (entries.keys.image (· / p.val)).card
  nextIndex? : ∀ start, IsNext entries.keys start (m.nextIndex? start)
  nextEntry? : ∀ start, m.nextEntry? start = (m.nextIndex? start).bind fun index =>
    (entries.lookup index).map fun value => (index, value)

theorem Represents.reads (represents : m.Represents entries) : m.Reads entries :=
  ⟨represents.entry, represents.contains, represents.size, represents.isEmpty,
    represents.pageCount, represents.nextIndex?, represents.nextEntry?⟩

/-- For every page size, every history of writes to an empty map is answered as by a finite map,
leaves a map that reads as that finite map, and keeps the pages in order, of full width, counted
and filled. -/
theorem writes_refine_entries (p : PageSize) (writes : List (Write α)) :
    let reached := Calls.run step writes (empty : PagedMap p α)
    let expected := Calls.run stepEntries writes ∅
    reached.1 = expected.1 ∧ reached.2.Reads expected.2 ∧ reached.2.WellFormed := by
  obtain ⟨answers, represents⟩ := Calls.run_simulates Represents
    (fun _ _ write represents => represents.step write) writes (represents_empty (p := p))
  exact ⟨answers, represents.reads, represents.wf⟩

end PagedMap

end TripleCube
