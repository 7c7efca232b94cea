import Mathlib.Data.Finset.Sort
import TripleCube.Proofs.Session
import TripleCube.Proofs.Sparse.Entries
import TripleCube.Proofs.Sparse.IndexSet
import TripleCube.Sparse.Scan

/-! Scans of maps and sets while these are written to. A scan holds a position in the index space
and none in the pages, so it reads a finite map or a finite set: each step finds the least index
past the one returned last, as the container is at that step. -/
namespace TripleCube

theorem head?_sort_eq_some_iff (members : Finset UInt32) (index : UInt32) :
    (members.sort (· ≤ ·)).head? = some index ↔ IsLeast (members : Set UInt32) index := by
  have least : ∀ first, (members.sort (· ≤ ·)).head? = some first →
      IsLeast (members : Set UInt32) first := fun first found => by
    obtain ⟨rest, sorted⟩ := List.head?_eq_some_iff.mp found
    have ascends := members.pairwise_sort (· ≤ ·)
    have listed : ∀ other, other ∈ members ↔ other ∈ first :: rest := fun other => by
      rw [← sorted, Finset.mem_sort]
    rw [sorted, List.pairwise_cons] at ascends
    refine ⟨(listed first).mpr List.mem_cons_self, fun other member => ?_⟩
    rcases List.mem_cons.mp ((listed other).mp member) with rfl | later
    · exact UInt32.le_refl _
    · exact ascends.1 other later
  refine ⟨least index, fun isLeast => ?_⟩
  cases found : (members.sort (· ≤ ·)).head? with
  | none =>
    have member := (Finset.mem_sort (· ≤ ·)).mpr isLeast.1
    rw [List.head?_eq_none_iff.mp found] at member
    exact absurd member List.not_mem_nil
  | some first =>
    have isFirst := least first found
    exact congrArg some (UInt32.le_antisymm (isFirst.2 isLeast.1) (isLeast.2 isFirst.1))

/-- Whether an index is past the one that was returned last, as every index is if none was. -/
def Past (last : Option UInt32) (index : UInt32) : Prop := ∀ l ∈ last, l < index

@[simp] theorem past_none (index : UInt32) : Past none index := fun _ absent => nomatch absent

@[simp] theorem past_some {last index : UInt32} : Past (some last) index ↔ last < index := by
  simp [Past]

instance : (last : Option UInt32) → (index : UInt32) → Decidable (Past last index)
  | none, index => isTrue (past_none index)
  | some _, _ => decidable_of_iff _ past_some.symm

/-- The least of the members past the one that was returned last; the least of all if none was. -/
def leastPast? (members : Finset UInt32) (last : Option UInt32) : Option UInt32 :=
  ((members.filter (Past last)).sort (· ≤ ·)).head?

variable {members : Finset UInt32} {last : Option UInt32}

theorem leastPast?_eq_some_iff {index : UInt32} : leastPast? members last = some index ↔
    IsLeast {other | other ∈ members ∧ Past last other} index := by
  rw [leastPast?, head?_sort_eq_some_iff, Finset.coe_filter]

theorem leastPast?_eq_none_iff : leastPast? members last = none ↔
    ∀ index ∈ members, ¬ Past last index := by
  rw [leastPast?, List.head?_eq_none_iff, ← List.length_eq_zero_iff, Finset.length_sort,
    Finset.card_eq_zero, Finset.filter_eq_empty_iff]

/-- How far a cursor over a finite set has come. -/
inductive Reach
  | past (last : Option UInt32)
  | ended

namespace Reach

/-- The least index past the last one, or the end; the end once it was the end. -/
def advance (members : Finset UInt32) : Reach → Option UInt32 × Reach
  | past last =>
    match leastPast? members last with
    | some index => (some index, past (some index))
    | none => (none, ended)
  | ended => (none, ended)

/-- The scan that has come as far. -/
def scan : Reach → Scan
  | past none => .start
  | past (some last) => ⟨some (last.toUInt64 + 1)⟩
  | ended => ⟨none⟩

theorem leastPast?_eq {start : UInt64} (past : ∀ index : UInt32, start ≤ index.toUInt64 ↔
    Past last index) {found : Option UInt32} (next : IsNext members start found) :
    leastPast? members last = found := by
  cases found with
  | none =>
    refine leastPast?_eq_none_iff.mpr fun index member => ?_
    rw [← past, UInt64.not_le]
    exact next index member
  | some index =>
    refine leastPast?_eq_some_iff.mpr ?_
    simp only [← past]
    exact next

/-- A scan that answers with the next index steps as the cursor does. -/
theorem advance_scan {next? : UInt64 → Option UInt32}
    (finds : ∀ start, IsNext members start (next? start)) (reach : Reach) :
    reach.scan.advance next? id = ((reach.advance members).1, (reach.advance members).2.scan) := by
  have stepped : ∀ {start : UInt64} {last : Option UInt32},
      (∀ index : UInt32, start ≤ index.toUInt64 ↔ Past last index) →
      (⟨some start⟩ : Scan).advance next? id =
        (((past last).advance members).1, ((past last).advance members).2.scan) := by
    intro start last ahead
    rw [Scan.advance, advance, leastPast?_eq ahead (finds start)]
    dsimp only
    cases next? start <;> rfl
  cases reach with
  | ended => rfl
  | past last =>
    cases last with
    | none => exact stepped fun index => by simp
    | some last => exact stepped fun index => by simp [succ_le_iff]

theorem mem_of_advance {reach : Reach} {index : UInt32}
    (returned : (reach.advance members).1 = some index) : index ∈ members := by
  cases reach with
  | ended => cases returned
  | past last =>
    rw [advance] at returned
    cases found : leastPast? members last with
    | none => simp [found] at returned
    | some first =>
      obtain rfl : first = index := by simpa [found] using returned
      exact (leastPast?_eq_some_iff.mp found).1.1

end Reach

/-- A scan for items with an index goes from item to item as the scan for members does. -/
theorem Scan.advance_bind {ι : Type} {next? : UInt64 → Option UInt32} {item : UInt32 → Option ι}
    {index : ι → UInt32} (present : ∀ start found, next? start = some found →
      ∃ value, item found = some value ∧ index value = found) (scan : Scan) :
    scan.advance (fun start => (next? start).bind item) index =
      ((scan.advance next? id).1.bind item, (scan.advance next? id).2) := by
  rw [advance, advance]
  cases scan.position with
  | none => rfl
  | some position =>
    dsimp only
    cases found : next? position with
    | none => rfl
    | some index =>
      obtain ⟨value, holds, same⟩ := present position index found
      simp [holds, same]

open PagedMap

variable {p : PageSize} {α : Type}

/-- What a scan reports of an entry. -/
def PagedMap.Part.item : Part → UInt32 → α → Item α
  | .entries, index, value => .entry index value
  | .values, _, value => .value value
  | .indices, index, _ => .index index

/-- A step of a scan over a map: the next index, with the value that is stored there now. -/
theorem PagedMap.Represents.next_reader {m : PagedMap p α} {entries : Entries α}
    (represents : m.Represents entries) (part : Part) (reach : Reach) :
    Reader.next m ⟨part, reach.scan⟩ =
      ((reach.advance entries.keys).1.bind fun index =>
          (entries.lookup index).map (part.item index),
        ⟨part, (reach.advance entries.keys).2.scan⟩) := by
  have stored : ∀ index ∈ entries.keys, ∃ value, entries.lookup index = some value :=
    fun index member => Finmap.mem_iff.mp (Finmap.mem_keys.mp member)
  have found := reach.advance_scan represents.nextIndex?
  have entry : reach.scan.advance m.nextEntry? Prod.fst =
      ((reach.advance entries.keys).1.bind fun index =>
          (entries.lookup index).map fun value => (index, value),
        (reach.advance entries.keys).2.scan) := by
    rw [funext represents.nextEntry?, Scan.advance_bind, found]
    intro start index found
    have next := represents.nextIndex? start
    rw [found] at next
    obtain ⟨value, holds⟩ := stored index next.1.1
    exact ⟨(index, value), by rw [holds, Option.map_some], rfl⟩
  cases part with
  | entries =>
    simp only [Reader.next, entry, Option.map_bind, Function.comp_def, Option.map_map]
    rfl
  | values =>
    simp only [Reader.next, entry, Option.map_bind, Function.comp_def, Option.map_map]
    rfl
  | indices =>
    simp only [Reader.next, found]
    cases returned : (reach.advance entries.keys).1 with
    | none => rfl
    | some index =>
      obtain ⟨value, holds⟩ := stored index (Reach.mem_of_advance returned)
      rw [Option.bind_some, holds]
      rfl

instance : Interactive (PagedMap p α) Reader (Write α) (Option α) Part where
  call := PagedMap.step
  start _ part := .ok (.start part)

/-- A finite map is read by the least index past the last, with the value there is now. -/
instance : Traversal (Entries α) (Part × Reach) (Item α) where
  next entries reader :=
    let (index, reach) := reader.2.advance entries.keys
    (index.bind fun index => (entries.lookup index).map (reader.1.item index),
      entries, (reader.1, reach))
  settle _ reader := reader

instance : Interactive (Entries α) (Part × Reach) (Write α) (Option α) Part where
  call := PagedMap.stepEntries
  start _ part := .ok (part, .past none)

theorem PagedMap.bisimulation : Session.Bisimulation
    (Represents : PagedMap p α → Entries α → Prop)
    (fun (reader : Reader) (other : Part × Reach) => reader = ⟨other.1, other.2.scan⟩) where
  call represents write := represents.step write
  start _ part := .ok rfl
  next {_ _ _ reader} represents same := by
    rw [same]
    have stepped := represents.next_reader reader.1 reader.2
    exact ⟨congrArg Prod.fst stepped, represents, congrArg Prod.snd stepped⟩
  settle _ same := same

instance : Interactive (BitSet p) Scan BitSet.Write Bool Unit where
  call := BitSet.step
  start _ _ := .ok .start

/-- A finite set is read by the least member past the last. -/
instance : Traversal (Finset UInt32) Reach UInt32 where
  next members reach :=
    let (index, reach) := reach.advance members
    (index, members, reach)
  settle _ reach := reach

instance : Interactive (Finset UInt32) Reach BitSet.Write Bool Unit where
  call := BitSet.stepMembers
  start _ _ := .ok (.past none)

theorem BitSet.bisimulation : Session.Bisimulation
    (BitSet.Represents : BitSet p → Finset UInt32 → Prop)
    (fun (scan : Scan) (reach : Reach) => scan = reach.scan) where
  call represents write := represents.step write
  start _ _ := .ok rfl
  next {_ _ _ reach} represents same := by
    rw [same]
    have stepped := reach.advance_scan represents.next?
    exact ⟨congrArg Prod.fst stepped, represents, congrArg Prod.snd stepped⟩
  settle _ same := same

/-- For every page size, and however writes to an empty map or an empty set come between the steps
of any number of scans over it, each step returns the least index past the one that its scan
returned last, with the value there is now, and once there is none the end for good. -/
theorem scans_return_least_past (p : PageSize) (α : Type) :
    (∀ session : List (Session.Step (Write α) Part),
      Session.replies Reader session (PagedMap.empty : PagedMap p α) =
        Session.replies (Part × Reach) session (∅ : Entries α)) ∧
    ∀ session : List (Session.Step BitSet.Write Unit),
      Session.replies Scan session (BitSet.empty : BitSet p) =
        Session.replies Reach session (∅ : Finset UInt32) :=
  ⟨PagedMap.bisimulation.replies PagedMap.represents_empty,
    BitSet.bisimulation.replies BitSet.represents_empty⟩

end TripleCube
