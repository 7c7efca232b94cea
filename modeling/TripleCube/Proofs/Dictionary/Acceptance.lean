import Mathlib.Data.List.Nodup
import Mathlib.Data.List.Perm.Basic
import TripleCube.Proofs.Dictionary.Framing
import TripleCube.Proofs.Dictionary.Loaded

/-! Which streams make a dictionary. The records are sorted and looked through one by one; what
that comes to is that their indices count up from zero in some order and that each of them has a
key of its own. So the order in which a stream lists them makes no difference. -/
namespace TripleCube.Dictionary

/-- Records in the order of their indices. -/
def sorted (records : List NodeRecord) : List NodeRecord :=
  records.mergeSort fun a b => a.index ≤ b.index

variable {records others : List NodeRecord} {config : Config} {d : Dictionary}

theorem perm_sorted (records : List NodeRecord) : (sorted records).Perm records :=
  List.mergeSort_perm _ _

theorem pairwise_sorted (records : List NodeRecord) :
    (sorted records).Pairwise fun a b => a.index.toInt ≤ b.index.toInt := by
  refine (List.pairwise_mergeSort (fun a b c => ?_) (fun a b => ?_) records).imp fun {a b} => ?_
  all_goals simp only [decide_eq_true_eq, Bool.or_eq_true, Int32.le_iff_toInt_le]
  · omega
  · omega
  · exact id

section

variable [Compression]

/-- Records with all indices from zero on, each with a key that no other has. -/
structure Complete (records : List NodeRecord) : Prop where
  indices : (records.map fun r => r.index.toInt).Perm
    ((List.range records.length).map fun position : Nat => (position : Int))
  keyed : ∀ r ∈ records, ∃ key, r.canonicalKey = .ok key
  distinct : records.Pairwise fun a b => a.canonicalKey ≠ b.canonicalKey

theorem Complete.perm (complete : Complete records) (perm : records.Perm others) :
    Complete others where
  indices := perm.length_eq ▸ (perm.map _).symm.trans complete.indices
  keyed r member := complete.keyed r (perm.mem_iff.mpr member)
  distinct := (perm.pairwise_iff fun different => different.symm).mp complete.distinct

/-- No two records have one index. -/
theorem Complete.index_inj (complete : Complete records) {a b : NodeRecord} (first : a ∈ records)
    (second : b ∈ records) (same : a.index.toInt = b.index.toInt) : a = b := by
  have nodup : (records.map fun r => r.index.toInt).Nodup :=
    complete.indices.nodup_iff.mpr (List.nodup_range.map fun _ _ => Int.ofNat_inj.mp)
  exact List.inj_on_of_nodup_map nodup first second same

/-- The order in which complete records are listed does not show when they are sorted. -/
theorem Complete.sorted_eq (complete : Complete records) (perm : records.Perm others) :
    sorted records = sorted others := by
  have sortedPerm : (sorted records).Perm (sorted others) :=
    (perm_sorted records).trans (perm.trans (perm_sorted others).symm)
  refine sortedPerm.eq_of_pairwise (fun a b first second le ge => ?_) (pairwise_sorted records)
    (pairwise_sorted others)
  refine complete.index_inj ((perm_sorted records).mem_iff.mp first) ?_ (Int.le_antisymm le ge)
  exact perm.mem_iff.mpr ((perm_sorted others).mem_iff.mp second)

/-- Sorted, complete records stand at their indices. -/
theorem Complete.stands (complete : Complete records) {position : Nat} {r : NodeRecord}
    (found : (sorted records)[position]? = some r) : r.index.toInt = position := by
  -- The indices of the sorted records and the range ascend and are permutations of each other.
  have counts : (sorted records).map (fun r => r.index.toInt) =
      (List.range records.length).map fun position : Nat => (position : Int) := by
    refine (((perm_sorted records).map _).trans complete.indices).eq_of_pairwise
      (fun _ _ _ _ => Int.le_antisymm) ?_ ?_
    · exact List.pairwise_map.mpr (pairwise_sorted records)
    · refine List.pairwise_map.mpr (List.pairwise_lt_range.imp fun less => ?_)
      exact Int.ofNat_le.mpr (Nat.le_of_lt less)
  have here := congrArg (·[position]?) counts
  simp only [List.getElem?_map, found, Option.map_some] at here
  obtain ⟨place, listed, same⟩ := Option.map_eq_some_iff.mp here.symm
  obtain ⟨_, rfl⟩ := List.getElem?_eq_some_iff.mp listed
  simpa using same.symm

theorem ofRecords_eq_ok : ofRecords records config = .ok d ↔
    ∃ byContent, indexContent (sorted records) 0 [] = .ok byContent ∧
      d = { empty config with records := (sorted records).toArray, byContent } := by
  rw [ofRecords, ← sorted, bind_eq_ok]
  simp only [pure, Except.pure, Except.ok.injEq, eq_comm]

/-- Records at their positions with different keys are indexed. -/
theorem indexContent_ok {records : List NodeRecord} {position : Nat}
    {before : Assoc (List UInt8) Int32}
    (stands : ∀ (i : Nat) (r : NodeRecord), records[i]? = some r → r.index.toInt = position + i)
    (fresh : ∀ r ∈ records, ∃ key, r.canonicalKey = .ok key ∧ before.find? key = none)
    (distinct : records.Pairwise fun a b => a.canonicalKey ≠ b.canonicalKey) :
    ∃ after, indexContent records position before = .ok after := by
  induction records generalizing position before with
  | nil => exact ⟨before, rfl⟩
  | cons r rest ih =>
    obtain ⟨key, hasKey, unbound⟩ := fresh r List.mem_cons_self
    obtain ⟨different, others⟩ := List.pairwise_cons.mp distinct
    have here : r.index.toInt = position := by simpa using stands 0 r rfl
    rw [indexContent, if_pos here, hasKey]
    simp only [bind, Except.bind, unbound]
    refine ih (fun i other found => ?_) (fun other member => ?_) others
    · have counts := stands (i + 1) other found
      push_cast at counts ⊢
      omega
    · obtain ⟨otherKey, hasOther, absent⟩ := fresh other (List.mem_cons_of_mem r member)
      have apart : key ≠ otherKey := by
        rintro rfl
        exact different other member (hasKey.trans hasOther.symm)
      exact ⟨otherKey, hasOther, by rw [Assoc.find?_insert, if_neg apart, absent]⟩

/-- Complete records make a dictionary. -/
theorem Complete.ofRecords (complete : Complete records) (config : Config) :
    ∃ d, ofRecords records config = .ok d := by
  have inOrder := complete.perm (perm_sorted records).symm
  have stands : ∀ (i : Nat) (r : NodeRecord), (sorted records)[i]? = some r →
      r.index.toInt = (0 : Nat) + i := fun i r found => by simpa using complete.stands found
  have fresh : ∀ r ∈ sorted records, ∃ key, r.canonicalKey = .ok key ∧
      Assoc.find? ([] : Assoc (List UInt8) Int32) key = none := fun r member =>
    (inOrder.keyed r member).imp fun key hasKey => ⟨hasKey, rfl⟩
  obtain ⟨byContent, built⟩ := indexContent_ok stands fresh inOrder.distinct
  exact ⟨_, ofRecords_eq_ok.mpr ⟨byContent, built, rfl⟩⟩

/-- Each record of a valid dictionary stands at its index. -/
theorem Valid.position (valid : d.Valid) {position : Nat} {r : NodeRecord}
    (found : d.records.toList[position]? = some r) : r.index.toInt = position := by
  rw [Array.getElem?_toList] at found
  rw [valid.index position r found, toInt_ofNat (Nat.lt_of_lt_of_le (lt_size found) valid.size)]

theorem Keyed.bound_of_mem (keyed : d.Keyed) {r : NodeRecord} (member : r ∈ d.records.toList) :
    ∃ key, r.canonicalKey = .ok key ∧ d.byContent.find? key = some r.index := by
  obtain ⟨position, found⟩ := Array.mem_iff_getElem?.mp (Array.mem_toList_iff.mp member)
  exact keyed.bound position r found

/-- No two records of a valid dictionary have one key, since the content map has one index
for it. -/
theorem Keyed.distinct (keyed : d.Keyed) :
    d.records.toList.Pairwise fun a b => a.canonicalKey ≠ b.canonicalKey := by
  -- Of two places with one key, both have the index to which the key is bound, so are the same.
  refine List.pairwise_iff_getElem.mpr fun i j iIn jIn less same => ?_
  obtain ⟨key, hasKey, index⟩ := keyed.bound_of_mem (List.getElem_mem iIn)
  obtain ⟨other, hasOther, otherIndex⟩ := keyed.bound_of_mem (List.getElem_mem jIn)
  have sameKey : key = other := Except.ok.inj (hasKey.symm.trans (same.trans hasOther))
  rw [sameKey, otherIndex, Option.some.injEq] at index
  have counts := keyed.toValid.position (List.getElem?_eq_getElem iIn)
  rw [← index, keyed.toValid.position (List.getElem?_eq_getElem jIn)] at counts
  omega

/-- The records of a valid dictionary are complete. -/
theorem Keyed.complete (keyed : d.Keyed) : Complete d.records.toList where
  indices := by
    refine List.Perm.of_eq (List.ext_getElem (by simp) fun position lt _ => ?_)
    have inList : position < d.records.toList.length := by simpa using lt
    have stands := keyed.toValid.position (List.getElem?_eq_getElem inList)
    simpa using stands
  keyed r member := (keyed.bound_of_mem member).imp fun _ => And.left
  distinct := keyed.distinct

/-- What records make is a new dictionary that has them. -/
structure Holds (d : Dictionary) (records : List NodeRecord) (config : Config) : Prop where
  keyed : d.Keyed
  isOpen : d.closed = false
  configured : d.config = config
  records : d.records.toList.Perm records

theorem holds_of_ofRecords (loaded : ofRecords records config = .ok d) :
    d.Holds records config := by
  obtain ⟨byContent, built, rfl⟩ := ofRecords_eq_ok.mp loaded
  exact ⟨keyed_of_indexed (indexed_of_indexContent built) config, rfl, rfl, perm_sorted records⟩

theorem Holds.complete (holds : d.Holds records config) : Complete records :=
  holds.keyed.complete.perm holds.records

theorem Complete.ofRecords_perm (complete : Complete records) (perm : records.Perm others)
    (config : Config) :
    Dictionary.ofRecords others config = Dictionary.ofRecords records config := by
  rw [Dictionary.ofRecords, Dictionary.ofRecords, ← sorted, ← sorted, complete.sorted_eq perm]

/-- A record is found at its index. -/
theorem Holds.record (holds : d.Holds records config) {r : NodeRecord} (member : r ∈ records) :
    d.record r.index = .ok r := by
  have stored := Array.mem_toList_iff.mp (holds.records.mem_iff.mpr member)
  obtain ⟨position, found⟩ := Array.mem_iff_getElem?.mp stored
  have small : position < 2 ^ 31 := Nat.lt_of_lt_of_le (lt_size found) holds.keyed.size
  rw [holds.keyed.index position r found, record_eq holds.isOpen, at?_ofNat small, found]

/-- A key is bound to the index of the record that has it. -/
theorem Holds.find?_eq_some (holds : d.Holds records config) {key : List UInt8} {index : Int32} :
    d.byContent.find? key = some index ↔
      ∃ r ∈ records, r.canonicalKey = .ok key ∧ r.index = index := by
  have keyed := holds.keyed
  constructor
  · intro bound
    obtain ⟨r, stands, hasKey⟩ := keyed.listed key index bound
    obtain ⟨nonneg, found⟩ := at?_eq_some stands
    have stored := Array.mem_toList_iff.mpr (Array.mem_of_getElem? found)
    exact ⟨r, holds.records.mem_iff.mp stored, hasKey,
      (keyed.index _ r found).trans (ofNat_toNat nonneg)⟩
  · rintro ⟨r, member, hasKey, rfl⟩
    obtain ⟨other, hasOther, bound⟩ := keyed.bound_of_mem (holds.records.mem_iff.mpr member)
    rwa [Except.ok.inj (hasKey.symm.trans hasOther)]

/-- Looking a node up is looking its key up. -/
theorem Holds.indexOf? (holds : d.Holds records config) {node : Node} {key : List UInt8}
    (named : node ≠ .any) (hasKey : NodeRecord.nodeKey node = .ok key) :
    d.indexOf? node = .ok (d.byContent.find? key) := by
  rw [Dictionary.indexOf?, ensureOpen_of_open holds.isOpen, isAny_eq_false named, hasKey]
  rfl

/-- Of two sources that list the same records, what is read of one is read of the other. -/
theorem read_of_perm {source other : Source} {raws raws' : List (List UInt8)}
    (framed : Framed source raws) (otherFramed : Framed other raws') (perm : raws.Perm raws')
    (loaded : read source config = .ok d) : read other config = .ok d := by
  obtain ⟨_, records, again, accepted, built⟩ := read_eq_ok.mp loaded
  obtain rfl := framed.unique again
  obtain ⟨records', acceptedToo, same⟩ := List.perm_comp_forall₂ perm.symm accepted
  have complete := (holds_of_ofRecords built).complete
  refine read_eq_ok.mpr ⟨raws', records', otherFramed, acceptedToo, ?_⟩
  rw [complete.ofRecords_perm same.symm, built]

/-- A source is read if and only if it begins with a number of records, all complete and
accepted, whose indices are those from zero on and whose keys exist and differ. The dictionary
has each record at its index and each key at the index of its record, and the order in which a
source lists its records makes no difference. -/
theorem read_accepts (config : Config) :
    (∀ source, (∃ d, read source config = .ok d) ↔
      ∃ raws records, Framed source raws ∧ Accepted raws records ∧ Complete records) ∧
    (∀ source raws records d, Framed source raws → Accepted raws records →
      read source config = .ok d →
        d.count = records.length ∧ (∀ r ∈ records, d.record r.index = .ok r) ∧
        (∀ key index, d.byContent.find? key = some index ↔
          ∃ r ∈ records, r.canonicalKey = .ok key ∧ r.index = index) ∧
        ∀ node key, node ≠ .any → NodeRecord.nodeKey node = .ok key →
          d.indexOf? node = .ok (d.byContent.find? key)) ∧
    ∀ source other raws raws', Framed source raws → Framed other raws' → raws.Perm raws' →
      ∀ d, read source config = .ok d ↔ read other config = .ok d := by
  refine ⟨fun source => ⟨?_, ?_⟩, ?_, ?_⟩
  · rintro ⟨d, loaded⟩
    obtain ⟨raws, records, framed, accepted, built⟩ := read_eq_ok.mp loaded
    exact ⟨raws, records, framed, accepted, (holds_of_ofRecords built).complete⟩
  · rintro ⟨raws, records, framed, accepted, complete⟩
    obtain ⟨d, built⟩ := complete.ofRecords config
    exact ⟨d, read_eq_ok.mpr ⟨raws, records, framed, accepted, built⟩⟩
  · intro source raws records d framed accepted loaded
    obtain ⟨_, others, again, acceptedToo, built⟩ := read_eq_ok.mp loaded
    obtain rfl := framed.unique again
    obtain rfl := accepted.unique acceptedToo
    have holds := holds_of_ofRecords built
    exact ⟨by simpa [Dictionary.count] using holds.records.length_eq, fun r => holds.record,
      fun key index => holds.find?_eq_some, fun node key => holds.indexOf?⟩
  · intro source other raws raws' framed otherFramed perm d
    exact ⟨read_of_perm framed otherFramed perm, read_of_perm otherFramed framed perm.symm⟩

end

/-- Two records in either order make one dictionary, and a byte behind them is not looked at. -/
theorem read_accepts_reordered :
    let a : NodeRecord := ⟨0, .uri, [97]⟩
    let b : NodeRecord := ⟨1, .uri, [98]⟩
    ∃ d, read ⟨stream [b, a] ++ [255], none⟩ {} = .ok d ∧
      read ⟨stream [a, b], none⟩ {} = .ok d ∧ d.count = 2 ∧ d.record 1 = .ok b ∧
      d.indexOf? (.uri "b") = .ok (some 1) := by
  intro a b
  obtain ⟨accepts, yields, reorders⟩ := read_accepts {}
  have framed : Framed ⟨stream [b, a] ++ [255], none⟩ _ :=
    framed_stream (by decide) (by decide) (List.prefix_append _ _)
  have reordered : Framed ⟨stream [a, b], none⟩ _ :=
    framed_stream (by decide) (by decide) (List.prefix_refl _)
  have complete : Complete [b, a] :=
    ⟨by decide, by simp [a, b, NodeRecord.canonicalKey], by simp [a, b, NodeRecord.canonicalKey,
      NodeRecord.contentKey]⟩
  obtain ⟨d, loaded⟩ := (accepts _).mpr ⟨_, _, framed, accepted_toBytes _, complete⟩
  obtain ⟨count, record, bound, found⟩ := yields _ _ _ d framed (accepted_toBytes _) loaded
  have same := reorders _ _ _ _ framed reordered (List.Perm.swap _ _ _) d
  refine ⟨d, loaded, same.mp loaded, count, record b List.mem_cons_self, ?_⟩
  have key : NodeRecord.nodeKey (.uri "b") = b.canonicalKey := by decide
  rw [found (.uri "b") b.contentKey (by simp) key]
  exact congrArg _ ((bound _ _).mpr ⟨b, List.mem_cons_self, rfl, rfl⟩)

end TripleCube.Dictionary
