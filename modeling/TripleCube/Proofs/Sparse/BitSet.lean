import TripleCube.Proofs.Sparse.PageTable
import TripleCube.Proofs.Sparse.Words
import TripleCube.Sparse.BitSet

/-! Bit sets as finite sets of indices. `WellFormed` says that the table lists exactly the
pages with a set bit, that each page counts its bits, and that no bit lies past the index
space. Writes keep it and tell whether the set changed; counts and scans then agree with the
ascending list of all members. -/
namespace TripleCube

namespace BitPage

/-- A page of the right width that counts its bits, all of them at slots with an index. -/
structure Valid (p : PageSize) (offset : UInt32) (page : BitPage) : Prop where
  length : page.words.length = (p.slots + 63) / 64
  ones : page.ones = page.words.toList.length
  indexed : ∀ slot, page.words.get slot = true → p.HasIndex offset slot

variable {p : PageSize} {offset : UInt32} {page : BitPage}

theorem valid_blank : (blank p).Valid p offset where
  length := List.length_replicate
  ones := by simp [blank, Words.toList_zeros]
  indexed slot set := by simp [blank, Words.get_zeros] at set

theorem Valid.inWords (valid : page.Valid p offset) {slot : Nat} (inPage : slot < p.slots) :
    slot / 64 < page.words.length := by
  rw [valid.length]
  omega

theorem assign_fst (page : BitPage) (slot : Nat) (value : Bool) :
    (page.assign slot value).1 = (page.words.get slot != value) := by
  rw [assign]
  by_cases same : page.words.get slot = value
  · simp [same]
  · rw [if_neg same]
    cases value <;> simp_all

theorem get_assign (valid : page.Valid p offset) {slot : Nat} (inPage : slot < p.slots)
    (value : Bool) (other : Nat) :
    (page.assign slot value).2.words.get other =
      if slot = other then value else page.words.get other := by
  rw [assign]
  by_cases same : page.words.get slot = value
  · rw [if_pos same]
    split
    · next here => rw [← here, same]
    · rfl
  · rw [if_neg same]
    cases value with
    | true =>
      rw [if_pos rfl, Words.get_set (valid.inWords inPage)]
      by_cases here : slot = other <;> simp [here]
    | false =>
      rw [if_neg Bool.false_ne_true, Words.get_clear]
      by_cases here : slot = other <;> simp [here]

theorem Valid.assign (valid : page.Valid p offset) {slot : Nat}
    (hasIndex : p.HasIndex offset slot) (value : Bool) :
    (page.assign slot value).2.Valid p offset := by
  have indexed : ∀ other, (page.assign slot value).2.words.get other = true →
      p.HasIndex offset other := fun other set => by
    rw [get_assign valid hasIndex.slot_lt] at set
    by_cases here : slot = other
    · exact here ▸ hasIndex
    · exact valid.indexed other (by simpa [here] using set)
  revert indexed
  rw [BitPage.assign]
  by_cases same : page.words.get slot = value
  · rw [if_pos same]
    intro _
    exact valid
  · rw [if_neg same]
    cases value with
    | true =>
      have clear : page.words.get slot = false := by simpa using same
      have counted := Words.length_toList_set (valid.inWords hasIndex.slot_lt) clear
      exact fun indexed =>
        ⟨by simp [Words.set, valid.length], by simp [counted, valid.ones], indexed⟩
    | false =>
      have set : page.words.get slot = true := by simpa using same
      have counted := Words.length_toList_clear set
      have ones := valid.ones
      exact fun indexed =>
        ⟨by simp [Words.clear, valid.length],
          by simp only [Bool.false_eq_true, ↓reduceIte]; omega, indexed⟩

/-- A page that counts no bits has none. -/
theorem Valid.get_eq_false (valid : page.Valid p offset) (vacant : page.ones = 0) (slot : Nat) :
    page.words.get slot = false := by
  have nil : page.words.toList = [] := List.length_eq_zero_iff.mp (valid.ones ▸ vacant)
  apply Bool.eq_false_iff.mpr
  intro set
  simpa [nil] using Words.mem_toList.mpr set

end BitPage

namespace BitSet

variable {p : PageSize}

/-- The table lists exactly the pages with a set bit, in the order of their offsets. -/
structure WellFormed (s : BitSet p) : Prop where
  ascending : s.pages.Ascending
  valid : ∀ entry ∈ s.pages, entry.2.Valid p entry.1
  inhabited : ∀ entry ∈ s.pages, 0 < entry.2.ones

variable {s : BitSet p}

theorem wellFormed_empty : (empty : BitSet p).WellFormed :=
  ⟨PageTable.ascending_nil, by simp [empty], by simp [empty]⟩

@[simp] theorem contains_empty (index : UInt32) : (empty : BitSet p).contains index = false := rfl

/-- The page that a write changes: the one in the table, or a blank one. -/
def pageFor (s : BitSet p) (offset : UInt32) : BitPage := (s.pages.find? offset).getD (.blank p)

theorem contains_eq_pageFor (s : BitSet p) (index : UInt32) :
    s.contains index = (s.pageFor (p.offset index)).words.get (p.slot index) := by
  rw [contains, pageFor]
  cases s.pages.find? (p.offset index) with
  | none => exact (Words.get_zeros _ _).symm
  | some page => rfl

theorem WellFormed.valid_pageFor (wf : s.WellFormed) (offset : UInt32) :
    (s.pageFor offset).Valid p offset := by
  rw [pageFor]
  cases found : s.pages.find? offset with
  | none => exact BitPage.valid_blank
  | some page => exact wf.valid _ ((PageTable.find?_eq_some_iff wf.ascending).mp found)

/-- Every write changes one page, and drops it if no bit is left. -/
theorem assign_eq (wf : s.WellFormed) (index : UInt32) (value : Bool) :
    s.assign index value =
      let page := ((s.pageFor (p.offset index)).assign (p.slot index) value).2
      (s.contains index != value, ⟨if page.ones = 0 then s.pages.unlink (p.offset index)
        else s.pages.link (p.offset index) page⟩) := by
  rw [contains_eq_pageFor, ← BitPage.assign_fst]
  cases found : s.pages.find? (p.offset index) with
  | some page =>
    simp only [assign, pageFor, found, Option.getD_some]
  | none =>
    cases value with
    | true =>
      simp only [assign, pageFor, found, Option.getD_none]
    | false =>
      have absent : s.pages.unlink (p.offset index) = s.pages := by
        have missing := (PageTable.find?_eq_none_iff wf.ascending).mp found
        exact PageTable.unlink_eq_self missing
      have untouched : (BitPage.blank p).assign (p.slot index) false = (false, .blank p) := by
        simp [BitPage.assign, BitPage.blank, Words.get_zeros]
      simp only [assign, found, pageFor, Option.getD_none, untouched]
      simp [BitPage.blank, absent]

theorem assign_fst (wf : s.WellFormed) (index : UInt32) (value : Bool) :
    (s.assign index value).1 = (s.contains index != value) := by
  rw [assign_eq wf]

theorem pageFor_write (wf : s.WellFormed) (offset other : UInt32) (page : BitPage) :
    (⟨if page.ones = 0 then s.pages.unlink offset else s.pages.link offset page⟩ :
      BitSet p).pageFor other =
      if offset = other then if page.ones = 0 then .blank p else page else s.pageFor other := by
  simp only [pageFor]
  by_cases vacant : page.ones = 0
  · rw [if_pos vacant, if_pos vacant, PageTable.find?_unlink wf.ascending]
    split <;> rfl
  · rw [if_neg vacant, if_neg vacant, PageTable.find?_link wf.ascending]
    split <;> rfl

theorem contains_assign (wf : s.WellFormed) (index other : UInt32) (value : Bool) :
    (s.assign index value).2.contains other =
      if index = other then value else s.contains other := by
  have valid := wf.valid_pageFor (p.offset index)
  have assigned := BitPage.get_assign valid (p.slot_lt index) value
  have validAssigned := valid.assign (PageSize.hasIndex_offset_slot index) value
  rw [contains_eq_pageFor, contains_eq_pageFor s, assign_eq wf]
  dsimp only
  rw [pageFor_write wf]
  by_cases sameOffset : p.offset index = p.offset other
  · have same : index = other ↔ p.slot index = p.slot other := by
      simp [PageSize.eq_iff_offset_slot (p := p) index other, sameOffset]
    simp only [same, ← sameOffset, ↓reduceIte]
    rw [← assigned]
    split
    · next vacant => exact (Words.get_zeros _ _).trans (validAssigned.get_eq_false vacant _).symm
    · rfl
  · have different : index ≠ other := fun same => sameOffset (congrArg p.offset same)
    rw [if_neg sameOffset, if_neg different]

theorem WellFormed.assign (wf : s.WellFormed) (index : UInt32) (value : Bool) :
    (s.assign index value).2.WellFormed := by
  have validAssigned := (wf.valid_pageFor (p.offset index)).assign
    (PageSize.hasIndex_offset_slot index) value
  rw [assign_eq wf]
  dsimp only
  split
  · next vacant =>
    exact ⟨PageTable.ascending_unlink wf.ascending,
      fun entry member => wf.valid entry (PageTable.mem_of_mem_unlink member),
      fun entry member => wf.inhabited entry (PageTable.mem_of_mem_unlink member)⟩
  · next filled =>
    refine ⟨PageTable.ascending_link wf.ascending, fun entry member => ?_, fun entry member => ?_⟩
    · rcases PageTable.mem_link member with rfl | member
      · exact validAssigned
      · exact wf.valid entry member
    · rcases PageTable.mem_link member with rfl | member
      · exact Nat.pos_of_ne_zero filled
      · exact wf.inhabited entry member

theorem WellFormed.hasIndex_set (wf : s.WellFormed) {entry : UInt32 × BitPage}
    (member : entry ∈ s.pages) {slot : Nat} (set : slot ∈ entry.2.words.toList) :
    p.HasIndex entry.1 slot :=
  (wf.valid entry member).indexed slot (Words.mem_toList.mp set)

theorem mem_toList (wf : s.WellFormed) {index : UInt32} :
    index ∈ s.toList ↔ s.contains index = true := by
  simp only [toList, List.mem_flatMap, List.mem_map]
  constructor
  · rintro ⟨⟨offset, page⟩, member, slot, set, same⟩
    obtain ⟨rfl, rfl⟩ := PageSize.eq_of_index_eq (wf.hasIndex_set member set) same
    rw [contains, (PageTable.find?_eq_some_iff wf.ascending).mpr member]
    exact Words.mem_toList.mp set
  · intro set
    rw [contains] at set
    cases linked : s.pages.find? (p.offset index) with
    | none => simp [linked] at set
    | some page =>
      rw [linked] at set
      exact ⟨⟨p.offset index, page⟩, (PageTable.find?_eq_some_iff wf.ascending).mp linked,
        p.slot index, Words.mem_toList.mpr set, PageSize.index_offset_slot index⟩

/-- The members ascend, so none is listed twice. -/
theorem pairwise_toList (wf : s.WellFormed) : s.toList.Pairwise (· < ·) := by
  rw [toList]
  exact PageTable.pairwise_flatMap_index (fun page => page.words.toList) wf.ascending
    (fun entry _ => Words.pairwise_toList entry.2.words)
    fun _ member _ listed => wf.hasIndex_set member listed

theorem size_eq_length_toList (wf : s.WellFormed) : s.size = s.toList.length := by
  refine (length_flatMap_eq_total fun entry member => ?_).symm
  rw [List.length_map, (wf.valid entry member).ones]

theorem isEmpty_iff (wf : s.WellFormed) :
    s.isEmpty = true ↔ ∀ index, s.contains index = false := by
  rw [isEmpty, List.isEmpty_iff]
  constructor
  · intro nil index
    simp [contains, nil, PageTable.find?]
  · intro none
    apply List.eq_nil_iff_forall_not_mem.mpr
    intro entry member
    have inhabited := wf.inhabited entry member
    rw [(wf.valid entry member).ones] at inhabited
    obtain ⟨slot, set⟩ := List.exists_mem_of_length_pos inhabited
    have listed : p.index entry.1 slot ∈ s.toList :=
      List.mem_flatMap.mpr ⟨entry, member, List.mem_map.mpr ⟨slot, set, rfl⟩⟩
    exact absurd ((mem_toList wf).mp listed) (by simp [none])

/-- A scan finds the first member at or past its start. -/
theorem next?_eq (wf : s.WellFormed) (start : UInt64) :
    s.next? start = (s.toList.filter fun index => start ≤ index.toUInt64).head? := by
  have scanned := PageTable.findSome?_startingAt (p := p)
    (fun page : BitPage => page.words.toList) id wf.ascending
    (fun entry member slot set => wf.hasIndex_set member set) start
    fun offset slot => some (p.index offset slot)
  have head (items : List UInt32) : items.head? = items.findSome? some := by
    cases items <;> rfl
  rw [toList, List.filter_flatMap, head, PageTable.findSome?_flatMap]
  simp only [List.filter_map, Function.comp_def, List.findSome?_map, id] at scanned ⊢
  rw [next?, ← scanned]
  refine congrArg (List.findSome? · _) (funext fun entry => ?_)
  dsimp only
  rw [Words.nextSet?_eq]
  cases entry.2.words.toList.filter (p.startSlot entry.1 start ≤ ·) <;> rfl

/-- Every page has a member. -/
def NoEmptyPage (s : BitSet p) : Prop := ∀ entry ∈ s.pages, ∃ slot, entry.2.words.get slot = true

theorem WellFormed.noEmptyPage (wf : s.WellFormed) : s.NoEmptyPage := fun entry member => by
  have inhabited := wf.inhabited entry member
  rw [(wf.valid entry member).ones] at inhabited
  obtain ⟨slot, listed⟩ := List.exists_mem_of_length_pos inhabited
  exact ⟨slot, Words.mem_toList.mp listed⟩

end BitSet

end TripleCube
