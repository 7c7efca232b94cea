import TripleCube.Proofs.Sparse.PageTable
import TripleCube.Sparse.PagedMap

/-! Paged maps as finite maps. `WellFormed` says that the table lists exactly the pages that
hold something, that each page counts its values, and that no value lies past the index
space. Every write keeps it; reads, counts and scans then agree with the ascending list of
all entries. -/
namespace TripleCube

namespace Slots

variable {α β : Type}

/-- A page of the right width that counts its values, all of them at slots with an index. -/
structure Valid (p : PageSize) (offset : UInt32) (page : Slots α) : Prop where
  length : page.slots.length = p.slots
  occupied : page.occupied = page.slots.countP Option.isSome
  indexed : ∀ slot, page.get? slot ≠ none → p.HasIndex offset slot

variable {p : PageSize} {offset : UInt32} {page : Slots α}

theorem get?_blank (slot : Nat) : (blank p : Slots α).get? slot = none := by
  simp only [get?, blank, List.getElem?_replicate]
  split <;> rfl

theorem valid_blank : (blank p : Slots α).Valid p offset where
  length := List.length_replicate
  occupied := by simp [blank, List.countP_replicate]
  indexed slot present := absurd (get?_blank slot) present

theorem isSome_getElem {slot : Nat} (inPage : slot < page.slots.length) :
    page.slots[slot].isSome = (page.get? slot).isSome := by
  simp [get?, List.getElem?_eq_getElem inPage]

theorem get?_store (valid : page.Valid p offset) {slot : Nat} (inPage : slot < p.slots)
    (value : Option α) (other : Nat) :
    (page.store slot value).2.get? other = if slot = other then value else page.get? other := by
  have length : slot < page.slots.length := by rw [valid.length]; exact inPage
  simp only [store, get?, List.getElem?_set]
  by_cases same : slot = other
  · simp [same, same ▸ length]
  · simp [same]

theorem Valid.store (valid : page.Valid p offset) {slot : Nat} (hasIndex : p.HasIndex offset slot)
    (value : Option α) : (page.store slot value).2.Valid p offset where
  length := by simp [Slots.store, valid.length]
  occupied := by
    have inPage : slot < page.slots.length := by rw [valid.length]; exact hasIndex.slot_lt
    have counted : page.slots[slot].isSome → 0 < page.slots.countP Option.isSome := fun some =>
      List.countP_pos_iff.mpr ⟨_, List.getElem_mem inPage, some⟩
    have previous := isSome_getElem inPage
    simp only [Slots.store]
    rw [List.countP_set inPage, valid.occupied]
    revert previous
    cases page.get? slot <;> cases value <;> intro previous <;> grind
  indexed other present := by
    rw [get?_store valid hasIndex.slot_lt] at present
    by_cases same : slot = other
    · exact same ▸ hasIndex
    · exact valid.indexed other (by simpa [same] using present)

/-- A page without values reads as nothing everywhere. -/
theorem Valid.get?_eq_none (valid : page.Valid p offset) (vacant : page.occupied = 0) (slot : Nat) :
    page.get? slot = none := by
  have none : ∀ entry ∈ page.slots, ¬ entry.isSome := by
    rw [← List.countP_eq_zero, ← valid.occupied, vacant]
  rw [get?]
  cases at? : page.slots[slot]? with
  | none => rfl
  | some entry => simpa using none entry (List.mem_of_getElem? at?)

theorem mem_filledFrom {slots : List (Option α)} {first slot : Nat} {value : α} :
    (slot, value) ∈ filledFrom slots first ↔
      first ≤ slot ∧ slots[slot - first]? = some (some value) := by
  fun_induction filledFrom slots first with
  | case1 => simp
  | case2 rest first ih =>
    rw [ih]
    grind
  | case3 stored rest first ih =>
    rw [List.mem_cons, ih, Prod.mk.injEq]
    grind

theorem get?_eq_some_iff {slot : Nat} {value : α} :
    page.get? slot = some value ↔ (slot, value) ∈ filledFrom page.slots 0 := by
  rw [mem_filledFrom, get?, Option.join_eq_some_iff]
  simp

theorem pairwise_filledFrom (slots : List (Option α)) (first : Nat) :
    ((filledFrom slots first).map Prod.fst).Pairwise (· < ·) := by
  fun_induction filledFrom slots first with
  | case1 => exact List.Pairwise.nil
  | case2 _ _ ih => exact ih
  | case3 stored rest first ih =>
    refine List.pairwise_cons.mpr ⟨fun slot member => ?_, ih⟩
    obtain ⟨⟨slot, value⟩, listed, rfl⟩ := List.mem_map.mp member
    exact (mem_filledFrom.mp listed).1

theorem length_filledFrom (slots : List (Option α)) (first : Nat) :
    (filledFrom slots first).length = slots.countP Option.isSome := by
  fun_induction filledFrom slots first <;> simp_all

theorem findFrom?_eq_findSome? (slots : List (Option α)) (first : Nat)
    (f : Nat → α → Option β) :
    findFrom? slots first f =
      (filledFrom slots first).findSome? fun entry => f entry.1 entry.2 := by
  fun_induction filledFrom slots first with
  | case1 => rfl
  | case2 _ _ ih => exact ih
  | case3 stored rest first ih =>
    rw [findFrom?, List.findSome?_cons, ih]
    cases f first stored <;> rfl

theorem filledFrom_drop (slots : List (Option α)) (count first : Nat) :
    filledFrom (slots.drop count) (first + count) =
      (filledFrom slots first).filter fun entry => first + count ≤ entry.1 := by
  induction count generalizing slots first with
  | zero =>
    have all : (filledFrom slots first).filter (fun entry => first + 0 ≤ entry.1) =
        filledFrom slots first := by
      apply List.filter_eq_self.mpr
      intro entry member
      simpa using (mem_filledFrom.mp member).1
    rw [all, List.drop_zero, Nat.add_zero]
  | succ count ih =>
    have step := fun rest => ih rest (first + 1)
    simp only [Nat.add_right_comm first 1 count] at step
    cases slots with
    | nil => rfl
    | cons stored rest =>
      cases stored with
      | none => simpa [filledFrom, Nat.add_assoc] using step rest
      | some value => simpa [filledFrom, Nat.add_assoc] using step rest

end Slots

namespace PagedMap

variable {p : PageSize} {α β : Type}

/-- The table lists exactly the pages that hold something, in the order of their offsets. -/
structure WellFormed (m : PagedMap p α) : Prop where
  ascending : m.pages.Ascending
  valid : ∀ entry ∈ m.pages, entry.2.Valid p entry.1
  inhabited : ∀ entry ∈ m.pages, 0 < entry.2.occupied

variable {m : PagedMap p α}

theorem wellFormed_empty : (empty : PagedMap p α).WellFormed :=
  ⟨PageTable.ascending_nil, by simp [empty], by simp [empty]⟩

@[simp] theorem get?_empty (index : UInt32) : (empty : PagedMap p α).get? index = none := rfl

/-- The page that a write changes: the one in the table, or a blank one. -/
def pageFor (m : PagedMap p α) (offset : UInt32) : Slots α :=
  (m.pages.find? offset).getD (.blank p)

theorem get?_eq_pageFor (m : PagedMap p α) (index : UInt32) :
    m.get? index = (m.pageFor (p.offset index)).get? (p.slot index) := by
  rw [get?, pageFor]
  cases m.pages.find? (p.offset index) with
  | none => simp [Slots.get?_blank]
  | some page => rfl

theorem WellFormed.valid_pageFor (wf : m.WellFormed) (offset : UInt32) :
    (m.pageFor offset).Valid p offset := by
  rw [pageFor]
  cases found : m.pages.find? offset with
  | none => exact Slots.valid_blank
  | some page => exact wf.valid _ ((PageTable.find?_eq_some_iff wf.ascending).mp found)

/-- Every write changes one page, and drops it if nothing is left. A removal where there is
no page is such a write as well: the blank page stays blank and is not in the table. -/
theorem put_eq (wf : m.WellFormed) (index : UInt32) (value : Option α) :
    m.put index value =
      let page := ((m.pageFor (p.offset index)).store (p.slot index) value).2
      (m.get? index, ⟨if page.occupied = 0 then m.pages.unlink (p.offset index)
        else m.pages.link (p.offset index) page⟩) := by
  rw [get?_eq_pageFor]
  cases found : m.pages.find? (p.offset index) with
  | some page =>
    simp only [put, pageFor, found]
    rfl
  | none =>
    cases value with
    | some value =>
      simp only [put, pageFor, found]
      rfl
    | none =>
      have absent : m.pages.unlink (p.offset index) = m.pages := by
        have missing := (PageTable.find?_eq_none_iff wf.ascending).mp found
        exact PageTable.unlink_eq_self missing
      simp only [put, found, pageFor, Option.getD_none, Slots.store, Slots.get?_blank]
      simp [Slots.blank, absent]

theorem put_fst (wf : m.WellFormed) (index : UInt32) (value : Option α) :
    (m.put index value).1 = m.get? index := by
  rw [put_eq wf]

theorem pageFor_write (wf : m.WellFormed) (offset other : UInt32) (page : Slots α) :
    (⟨if page.occupied = 0 then m.pages.unlink offset else m.pages.link offset page⟩ :
      PagedMap p α).pageFor other =
      if offset = other then if page.occupied = 0 then .blank p else page
      else m.pageFor other := by
  simp only [pageFor]
  by_cases vacant : page.occupied = 0
  · rw [if_pos vacant, if_pos vacant, PageTable.find?_unlink wf.ascending]
    split <;> rfl
  · rw [if_neg vacant, if_neg vacant, PageTable.find?_link wf.ascending]
    split <;> rfl

theorem get?_put (wf : m.WellFormed) (index other : UInt32) (value : Option α) :
    (m.put index value).2.get? other = if index = other then value else m.get? other := by
  have valid := wf.valid_pageFor (p.offset index)
  have stored := Slots.get?_store valid (p.slot_lt index) value
  have validStored := valid.store (PageSize.hasIndex_offset_slot index) value
  rw [get?_eq_pageFor, get?_eq_pageFor m, put_eq wf]
  dsimp only
  rw [pageFor_write wf]
  by_cases sameOffset : p.offset index = p.offset other
  · have same : index = other ↔ p.slot index = p.slot other := by
      simp [PageSize.eq_iff_offset_slot (p := p) index other, sameOffset]
    simp only [same, ← sameOffset, ↓reduceIte]
    rw [← stored]
    by_cases vacant : ((m.pageFor (p.offset index)).store (p.slot index) value).2.occupied = 0
    · rw [if_pos vacant, Slots.get?_blank, validStored.get?_eq_none vacant]
    · rw [if_neg vacant]
  · have different : index ≠ other := fun same => sameOffset (congrArg p.offset same)
    rw [if_neg sameOffset, if_neg different]

theorem WellFormed.put (wf : m.WellFormed) (index : UInt32) (value : Option α) :
    (m.put index value).2.WellFormed := by
  have validStored := (wf.valid_pageFor (p.offset index)).store
    (PageSize.hasIndex_offset_slot index) value
  rw [put_eq wf]
  dsimp only
  split
  · next vacant =>
    exact ⟨PageTable.ascending_unlink wf.ascending,
      fun entry member => wf.valid entry (PageTable.mem_of_mem_unlink member),
      fun entry member => wf.inhabited entry (PageTable.mem_of_mem_unlink member)⟩
  · next filled =>
    refine ⟨PageTable.ascending_link wf.ascending, fun entry member => ?_, fun entry member => ?_⟩
    · rcases PageTable.mem_link member with rfl | member
      · exact validStored
      · exact wf.valid entry member
    · rcases PageTable.mem_link member with rfl | member
      · exact Nat.pos_of_ne_zero filled
      · exact wf.inhabited entry member

theorem WellFormed.insert (wf : m.WellFormed) (index : UInt32) (value : α) :
    (m.insert index value).WellFormed := wf.put index (some value)

theorem WellFormed.erase (wf : m.WellFormed) (index : UInt32) : (m.erase index).WellFormed :=
  wf.put index none

theorem get?_insert (wf : m.WellFormed) (index other : UInt32) (value : α) :
    (m.insert index value).get? other = if index = other then some value else m.get? other :=
  get?_put wf index other (some value)

theorem get?_erase (wf : m.WellFormed) (index other : UInt32) :
    (m.erase index).get? other = if index = other then none else m.get? other :=
  get?_put wf index other none

/-- The filled slots of a page with their values. -/
theorem WellFormed.hasIndex_filled (wf : m.WellFormed) {entry : UInt32 × Slots α}
    (member : entry ∈ m.pages) {slot : Nat} {value : α}
    (filled : (slot, value) ∈ Slots.filledFrom entry.2.slots 0) : p.HasIndex entry.1 slot :=
  (wf.valid entry member).indexed slot (by simp [Slots.get?_eq_some_iff.mpr filled])

/-- The entries of the list are those that can be read. -/
theorem mem_toList (wf : m.WellFormed) {index : UInt32} {value : α} :
    (index, value) ∈ m.toList ↔ m.get? index = some value := by
  simp only [toList, List.mem_flatMap, List.mem_map, Prod.mk.injEq]
  constructor
  · rintro ⟨⟨offset, page⟩, member, ⟨slot, stored⟩, filled, same, rfl⟩
    obtain ⟨rfl, rfl⟩ := PageSize.eq_of_index_eq (wf.hasIndex_filled member filled) same
    rw [get?, (PageTable.find?_eq_some_iff wf.ascending).mpr member]
    exact Slots.get?_eq_some_iff.mpr filled
  · intro found
    obtain ⟨page, linked, read⟩ := Option.bind_eq_some_iff.mp found
    exact ⟨⟨p.offset index, page⟩, (PageTable.find?_eq_some_iff wf.ascending).mp linked,
      ⟨p.slot index, value⟩, Slots.get?_eq_some_iff.mp read, PageSize.index_offset_slot index, rfl⟩

theorem map_fst_toList (m : PagedMap p α) :
    m.toList.map Prod.fst = m.pages.flatMap fun entry =>
      ((Slots.filledFrom entry.2.slots 0).map Prod.fst).map (p.index entry.1) := by
  simp [toList, List.map_flatMap, Function.comp_def]

/-- The entries ascend, so no index is listed twice. -/
theorem pairwise_toList (wf : m.WellFormed) : m.toList.Pairwise fun a b => a.1 < b.1 := by
  rw [← List.pairwise_map (f := Prod.fst) (R := (· < ·)), map_fst_toList]
  refine PageTable.pairwise_flatMap_index (fun page =>
    (Slots.filledFrom page.slots 0).map Prod.fst) wf.ascending
    (fun entry _ => Slots.pairwise_filledFrom _ _) fun entry member slot listed => ?_
  obtain ⟨⟨slot, value⟩, filled, rfl⟩ := List.mem_map.mp listed
  exact wf.hasIndex_filled member filled

theorem size_eq_length_toList (wf : m.WellFormed) : m.size = m.toList.length := by
  refine (length_flatMap_eq_total fun entry member => ?_).symm
  rw [List.length_map, Slots.length_filledFrom, (wf.valid entry member).occupied]

theorem isEmpty_iff (wf : m.WellFormed) : m.isEmpty = true ↔ ∀ index, m.get? index = none := by
  rw [isEmpty, List.isEmpty_iff]
  constructor
  · intro nil index
    simp [get?, nil, PageTable.find?]
  · intro none
    apply List.eq_nil_iff_forall_not_mem.mpr
    intro entry member
    have valid := wf.valid entry member
    have inhabited := wf.inhabited entry member
    rw [valid.occupied, ← Slots.length_filledFrom _ 0] at inhabited
    obtain ⟨⟨slot, value⟩, filled⟩ := List.exists_mem_of_length_pos inhabited
    have listed : (p.index entry.1 slot, value) ∈ m.toList :=
      List.mem_flatMap.mpr ⟨entry, member, List.mem_map.mpr ⟨(slot, value), filled, rfl⟩⟩
    exact absurd ((mem_toList wf).mp listed) (by simp [none])

/-- A scan is a search of the list of entries, those before its start left out. -/
theorem findFrom?_eq (wf : m.WellFormed) (start : UInt64) (f : UInt32 → α → Option β) :
    m.findFrom? start f =
      (m.toList.filter fun entry => start ≤ entry.1.toUInt64).findSome? fun entry =>
        f entry.1 entry.2 := by
  have scanned := PageTable.findSome?_startingAt (p := p)
    (fun page => Slots.filledFrom page.slots 0) Prod.fst wf.ascending
    (fun entry member item filled => wf.hasIndex_filled member filled) start
    fun offset item => f (p.index offset item.1) item.2
  rw [toList, List.filter_flatMap, PageTable.findSome?_flatMap]
  simp only [List.filter_map, Function.comp_def, List.findSome?_map] at scanned ⊢
  rw [findFrom?, ← scanned]
  refine congrArg (List.findSome? · _) (funext fun entry => ?_)
  dsimp only
  rw [Slots.findFrom?_eq_findSome?]
  have skipped := Slots.filledFrom_drop entry.2.slots (p.startSlot entry.1 start) 0
  simp only [Nat.zero_add] at skipped
  rw [skipped]

/-- Every page has a value. -/
def NoEmptyPage (m : PagedMap p α) : Prop :=
  ∀ entry ∈ m.pages, ∃ slot value, entry.2.get? slot = some value

theorem WellFormed.noEmptyPage (wf : m.WellFormed) : m.NoEmptyPage := fun entry member => by
  have inhabited := wf.inhabited entry member
  rw [(wf.valid entry member).occupied, ← Slots.length_filledFrom _ 0] at inhabited
  obtain ⟨⟨slot, value⟩, filled⟩ := List.exists_mem_of_length_pos inhabited
  exact ⟨slot, value, Slots.get?_eq_some_iff.mpr filled⟩

/-- What a page holds can be read. -/
theorem WellFormed.get?_of_page (wf : m.WellFormed) {entry : UInt32 × Slots α}
    (member : entry ∈ m.pages) {slot : Nat} {value : α} (held : entry.2.get? slot = some value) :
    m.get? (p.index entry.1 slot) = some value := by
  have filled := Slots.get?_eq_some_iff.mp held
  exact (mem_toList wf).mp
    (List.mem_flatMap.mpr ⟨entry, member, List.mem_map.mpr ⟨(slot, value), filled, rfl⟩⟩)

end PagedMap

end TripleCube
