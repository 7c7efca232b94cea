import TripleCube.Proofs.Sparse.BitSet
import TripleCube.Proofs.Sparse.PagedMap

/-! Sparse containers have one form for what they hold. Two well-formed maps with the same
entries are equal, page by page and slot by slot, and so are two well-formed sets with the same
members, whatever was written to them before. -/
namespace TripleCube

/-- A table is determined by the pages that are found in it. -/
theorem PageTable.eq_of_find? {Page : Type} {pages others : PageTable Page}
    (ascending : pages.Ascending) (othersAscend : others.Ascending)
    (same : ∀ offset, pages.find? offset = others.find? offset) : pages = others := by
  refine Sorted.eq_of_mem_iff (fun _ _ => UInt32.lt_asymm) ascending othersAscend ?_
  rintro ⟨offset, page⟩
  rw [← find?_eq_some_iff ascending, ← find?_eq_some_iff othersAscend, same]

namespace Slots

variable {p : PageSize} {α : Type} {offset : UInt32} {page other : Slots α}

/-- A page is determined by the values at slots that have an index. -/
theorem Valid.eq_of_get? (valid : page.Valid p offset) (otherValid : other.Valid p offset)
    (same : ∀ slot, p.HasIndex offset slot → page.get? slot = other.get? slot) :
    page = other := by
  -- The surplus slots of the last page have no index, and neither page has filled one.
  have everywhere : ∀ slot, page.get? slot = other.get? slot := fun slot => by
    by_cases hasIndex : p.HasIndex offset slot
    · exact same slot hasIndex
    · have none := fun present => hasIndex (valid.indexed slot present)
      have otherNone := fun present => hasIndex (otherValid.indexed slot present)
      rw [Classical.not_not.mp none, Classical.not_not.mp otherNone]
  have slots : page.slots = other.slots := by
    apply List.ext_getElem (valid.length.trans otherValid.length.symm)
    intro slot inPage inOther
    simpa [get?, inPage, inOther] using everywhere slot
  have occupied := valid.occupied.trans (slots ▸ otherValid.occupied.symm)
  cases page
  cases other
  simp_all

end Slots

namespace PagedMap

variable {p : PageSize} {α : Type} {m other : PagedMap p α}

/-- The table has the page for an offset unless that page would be empty. -/
theorem WellFormed.find?_eq (wf : m.WellFormed) (offset : UInt32) :
    m.pages.find? offset =
      if (m.pageFor offset).occupied = 0 then none else some (m.pageFor offset) := by
  rw [pageFor]
  cases found : m.pages.find? offset with
  | none => simp [Slots.blank]
  | some page =>
    have inhabited := wf.inhabited _ ((PageTable.find?_eq_some_iff wf.ascending).mp found)
    simp [Nat.pos_iff_ne_zero.mp inhabited]

theorem get?_pageFor (m : PagedMap p α) {offset : UInt32} {slot : Nat}
    (hasIndex : p.HasIndex offset slot) :
    (m.pageFor offset).get? slot = m.get? (p.index offset slot) := by
  rw [get?_eq_pageFor, PageSize.offset_index hasIndex, PageSize.slot_index hasIndex]

/-- A map is determined by its entries. -/
theorem WellFormed.eq_of_get? (wf : m.WellFormed) (otherWf : other.WellFormed)
    (same : ∀ index, m.get? index = other.get? index) : m = other := by
  have pages : ∀ offset, m.pageFor offset = other.pageFor offset := fun offset =>
    (wf.valid_pageFor offset).eq_of_get? (otherWf.valid_pageFor offset) fun slot hasIndex => by
      rw [get?_pageFor m hasIndex, get?_pageFor other hasIndex, same]
  have tables := PageTable.eq_of_find? wf.ascending otherWf.ascending fun offset => by
    rw [wf.find?_eq, otherWf.find?_eq, pages]
  cases m
  cases other
  simp_all

end PagedMap

namespace Words

/-- Words are determined by their bits. -/
theorem eq_of_get {words others : Words} (length : words.length = others.length)
    (same : ∀ slot, words.get slot = others.get slot) : words = others := by
  apply List.ext_getElem length
  intro i inWords inOthers
  apply UInt64.toBitVec_inj.mp
  apply BitVec.eq_of_getLsbD_eq
  intro bit small
  have quotient : (64 * i + bit) / 64 = i := by omega
  have remainder : (64 * i + bit) % 64 = bit := by omega
  have here := same (64 * i + bit)
  simpa [get_eq_hasBit, hasBit, quotient, remainder, inWords, inOthers] using here

end Words

namespace BitPage

variable {p : PageSize} {offset : UInt32} {page other : BitPage}

/-- A page is determined by the bits at slots that have an index. -/
theorem Valid.eq_of_get (valid : page.Valid p offset) (otherValid : other.Valid p offset)
    (same : ∀ slot, p.HasIndex offset slot → page.words.get slot = other.words.get slot) :
    page = other := by
  -- As in a map, slots without an index are clear in both pages.
  have everywhere : ∀ slot, page.words.get slot = other.words.get slot := fun slot => by
    by_cases hasIndex : p.HasIndex offset slot
    · exact same slot hasIndex
    · have clear := fun set => hasIndex (valid.indexed slot set)
      have otherClear := fun set => hasIndex (otherValid.indexed slot set)
      rw [Bool.eq_false_iff.mpr clear, Bool.eq_false_iff.mpr otherClear]
  have words := Words.eq_of_get (valid.length.trans otherValid.length.symm) everywhere
  have ones := valid.ones.trans (words ▸ otherValid.ones.symm)
  cases page
  cases other
  simp_all

end BitPage

namespace BitSet

variable {p : PageSize} {s other : BitSet p}

/-- The table has the page for an offset unless that page would be empty. -/
theorem WellFormed.find?_eq (wf : s.WellFormed) (offset : UInt32) :
    s.pages.find? offset =
      if (s.pageFor offset).ones = 0 then none else some (s.pageFor offset) := by
  rw [pageFor]
  cases found : s.pages.find? offset with
  | none => simp [BitPage.blank]
  | some page =>
    have inhabited := wf.inhabited _ ((PageTable.find?_eq_some_iff wf.ascending).mp found)
    simp [Nat.pos_iff_ne_zero.mp inhabited]

theorem get_pageFor (s : BitSet p) {offset : UInt32} {slot : Nat}
    (hasIndex : p.HasIndex offset slot) :
    (s.pageFor offset).words.get slot = s.contains (p.index offset slot) := by
  rw [contains_eq_pageFor, PageSize.offset_index hasIndex, PageSize.slot_index hasIndex]

/-- A set is determined by its members. -/
theorem WellFormed.eq_of_contains (wf : s.WellFormed) (otherWf : other.WellFormed)
    (same : ∀ index, s.contains index = other.contains index) : s = other := by
  have pages : ∀ offset, s.pageFor offset = other.pageFor offset := fun offset =>
    (wf.valid_pageFor offset).eq_of_get (otherWf.valid_pageFor offset) fun slot hasIndex => by
      rw [get_pageFor s hasIndex, get_pageFor other hasIndex, same]
  have tables := PageTable.eq_of_find? wf.ascending otherWf.ascending fun offset => by
    rw [wf.find?_eq, otherWf.find?_eq, pages]
  cases s
  cases other
  simp_all

end BitSet

end TripleCube
