import TripleCube.Proofs.Sparse.Entries
import TripleCube.Proofs.Sparse.IndexSet

/-! The arithmetic of sparse containers. A position is a sum of words, an index is a position cut
to a word, and each page has a counter. In a well-formed container none of this loses anything,
also where the last page reaches past the index space: what a page holds lies at the index under
which it was written, counters move exactly and within the size of a page, and every slot that is
computed is one of its page. -/
namespace TripleCube

namespace PageSize

variable {p : PageSize} {offset : UInt32}

/-- A scan that has not passed a page begins within it. -/
theorem startSlot_lt {start : UInt64} (reached : p.startOffset start ≤ offset.toUInt64) :
    p.startSlot offset start < p.slots := by
  rw [UInt64.le_iff_toNat_le, toNat_startOffset, UInt32.toNat_toUInt64] at reached
  have within : start.toNat < (offset.toNat + 1) * p.slots :=
    (Nat.div_lt_iff_lt_mul p.slots_pos).mp (Nat.lt_succ_of_le reached)
  rw [Nat.add_mul] at within
  rw [startSlot_eq]
  have positive := p.slots_pos
  omega

theorem startSlot_le_iff (offset : UInt32) (start : UInt64) (slot : Nat) :
    p.startSlot offset start ≤ slot ↔ start.toNat ≤ (p.base offset).toNat + slot := by
  rw [startSlot_eq, toNat_base]
  omega

/-- A page that a scan has passed lies before its start as a whole. -/
theorem position_lt_start {start : UInt64} (passed : ¬ p.startOffset start ≤ offset.toUInt64)
    {slot : Nat} (inPage : slot < p.slots) : (p.base offset).toNat + slot < start.toNat := by
  rw [UInt64.not_le, UInt64.lt_iff_toNat_lt, toNat_startOffset, UInt32.toNat_toUInt64] at passed
  have before : (offset.toNat + 1) * p.slots ≤ start.toNat :=
    (Nat.le_div_iff_mul_le p.slots_pos).mp passed
  rw [Nat.add_mul] at before
  rw [toNat_base]
  omega

end PageSize

namespace PageTable

variable {Page : Type}

/-- What the arithmetic of a table has to respect in its pages. -/
structure View (Page : Type) where
  /-- A page that is not in the table. -/
  blank : Page
  /-- The slots that hold something. -/
  Holds : Page → Nat → Prop
  /-- The slots that there is room for. -/
  Has : Page → Nat → Prop
  /-- How many slots the page says hold something. -/
  count : Page → Nat

/-- No computation on a table loses anything: neither the index of a slot, nor a counter, nor the
slot of an index, nor the slot at which a scan begins. -/
structure Exact (p : PageSize) (view : View Page) (pages : PageTable Page) : Prop where
  position : ∀ entry ∈ pages, ∀ slot, view.Holds entry.2 slot →
    (p.base entry.1).toNat + slot ≤ 2 ^ 32 - 1 ∧
      (p.index entry.1 slot).toNat = (p.base entry.1).toNat + slot
  count : ∀ entry ∈ pages, 0 < view.count entry.2 ∧ view.count entry.2 ≤ p.slots
  split : ∀ index, view.Has ((pages.find? (p.offset index)).getD view.blank) (p.slot index)
  scan : ∀ start, ∀ entry ∈ pages.startingAt (p.startOffset start),
    view.Has entry.2 (p.startSlot entry.1 start) ∧ ∀ slot,
      p.startSlot entry.1 start ≤ slot ↔ start.toNat ≤ (p.base entry.1).toNat + slot
  skip : ∀ start, ∀ entry ∈ pages, entry ∉ pages.startingAt (p.startOffset start) →
    ∀ slot < p.slots, (p.base entry.1).toNat + slot < start.toNat

/-- It is enough that pages have their room, count what they hold, and hold nothing that has no
index. -/
theorem Exact.of_pages {p : PageSize} {view : View Page} {pages : PageTable Page}
    (ascending : pages.Ascending)
    (blank : ∀ slot < p.slots, view.Has view.blank slot)
    (room : ∀ entry ∈ pages, ∀ slot < p.slots, view.Has entry.2 slot)
    (indexed : ∀ entry ∈ pages, ∀ slot, view.Holds entry.2 slot → p.HasIndex entry.1 slot)
    (count : ∀ entry ∈ pages, 0 < view.count entry.2 ∧ view.count entry.2 ≤ p.slots) :
    pages.Exact p view where
  position entry listed slot held := by
    have valid := indexed entry listed slot held
    have index := PageSize.toNat_index valid
    have small := valid.position_lt
    rw [PageSize.position, ← PageSize.toNat_base] at index small
    exact ⟨Nat.le_sub_one_of_lt small, index⟩
  count := count
  split index := by
    cases found : pages.find? (p.offset index) with
    | none => exact blank _ (p.slot_lt index)
    | some page => exact room _ ((find?_eq_some_iff ascending).mp found) _ (p.slot_lt index)
  scan start entry listed := by
    rw [startingAt_eq_filter ascending, List.mem_filter, decide_eq_true_eq] at listed
    exact ⟨room entry listed.1 _ (PageSize.startSlot_lt listed.2),
      PageSize.startSlot_le_iff entry.1 start⟩
  skip start entry listed passed slot inPage := by
    rw [startingAt_eq_filter ascending, List.mem_filter, decide_eq_true_eq, not_and] at passed
    exact PageSize.position_lt_start (passed listed) inPage

/-- With pages of three slots the last index has a page to itself. The surplus slots of that page
would be taken for the first indices, were they ever filled. -/
example : let p : PageSize := ⟨3, by decide⟩
    p.index 0x55555555 0 = 0xFFFFFFFF ∧ p.index 0x55555555 1 = 0 := by decide

end PageTable

namespace Slots

variable {p : PageSize} {α : Type} {offset : UInt32} {page : Slots α}

def view (p : PageSize) : PageTable.View (Slots α) where
  blank := .blank p
  Holds page slot := ∃ value, page.get? slot = some value
  Has page slot := slot < page.slots.length
  count := occupied

theorem Valid.occupied_le (valid : page.Valid p offset) : page.occupied ≤ p.slots := by
  rw [valid.occupied, ← valid.length]
  exact List.countP_le_length

/-- A write moves the counter by what it adds and takes away. -/
theorem Valid.occupied_store (valid : page.Valid p offset) {slot : Nat} (inPage : slot < p.slots)
    (value : Option α) : (page.store slot value).2.occupied + (page.get? slot).isSome.toNat =
      page.occupied + value.isSome.toNat := by
  cases held : page.get? slot with
  | none => cases value <;> simp [Slots.store, held]
  | some old =>
    have counted : 0 < page.occupied := by
      rw [← valid.length] at inPage
      have filled : page.slots[slot].isSome := by rw [isSome_getElem inPage, held]; rfl
      rw [valid.occupied]
      exact List.countP_pos_iff.mpr ⟨_, List.getElem_mem inPage, filled⟩
    cases value with
    | none => simpa [Slots.store, held] using Nat.sub_add_cancel counted
    | some new => simp [Slots.store, held]

end Slots

namespace PagedMap

variable {p : PageSize} {α : Type} {m : PagedMap p α}

/-- No computation on a map loses anything. -/
structure Exact (m : PagedMap p α) : Prop where
  pages : m.pages.Exact p (Slots.view p)
  counter : ∀ index value,
    let page := m.pageFor (p.offset index)
    let written := (page.store (p.slot index) value).2
    written.occupied + (page.get? (p.slot index)).isSome.toNat =
        page.occupied + value.isSome.toNat ∧
      written.occupied ≤ p.slots

theorem WellFormed.exact (wf : m.WellFormed) : m.Exact where
  pages := by
    refine .of_pages wf.ascending (fun slot inPage => ?_) (fun entry listed slot inPage => ?_)
      (fun entry listed slot held => ?_) fun entry listed => ?_
    · simpa [Slots.view, Slots.blank] using inPage
    · simpa [Slots.view, (wf.valid entry listed).length] using inPage
    · obtain ⟨value, held⟩ := held
      exact (wf.valid entry listed).indexed slot (by simp [held])
    · exact ⟨wf.inhabited entry listed, (wf.valid entry listed).occupied_le⟩
  counter index value := by
    have valid := wf.valid_pageFor (p.offset index)
    have stored := valid.store (PageSize.hasIndex_offset_slot index) value
    exact ⟨valid.occupied_store (p.slot_lt index) value, stored.occupied_le⟩

/-- The index and the value that a call stores. -/
def Write.stored? : Write α → Option (UInt32 × α)
  | .put index (some value) | .insert index value => some (index, value)
  | .put _ none | .remove _ => none

/-- An entry is new only at the index that a call stores at. -/
theorem lookup_stepEntries {entries : Entries α} {write : Write α} {index : UInt32} {value : α}
    (found : (stepEntries entries write).2.lookup index = some value) :
    entries.lookup index = some value ∨ write.stored? = some (index, value) := by
  have inserted : ∀ other stored, (entries.insert other stored).lookup index = some value →
      entries.lookup index = some value ∨ some (other, stored) = some (index, value) := by
    intro other stored found
    by_cases same : index = other
    · subst same
      rw [Finmap.lookup_insert, Option.some.injEq] at found
      exact Or.inr (by rw [found])
    · rw [Finmap.lookup_insert_of_ne entries same] at found
      exact Or.inl found
  have erased : ∀ other, (entries.erase other).lookup index = some value →
      entries.lookup index = some value := by
    intro other found
    by_cases same : index = other
    · rw [same, Finmap.lookup_erase] at found
      cases found
    · rwa [Finmap.lookup_erase_ne same] at found
  cases write with
  | put other stored =>
    cases stored with
    | none => exact Or.inl (erased other found)
    | some stored => exact inserted other stored found
  | insert other stored => exact inserted other stored found
  | remove other => exact Or.inl (erased other found)

theorem lookup_run {writes : List (Write α)} {entries : Entries α} {index : UInt32} {value : α}
    (found : (Calls.run stepEntries writes entries).2.lookup index = some value) :
    entries.lookup index = some value ∨ ∃ write ∈ writes, write.stored? = some (index, value) := by
  induction writes generalizing entries with
  | nil => exact Or.inl found
  | cons write rest ih =>
    rcases ih found with before | ⟨later, listed, stored⟩
    · rcases lookup_stepEntries before with old | stored
      · exact Or.inl old
      · exact Or.inr ⟨write, List.mem_cons_self, stored⟩
    · exact Or.inr ⟨later, List.mem_cons_of_mem _ listed, stored⟩

/-- What a page holds lies at the index under which one of the writes stored it. -/
def Traces (m : PagedMap p α) (writes : List (Write α)) : Prop :=
  ∀ entry ∈ m.pages, ∀ slot value, entry.2.get? slot = some value →
    ∃ index, (∃ write ∈ writes, write.stored? = some (index, value)) ∧
      (p.base entry.1).toNat + slot = index.toNat

theorem exact_run (p : PageSize) (writes : List (Write α)) :
    let reached := (Calls.run step writes (empty : PagedMap p α)).2
    reached.Exact ∧ reached.Traces writes := by
  obtain ⟨-, represents⟩ := Calls.run_simulates Represents
    (fun _ _ write represents => represents.step write) writes (represents_empty (p := p))
  have exact := represents.wf.exact
  refine ⟨exact, fun entry listed slot value held => ?_⟩
  have stored := represents.wf.get?_of_page listed held
  rw [represents.entry] at stored
  rcases lookup_run stored with absent | written
  · simp at absent
  · exact ⟨_, written, (exact.pages.position entry listed slot ⟨value, held⟩).2.symm⟩

end PagedMap

namespace BitPage

variable {p : PageSize} {offset : UInt32} {page : BitPage}

def view (p : PageSize) : PageTable.View BitPage where
  blank := .blank p
  Holds page slot := page.words.get slot = true
  Has page slot := slot / 64 < page.words.length
  count := ones

theorem Valid.ones_le (valid : page.Valid p offset) : page.ones ≤ p.slots := by
  have within : page.words.toList ⊆ List.range p.slots := fun slot listed =>
    List.mem_range.mpr (valid.indexed slot (Words.mem_toList.mp listed)).slot_lt
  have fewer := ((Words.nodup_toList page.words).subperm within).length_le
  rwa [List.length_range, ← valid.ones] at fewer

theorem Valid.ones_assign (valid : page.Valid p offset) (slot : Nat) (value : Bool) :
    (page.assign slot value).2.ones + (page.words.get slot).toNat =
      page.ones + value.toNat := by
  cases held : page.words.get slot with
  | false => cases value <;> simp [BitPage.assign, held]
  | true =>
    have counted : 0 < page.ones := by
      rw [valid.ones]
      exact List.length_pos_of_mem (Words.mem_toList.mpr held)
    cases value with
    | false => simpa [BitPage.assign, held] using Nat.sub_add_cancel counted
    | true => simp [BitPage.assign, held]

end BitPage

namespace BitSet

variable {p : PageSize} {s : BitSet p}

/-- No computation on a set loses anything. -/
structure Exact (s : BitSet p) : Prop where
  pages : s.pages.Exact p (BitPage.view p)
  counter : ∀ index value,
    let page := s.pageFor (p.offset index)
    let assigned := (page.assign (p.slot index) value).2
    assigned.ones + (page.words.get (p.slot index)).toNat = page.ones + value.toNat ∧
      assigned.ones ≤ p.slots

theorem WellFormed.exact (wf : s.WellFormed) : s.Exact where
  pages := by
    refine .of_pages wf.ascending (fun slot inPage => ?_) (fun entry listed slot inPage => ?_)
      (fun entry listed => (wf.valid entry listed).indexed) fun entry listed => ?_
    · have blank : (BitPage.blank p).Valid p 0 := BitPage.valid_blank
      exact blank.inWords inPage
    · exact (wf.valid entry listed).inWords inPage
    · exact ⟨wf.inhabited entry listed, (wf.valid entry listed).ones_le⟩
  counter index value := by
    have valid := wf.valid_pageFor (p.offset index)
    have assigned := valid.assign (PageSize.hasIndex_offset_slot index) value
    exact ⟨valid.ones_assign (p.slot index) value, assigned.ones_le⟩

theorem mem_run {writes : List Write} {members : Finset UInt32} {index : UInt32}
    (member : index ∈ (Calls.run stepMembers writes members).2) :
    index ∈ members ∨ Write.set index ∈ writes := by
  induction writes generalizing members with
  | nil => exact Or.inl member
  | cons write rest ih =>
    rcases ih member with before | later
    · cases write with
      | set other =>
        rcases Finset.mem_insert.mp before with rfl | old
        · exact Or.inr List.mem_cons_self
        · exact Or.inl old
      | clear other => exact Or.inl (Finset.mem_of_mem_erase before)
    · exact Or.inr (List.mem_cons_of_mem _ later)

/-- Each bit of a page lies at an index that one of the writes set. -/
def Traces (s : BitSet p) (writes : List Write) : Prop :=
  ∀ entry ∈ s.pages, ∀ slot, entry.2.words.get slot = true →
    ∃ index, Write.set index ∈ writes ∧ (p.base entry.1).toNat + slot = index.toNat

theorem exact_run (p : PageSize) (writes : List Write) :
    let reached := (Calls.run step writes (empty : BitSet p)).2
    reached.Exact ∧ reached.Traces writes := by
  obtain ⟨-, represents⟩ := Calls.run_simulates Represents
    (fun _ _ write represents => represents.step write) writes (represents_empty (p := p))
  have exact := represents.wf.exact
  refine ⟨exact, fun entry listed slot set => ?_⟩
  have member : p.index entry.1 slot ∈ (Calls.run stepMembers writes ∅).2 :=
    (represents.mem_toList _).mp (List.mem_flatMap.mpr
      ⟨entry, listed, List.mem_map_of_mem (Words.mem_toList.mpr set)⟩)
  rcases mem_run member with absent | written
  · simp at absent
  · exact ⟨_, written, (exact.pages.position entry listed slot set).2.symm⟩

end BitSet

end TripleCube
