import TripleCube.Proofs.Sparse.PageSize
import TripleCube.Sparse.PageTable

/-! Page tables as finite maps. In an ascending table a page is found exactly when it is
listed, so linking and unlinking are the writes of a map from offsets to pages. Listed page
by page, the indices ascend, and a scan that begins at a page and a slot of it meets the same
items as one that looks at all pages and passes over those before its start. -/
namespace TripleCube.PageTable

variable {Page : Type} {pages : PageTable Page} {offset : UInt32} {page : Page}

theorem find?_cons (o : UInt32) (first : Page) (rest : PageTable Page) :
    find? ((o, first) :: rest) offset =
      if o < offset then find? rest offset else if o = offset then some first else none := rfl

theorem ascending_nil : Ascending ([] : PageTable Page) := List.Pairwise.nil

theorem ascending_cons {o : UInt32} {first : Page} {rest : PageTable Page} :
    Ascending ((o, first) :: rest) ↔ (∀ entry ∈ rest, o < entry.1) ∧ Ascending rest :=
  List.pairwise_cons

/-- The search may stop at the first larger offset because the offsets ascend. -/
theorem find?_eq_some_iff (ascending : pages.Ascending) :
    pages.find? offset = some page ↔ (offset, page) ∈ pages := by
  induction pages with
  | nil => simp [find?]
  | cons entry rest ih =>
    obtain ⟨o, first⟩ := entry
    obtain ⟨later, ascending⟩ := ascending_cons.mp ascending
    rw [find?_cons, List.mem_cons, Prod.mk.injEq]
    by_cases lt : o < offset
    · rw [if_pos lt, ih ascending]
      have different : offset ≠ o := fun same => UInt32.lt_irrefl o (same ▸ lt)
      simp [different]
    by_cases same : o = offset
    · subst same
      have absent : (o, page) ∉ rest := fun member => UInt32.lt_irrefl o (later _ member)
      rw [if_neg (UInt32.lt_irrefl o), if_pos rfl]
      simp [absent, eq_comm]
    · have absent : (offset, page) ∉ rest := fun member => lt (later _ member)
      rw [if_neg lt, if_neg same]
      simp [absent, Ne.symm same]

theorem find?_eq_none_iff (ascending : pages.Ascending) :
    pages.find? offset = none ↔ ∀ entry ∈ pages, entry.1 ≠ offset := by
  rw [Option.eq_none_iff_forall_ne_some]
  constructor
  · rintro missing ⟨o, page⟩ member rfl
    exact missing page ((find?_eq_some_iff ascending).mpr member)
  · intro missing page found
    exact missing _ ((find?_eq_some_iff ascending).mp found) rfl

theorem mem_link {entry : UInt32 × Page} (member : entry ∈ pages.link offset page) :
    entry = (offset, page) ∨ entry ∈ pages := by
  fun_induction link pages offset page <;> grind

theorem mem_of_mem_unlink {entry : UInt32 × Page} (member : entry ∈ pages.unlink offset) :
    entry ∈ pages := by
  fun_induction unlink pages offset <;> grind

theorem ascending_link (ascending : pages.Ascending) : (pages.link offset page).Ascending := by
  induction pages with
  | nil => exact ascending_cons.mpr ⟨by simp, ascending_nil⟩
  | cons entry rest ih =>
    obtain ⟨o, old⟩ := entry
    obtain ⟨later, rest_ascending⟩ := ascending_cons.mp ascending
    rw [link]
    split
    · next lt =>
      refine ascending_cons.mpr ⟨fun entry member => ?_, ih rest_ascending⟩
      rcases mem_link member with rfl | member
      · exact lt
      · exact later _ member
    · next notLt =>
      split
      · next same => exact ascending_cons.mpr ⟨same ▸ later, rest_ascending⟩
      · next different =>
        have gt : offset < o :=
          UInt32.lt_of_le_of_ne (UInt32.not_lt.mp notLt) (Ne.symm different)
        refine ascending_cons.mpr ⟨fun entry member => ?_, ascending⟩
        rcases List.mem_cons.mp member with rfl | member
        · exact gt
        · exact UInt32.lt_trans gt (later _ member)

theorem unlink_sublist (pages : PageTable Page) (offset : UInt32) :
    (pages.unlink offset).Sublist pages := by
  fun_induction unlink pages offset with
  | case1 => exact List.Sublist.slnil
  | case2 _ _ _ _ _ ih => exact ih.cons_cons _
  | case3 => exact List.sublist_cons_self _ _
  | case4 => exact List.Sublist.refl _

theorem unlink_eq_self (absent : ∀ entry ∈ pages, entry.1 ≠ offset) :
    pages.unlink offset = pages := by
  fun_induction unlink pages offset <;> simp_all

theorem ascending_unlink (ascending : pages.Ascending) : (pages.unlink offset).Ascending :=
  List.Pairwise.sublist (unlink_sublist pages offset) ascending

theorem find?_link (ascending : pages.Ascending) (other : UInt32) :
    (pages.link offset page).find? other =
      if offset = other then some page else pages.find? other := by
  induction pages with
  | nil => grind [link, find?]
  | cons entry rest ih =>
    obtain ⟨o, old⟩ := entry
    have ih := ih (ascending_cons.mp ascending).2
    rw [link]
    grind [find?]

theorem find?_unlink (ascending : pages.Ascending) (other : UInt32) :
    (pages.unlink offset).find? other = if offset = other then none else pages.find? other := by
  induction pages with
  | nil => simp [unlink, find?]
  | cons entry rest ih =>
    obtain ⟨o, old⟩ := entry
    obtain ⟨later, rest_ascending⟩ := ascending_cons.mp ascending
    have ih := ih rest_ascending
    have absent : ¬ o < other → find? rest other = none := fun notLater =>
      (find?_eq_none_iff rest_ascending).mpr fun entry member same =>
        notLater (same ▸ later entry member)
    rw [unlink]
    grind [find?]

/-- Skipping to an offset drops exactly the pages before it. -/
theorem startingAt_eq_filter (ascending : pages.Ascending) (start : UInt64) :
    pages.startingAt start = pages.filter fun entry => start ≤ entry.1.toUInt64 := by
  induction pages with
  | nil => rfl
  | cons entry rest ih =>
    obtain ⟨later, ascending⟩ := ascending_cons.mp ascending
    have ih := ih ascending
    rw [startingAt] at ih ⊢
    rw [List.dropWhile_cons, List.filter_cons]
    by_cases before : entry.1.toUInt64 < start
    · have after : ¬ start ≤ entry.1.toUInt64 := UInt64.not_le.mpr before
      simpa [before, after] using ih
    · have all : ∀ other ∈ rest, start ≤ other.1.toUInt64 := by
        intro other member
        have step := later other member
        rw [UInt64.not_lt, UInt64.le_iff_toNat_le, UInt32.toNat_toUInt64] at before
        rw [UInt32.lt_iff_toNat_lt] at step
        rw [UInt64.le_iff_toNat_le, UInt32.toNat_toUInt64]
        omega
      have kept : rest.filter (fun other => start ≤ other.1.toUInt64) = rest :=
        List.filter_eq_self.mpr fun other member => by simpa using all other member
      simp [before, UInt64.not_lt.mp before, kept]

/-- Indices listed page by page ascend if the slots of each page do. -/
theorem pairwise_flatMap_index {p : PageSize} (slotsOf : Page → List Nat)
    (ascending : pages.Ascending)
    (sorted : ∀ entry ∈ pages, (slotsOf entry.2).Pairwise (· < ·))
    (indexed : ∀ entry ∈ pages, ∀ slot ∈ slotsOf entry.2, p.HasIndex entry.1 slot) :
    (pages.flatMap fun entry => (slotsOf entry.2).map (p.index entry.1)).Pairwise (· < ·) := by
  rw [List.pairwise_flatMap]
  constructor
  · intro entry member
    rw [List.pairwise_map]
    refine (sorted entry member).imp_of_mem fun ma mb lt => ?_
    exact PageSize.index_lt_index_of_slot_lt (indexed entry member _ ma)
      (indexed entry member _ mb) lt
  · refine List.Pairwise.imp_of_mem (fun {first second} mf ms lt => ?_) ascending
    intro x mx y my
    obtain ⟨a, ma, rfl⟩ := List.mem_map.mp mx
    obtain ⟨b, mb, rfl⟩ := List.mem_map.mp my
    exact PageSize.index_lt_index_of_offset_lt (indexed first mf a ma) (indexed second ms b mb) lt

theorem findSome?_flatMap {ι κ γ : Type} (items : List ι) (f : ι → List κ) (g : κ → Option γ) :
    (items.flatMap f).findSome? g = items.findSome? fun item => (f item).findSome? g := by
  induction items with
  | nil => rfl
  | cons item rest ih =>
    rw [List.flatMap_cons, List.findSome?_append, List.findSome?_cons, ih]
    cases (f item).findSome? g <;> rfl

/-- Skipping pages and slots is only a shortcut for skipping the items before the start. -/
theorem findSome?_startingAt {p : PageSize} {ι γ : Type} (itemsOf : Page → List ι)
    (slotOf : ι → Nat) (ascending : pages.Ascending)
    (indexed : ∀ entry ∈ pages, ∀ item ∈ itemsOf entry.2, p.HasIndex entry.1 (slotOf item))
    (start : UInt64) (g : UInt32 → ι → Option γ) :
    ((pages.startingAt (p.startOffset start)).findSome? fun entry =>
      ((itemsOf entry.2).filter fun item => p.startSlot entry.1 start ≤ slotOf item).findSome?
        (g entry.1)) =
    pages.findSome? fun entry =>
      ((itemsOf entry.2).filter fun item =>
        start ≤ (p.index entry.1 (slotOf item)).toUInt64).findSome? (g entry.1) := by
  rw [startingAt_eq_filter ascending]
  clear ascending
  induction pages with
  | nil => rfl
  | cons entry rest ih =>
    have ih := ih fun other member => indexed other (List.mem_cons_of_mem _ member)
    have here := indexed entry List.mem_cons_self
    rw [List.filter_cons, List.findSome?_cons]
    by_cases reached : p.startOffset start ≤ entry.1.toUInt64
    · have same : (itemsOf entry.2).filter (fun item => p.startSlot entry.1 start ≤ slotOf item) =
          (itemsOf entry.2).filter fun item =>
            start ≤ (p.index entry.1 (slotOf item)).toUInt64 := by
        apply List.filter_congr
        intro item member
        exact decide_eq_decide.mpr (PageSize.start_le_index start (here item member)).symm
      rw [if_pos (decide_eq_true reached), List.findSome?_cons, same, ih]
    · have none : (itemsOf entry.2).filter (fun item =>
          start ≤ (p.index entry.1 (slotOf item)).toUInt64) = [] := by
        apply List.filter_eq_nil_iff.mpr
        intro item member le
        have before := PageSize.index_lt_start (here item member) (UInt64.not_le.mp reached)
        exact UInt64.not_le.mpr before (of_decide_eq_true le)
      rw [if_neg (by simpa using reached), none, ih, List.findSome?_nil]

end TripleCube.PageTable
