import TripleCube.Grid.Axis
import TripleCube.Proofs.Sorted
import TripleCube.Proofs.Sparse.PagedMap

/-! One layer of a grid: a paged map whose values hold items of their own. The points of a
layer are its items behind the index of their entry, in lexicographic order. A search along
an axis that asks each entry for its first good item finds the first good point. -/
namespace TripleCube

namespace Axis

/-- Whether a search along the axis admits an index. -/
def admits : Axis → UInt32 → Bool
  | any, _ => true
  | only expected, index => expected == index

@[simp] theorem admits_any (index : UInt32) : any.admits index = true := rfl

@[simp] theorem admits_only (expected index : UInt32) :
    (only expected).admits index = (expected == index) := rfl

theorem start_le_of_admits {axis : Axis} {index : UInt32} (admitted : axis.admits index = true) :
    axis.start ≤ index.toUInt64 := by
  cases axis with
  | any => exact UInt64.zero_le
  | only expected =>
    rw [admits_only, beq_iff_eq] at admitted
    exact admitted ▸ UInt64.le_refl _

end Axis

theorem position_le_of_lt {start : UInt64} {index other : UInt32}
    (reached : start ≤ index.toUInt64) (less : index < other) : start ≤ other.toUInt64 := by
  rw [UInt64.le_iff_toNat_le, UInt32.toNat_toUInt64] at reached ⊢
  rw [UInt32.lt_iff_toNat_lt] at less
  omega

namespace PagedMap

variable {p : PageSize} {σ ι β : Type} {m : PagedMap p σ}

/-- A well-formed map whose values all have a property. -/
structure Holds (inner : σ → Prop) (m : PagedMap p σ) : Prop where
  wf : m.WellFormed
  value : ∀ index value, m.get? index = some value → inner value

theorem holds_empty {inner : σ → Prop} : (empty : PagedMap p σ).Holds inner :=
  ⟨wellFormed_empty, fun index value stored => by simp at stored⟩

theorem Holds.insert {inner : σ → Prop} (holds : m.Holds inner) (index : UInt32) {value : σ}
    (valid : inner value) : (m.insert index value).Holds inner where
  wf := holds.wf.insert index value
  value other found stored := by
    rw [get?_insert holds.wf] at stored
    by_cases same : index = other
    · rw [if_pos same, Option.some.injEq] at stored
      exact stored ▸ valid
    · rw [if_neg same] at stored
      exact holds.value other found stored

theorem Holds.erase {inner : σ → Prop} (holds : m.Holds inner) (index : UInt32) :
    (m.erase index).Holds inner where
  wf := holds.wf.erase index
  value other found stored := by
    rw [get?_erase holds.wf, Option.ite_none_left_eq_some] at stored
    exact holds.value other found stored.2

theorem findSome?_filter (items : List ι) (good : ι → Bool) (f : ι → Option β) :
    (items.filter good).findSome? f =
      items.findSome? fun item => if good item then f item else none := by
  induction items with
  | nil => rfl
  | cons item rest ih =>
    rw [List.filter_cons, List.findSome?_cons]
    by_cases isGood : good item = true
    · rw [if_pos isGood, if_pos isGood, List.findSome?_cons, ih]
    · rw [if_neg isGood, if_neg isGood, ih]

theorem findSome?_congr {items : List ι} {f g : ι → Option β}
    (same : ∀ item ∈ items, f item = g item) : items.findSome? f = items.findSome? g := by
  induction items with
  | nil => rfl
  | cons item rest ih =>
    rw [List.findSome?_cons, List.findSome?_cons, same item List.mem_cons_self,
      ih fun other member => same other (List.mem_cons_of_mem _ member)]

theorem lt_asymm_index (a b : UInt32 × σ) (less : a.1 < b.1) : ¬ b.1 < a.1 :=
  UInt32.lt_asymm less

theorem filter_index_eq (wf : m.WellFormed) (index : UInt32) :
    (m.toList.filter fun entry => index == entry.1) = ((m.get? index).map (index, ·)).toList := by
  refine Sorted.eq_of_mem_iff lt_asymm_index ((pairwise_toList wf).filter _) ?_ fun entry => ?_
  · cases m.get? index <;> simp
  · obtain ⟨other, value⟩ := entry
    rw [List.mem_filter, mem_toList wf, Option.mem_toList]
    constructor
    · rintro ⟨stored, same⟩
      rw [beq_iff_eq] at same
      simp [same, stored]
    · intro listed
      obtain ⟨held, stored, same⟩ := Option.map_eq_some_iff.mp listed
      cases same
      exact ⟨stored, beq_self_eq_true _⟩

/-- A search along an axis is a search of the entries that the axis admits. -/
theorem findAlong?_eq (wf : m.WellFormed) (axis : Axis) (start : UInt64)
    (f : UInt32 → σ → Option β) :
    m.findAlong? axis start f = (m.toList.filter fun entry =>
      axis.admits entry.1 && decide (start ≤ entry.1.toUInt64)).findSome? fun entry =>
        f entry.1 entry.2 := by
  cases axis with
  | any =>
    rw [findAlong?, findFrom?_eq wf]
    simp
  | only index =>
    have nested : m.toList.filter (fun entry =>
          (Axis.only index).admits entry.1 && decide (start ≤ entry.1.toUInt64)) =
        (m.toList.filter fun entry => index == entry.1).filter fun entry =>
          decide (start ≤ entry.1.toUInt64) := by
      rw [List.filter_filter]
      simp only [Axis.admits, Bool.and_comm]
    rw [nested, filter_index_eq wf, findAlong?]
    cases m.get? index with
    | none => simp
    | some value => by_cases reached : start ≤ index.toUInt64 <;> simp [reached]

/-- The first entry that an axis admits, at or past a position. -/
def nextAlong? (m : PagedMap p σ) (axis : Axis) (start : UInt64) : Option (UInt32 × σ) :=
  m.findAlong? axis start fun index value => some (index, value)

theorem nextAlong?_eq (wf : m.WellFormed) (axis : Axis) (start : UInt64) :
    m.nextAlong? axis start = (m.toList.filter fun entry =>
      axis.admits entry.1 && decide (start ≤ entry.1.toUInt64)).head? := by
  rw [nextAlong?, findAlong?_eq wf]
  cases m.toList.filter fun entry => axis.admits entry.1 && decide (start ≤ entry.1.toUInt64) <;> rfl

theorem nextAlong?_eq_some (wf : m.WellFormed) {axis : Axis} {start : UInt64} {index : UInt32}
    {value : σ} (next : m.nextAlong? axis start = some (index, value)) :
    m.get? index = some value ∧ axis.admits index = true ∧ start ≤ index.toUInt64 := by
  rw [nextAlong?_eq wf] at next
  obtain ⟨listed, reached⟩ := List.mem_filter.mp (List.mem_of_head? next)
  rw [Bool.and_eq_true, decide_eq_true_iff] at reached
  exact ⟨(mem_toList wf).mp listed, reached⟩

@[simp] theorem nextAlong?_empty (axis : Axis) (start : UInt64) :
    (empty : PagedMap p σ).nextAlong? axis start = none := by
  rw [nextAlong?_eq wellFormed_empty]
  rfl

/-- A search along an axis asks the next entry, and then those behind it. -/
theorem findAlong?_step (wf : m.WellFormed) (axis : Axis) (start : UInt64)
    (f : UInt32 → σ → Option β) :
    m.findAlong? axis start f = (m.nextAlong? axis start).bind fun entry =>
      (f entry.1 entry.2).or (m.findAlong? axis (entry.1.toUInt64 + 1) f) := by
  rw [findAlong?_eq wf, nextAlong?_eq wf]
  cases first : (m.toList.filter fun entry =>
      axis.admits entry.1 && decide (start ≤ entry.1.toUInt64)).head? with
  | none =>
    rw [List.head?_eq_none_iff.mp first]
    rfl
  | some entry =>
    have behind : (m.toList.filter fun other =>
        axis.admits other.1 && decide (entry.1.toUInt64 + 1 ≤ other.1.toUInt64)) =
          (m.toList.filter fun other =>
            axis.admits other.1 && decide (start ≤ other.1.toUInt64)).tail := by
      refine Sorted.filter_eq_tail lt_asymm_index (pairwise_toList wf) first fun other => ?_
      have reached := (List.mem_filter.mp (List.mem_of_head? first)).2
      simp only [Bool.and_eq_true, decide_eq_true_eq, succ_le_iff] at reached ⊢
      constructor
      · rintro ⟨admitted, later⟩
        exact ⟨⟨admitted, position_le_of_lt reached.2 later⟩, later⟩
      · rintro ⟨⟨admitted, -⟩, later⟩
        exact ⟨admitted, later⟩
    obtain ⟨rest, split⟩ := List.head?_eq_some_iff.mp first
    rw [Option.bind_some, findAlong?_eq wf, behind, split, List.findSome?_cons, List.tail_cons]
    cases f entry.1 entry.2 <;> rfl

/-- The items of all entries, each behind the index of its entry. -/
def points (m : PagedMap p σ) (itemsOf : σ → List ι) : List (UInt32 × ι) :=
  m.toList.flatMap fun entry => (itemsOf entry.2).map (entry.1, ·)

variable {itemsOf : σ → List ι} {good : ι → Bool}

theorem mem_points (wf : m.WellFormed) {point : UInt32 × ι} :
    point ∈ m.points itemsOf ↔ ∃ value, m.get? point.1 = some value ∧ point.2 ∈ itemsOf value := by
  obtain ⟨index, item⟩ := point
  simp only [points, List.mem_flatMap, List.mem_map, Prod.mk.injEq]
  constructor
  · rintro ⟨⟨_, value⟩, listed, _, held, rfl, rfl⟩
    exact ⟨value, (mem_toList wf).mp listed, held⟩
  · rintro ⟨value, stored, held⟩
    exact ⟨(index, value), (mem_toList wf).mpr stored, item, held, rfl, rfl⟩

theorem sum_sizes (wf : m.WellFormed) {sizeOf : σ → Nat}
    (size : ∀ index value, m.get? index = some value → sizeOf value = (itemsOf value).length) :
    total (fun entry => sizeOf entry.2) m.toList = (m.points itemsOf).length := by
  refine (length_flatMap_eq_total fun entry listed => ?_).symm
  rw [List.length_map, size entry.1 entry.2 ((mem_toList wf).mp listed)]

/-- The points ascend, first by index and then as the items do. -/
theorem pairwise_points (wf : m.WellFormed) {lt : ι → ι → Prop}
    (ascends : ∀ index value, m.get? index = some value → (itemsOf value).Pairwise lt) :
    (m.points itemsOf).Pairwise (Prod.Lex (· < ·) lt) := by
  rw [points, List.pairwise_flatMap]
  constructor
  · rintro ⟨index, value⟩ listed
    rw [List.pairwise_map]
    exact (ascends index value ((mem_toList wf).mp listed)).imp fun less => Prod.Lex.right _ less
  · refine (pairwise_toList wf).imp fun less => ?_
    rintro _ first _ second
    obtain ⟨_, _, rfl⟩ := List.mem_map.mp first
    obtain ⟨_, _, rfl⟩ := List.mem_map.mp second
    exact Prod.Lex.left _ _ less

theorem lex_asymm {lt : ι → ι → Prop} (asymm : ∀ a b, lt a b → ¬ lt b a) (a b : UInt32 × ι)
    (less : Prod.Lex (· < ·) lt a b) : ¬ Prod.Lex (· < ·) lt b a := by
  intro more
  rcases Prod.lex_def.mp less with before | ⟨same, before⟩
  · rcases Prod.lex_def.mp more with after | ⟨same, _⟩
    · exact UInt32.lt_asymm before after
    · exact UInt32.lt_irrefl _ (same ▸ before)
  · rcases Prod.lex_def.mp more with after | ⟨_, after⟩
    · exact UInt32.lt_irrefl _ (same ▸ after)
    · exact asymm _ _ before after

/-- A search that asks each entry for its first good item finds the first good point. -/
theorem findAlong?_eq_head? (wf : m.WellFormed) {axis : Axis} {start : UInt64}
    {f : UInt32 → σ → Option β} {result : UInt32 × ι → β}
    (first : ∀ index value, m.get? index = some value →
      f index value = ((itemsOf value).filter good).head?.map fun item => result (index, item)) :
    m.findAlong? axis start f = (((m.points itemsOf).filter fun point => axis.admits point.1 &&
      decide (start ≤ point.1.toUInt64) && good point.2).head?).map result := by
  rw [findAlong?_eq wf, findSome?_filter, points, List.filter_flatMap, List.head?_flatMap,
    List.map_findSome?]
  refine findSome?_congr fun entry listed => ?_
  obtain ⟨index, value⟩ := entry
  have asked := first index value ((mem_toList wf).mp listed)
  rw [asked, Function.comp_apply, List.filter_map, List.head?_map, Option.map_map]
  by_cases reached : (axis.admits index && decide (start ≤ index.toUInt64)) = true
  · simp [reached, Function.comp_def]
  · have nothing : (itemsOf value).filter (fun _ => false) = [] :=
      List.filter_eq_nil_iff.mpr fun _ _ => Bool.false_ne_true
    rw [Bool.not_eq_true] at reached
    simp only [reached, Function.comp_def, Bool.false_and, nothing]
    rfl

/-- A search that stands within an entry asks it for its first item still to come, and then
goes on with the entries behind it. -/
theorem resume_eq_head? (wf : m.WellFormed) {lt : ι → ι → Prop}
    (asymm : ∀ a b, lt a b → ¬ lt b a)
    (ascends : ∀ index value, m.get? index = some value → (itemsOf value).Pairwise lt)
    {axis : Axis} {index : UInt32} (admitted : axis.admits index = true) (here good : ι → Bool)
    (f g : UInt32 → σ → Option β) (result : UInt32 × ι → β)
    (within : ∀ index value, m.get? index = some value →
      f index value = ((itemsOf value).filter here).head?.map fun item => result (index, item))
    (behind : ∀ index value, m.get? index = some value →
      g index value = ((itemsOf value).filter good).head?.map fun item => result (index, item)) :
    ((m.get? index).bind (f index)).or (m.findAlong? axis (index.toUInt64 + 1) g) =
      (((m.points itemsOf).filter fun point => axis.admits point.1 &&
        (index == point.1 && here point.2 ||
          decide (index.toUInt64 + 1 ≤ point.1.toUInt64) && good point.2)).head?).map result := by
  have alone : (m.get? index).bind (f index) = m.findAlong? (.only index) 0 f := by
    simp [findAlong?]
  have split : (m.points itemsOf).filter (fun point => axis.admits point.1 &&
        (index == point.1 && here point.2 ||
          decide (index.toUInt64 + 1 ≤ point.1.toUInt64) && good point.2)) =
      ((m.points itemsOf).filter fun point =>
        (Axis.only index).admits point.1 && decide (0 ≤ point.1.toUInt64) && here point.2) ++
      ((m.points itemsOf).filter fun point => axis.admits point.1 &&
        decide (index.toUInt64 + 1 ≤ point.1.toUInt64) && good point.2) := by
    rw [← Sorted.filter_or_eq_append (lex_asymm asymm) (pairwise_points wf ascends)]
    · apply List.filter_congr
      intro point _
      by_cases same : index = point.1
      · simp [← same, admitted]
      · simp [beq_eq_false_iff_ne.mpr same, Bool.and_assoc]
    · intro a b isHere isBehind
      simp only [Bool.and_eq_true, Axis.admits_only, beq_iff_eq, decide_eq_true_eq]
        at isHere isBehind
      refine Prod.lex_def.mpr (Or.inl ?_)
      rw [← isHere.1.1]
      exact (succ_le_iff index b.1).mp isBehind.1.2
  rw [alone, findAlong?_eq_head? wf within, findAlong?_eq_head? wf behind, split,
    List.head?_append, Option.map_or]

end PagedMap

end TripleCube
