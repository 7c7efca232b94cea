/-! Lists that ascend strictly. Such a list is determined by its members, so a list that is
built in pieces is found by comparing members. -/
namespace TripleCube.Sorted

variable {α : Type} {lt : α → α → Prop}

theorem nodup {items : List α} (asymm : ∀ a b, lt a b → ¬ lt b a) (ascends : items.Pairwise lt) :
    items.Nodup := by
  refine ascends.imp ?_
  rintro a _ less rfl
  exact asymm a a less less

theorem eq_of_mem_iff {left right : List α} (asymm : ∀ a b, lt a b → ¬ lt b a)
    (leftAscends : left.Pairwise lt) (rightAscends : right.Pairwise lt)
    (same : ∀ item, item ∈ left ↔ item ∈ right) : left = right := by
  have perm : left.Perm right := (List.perm_ext_iff_of_nodup (nodup asymm leftAscends)
    (nodup asymm rightAscends)).mpr same
  exact perm.eq_of_pairwise (fun a b _ _ less more => absurd more (asymm a b less))
    leftAscends rightAscends

/-- Of a selection, what comes behind its first item is the rest of it. -/
theorem filter_eq_tail {items : List α} {ahead behind : α → Bool} {first : α}
    (asymm : ∀ a b, lt a b → ¬ lt b a) (ascends : items.Pairwise lt)
    (head : (items.filter ahead).head? = some first)
    (greater : ∀ item, behind item = true ↔ ahead item = true ∧ lt first item) :
    items.filter behind = (items.filter ahead).tail := by
  obtain ⟨rest, split⟩ := List.head?_eq_some_iff.mp head
  have selected := ascends.filter ahead
  rw [split] at selected
  obtain ⟨least, restAscends⟩ := List.pairwise_cons.mp selected
  rw [split, List.tail_cons]
  apply eq_of_mem_iff asymm (ascends.filter behind) restAscends
  intro item
  have members : item ∈ items ∧ ahead item = true ↔ item = first ∨ item ∈ rest := by
    rw [← List.mem_filter, split, List.mem_cons]
  rw [List.mem_filter, greater, ← and_assoc, members]
  constructor
  · rintro ⟨rfl | member, less⟩
    · exact absurd less (asymm item item less)
    · exact member
  · intro member
    exact ⟨Or.inr member, least item member⟩

/-- A selection in two parts, one wholly before the other. -/
theorem filter_or_eq_append {items : List α} {before after : α → Bool}
    (asymm : ∀ a b, lt a b → ¬ lt b a) (ascends : items.Pairwise lt)
    (apart : ∀ a b, before a = true → after b = true → lt a b) :
    items.filter (fun item => before item || after item) =
      items.filter before ++ items.filter after := by
  refine eq_of_mem_iff asymm (ascends.filter _) ?_ fun item => ?_
  · refine List.pairwise_append.mpr ⟨ascends.filter _, ascends.filter _, fun a ma b mb => ?_⟩
    exact apart a b (List.mem_filter.mp ma).2 (List.mem_filter.mp mb).2
  · simp only [List.mem_filter, List.mem_append, Bool.or_eq_true]
    constructor
    · rintro ⟨member, isBefore | isAfter⟩
      · exact Or.inl ⟨member, isBefore⟩
      · exact Or.inr ⟨member, isAfter⟩
    · rintro (⟨member, isBefore⟩ | ⟨member, isAfter⟩)
      · exact ⟨member, Or.inl isBefore⟩
      · exact ⟨member, Or.inr isAfter⟩

end TripleCube.Sorted
