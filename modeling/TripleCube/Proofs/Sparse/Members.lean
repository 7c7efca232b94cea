import Mathlib.Data.Finset.Card
import Mathlib.Order.Bounds.Defs
import TripleCube.Proofs.Sparse.PageTable

/-! Sparse containers and the finite set of indices that they hold. A list that has each member
once counts the set, the first of an ascending list past some position is the least of the set
there, and a table without empty pages has a page for each quotient of a member. -/
namespace TripleCube

theorem card_eq_length {α : Type} [DecidableEq α] {items : List α} {members : Finset α}
    (distinct : items.Nodup) (same : ∀ item, item ∈ items ↔ item ∈ members) :
    items.length = members.card := by
  rw [← List.toFinset_card_of_nodup distinct]
  refine congrArg Finset.card (Finset.ext fun item => ?_)
  rw [List.mem_toFinset, same]

/-- What a scan from a position answers: the least member there, if there is one. -/
def IsNext (members : Finset UInt32) (start : UInt64) : Option UInt32 → Prop
  | some index => IsLeast {member | member ∈ members ∧ start ≤ member.toUInt64} index
  | none => ∀ member ∈ members, member.toUInt64 < start

theorem isNext_head? {items : List UInt32} {members : Finset UInt32}
    (ascends : items.Pairwise (· < ·)) (same : ∀ index, index ∈ items ↔ index ∈ members)
    (start : UInt64) : IsNext members start (items.filter (start ≤ ·.toUInt64)).head? := by
  have ahead : ∀ index, index ∈ items.filter (start ≤ ·.toUInt64) ↔
      index ∈ members ∧ start ≤ index.toUInt64 := by simp [same]
  have ascending := ascends.filter (start ≤ ·.toUInt64)
  cases found : items.filter (start ≤ ·.toUInt64) with
  | nil =>
    intro member isMember
    rw [← UInt64.not_le]
    intro reached
    simpa [found] using (ahead member).mpr ⟨isMember, reached⟩
  | cons first rest =>
    rw [found] at ahead ascending
    refine ⟨(ahead first).mp List.mem_cons_self, fun member isAhead => ?_⟩
    rcases List.mem_cons.mp ((ahead member).mpr isAhead) with rfl | later
    · exact UInt32.le_refl _
    · exact UInt32.le_of_lt ((List.pairwise_cons.mp ascending).1 member later)

/-- A table has as many pages as its members have quotients by the page size. -/
theorem PageTable.length_eq_card {Page : Type} {pages : PageTable Page} {p : PageSize}
    {members : Finset UInt32} (ascending : pages.Ascending)
    (inhabited : ∀ entry ∈ pages, ∃ index ∈ members, p.offset index = entry.1)
    (covered : ∀ index ∈ members, ∃ entry ∈ pages, entry.1 = p.offset index) :
    pages.length = (members.image (· / p.val)).card := by
  have distinct : (pages.map Prod.fst).Nodup :=
    List.pairwise_map.mpr (ascending.imp UInt32.ne_of_lt)
  rw [← card_eq_length distinct, List.length_map]
  intro offset
  rw [List.mem_map, Finset.mem_image]
  constructor
  · rintro ⟨entry, listed, rfl⟩
    exact inhabited entry listed
  · rintro ⟨index, member, rfl⟩
    exact covered index member

end TripleCube
