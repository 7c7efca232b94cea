/-! Sums of what is counted of each item of a list. -/
namespace TripleCube

variable {α β : Type}

def total (count : α → Nat) : List α → Nat
  | [] => 0
  | item :: rest => count item + total count rest

@[simp] theorem total_nil (count : α → Nat) : total count [] = 0 := rfl

@[simp] theorem total_cons (count : α → Nat) (item : α) (rest : List α) :
    total count (item :: rest) = count item + total count rest := rfl

theorem length_flatMap_eq_total {items : List α} {parts : α → List β} {count : α → Nat}
    (counts : ∀ item ∈ items, (parts item).length = count item) :
    (items.flatMap parts).length = total count items := by
  induction items with
  | nil => rfl
  | cons item rest ih =>
    rw [List.forall_mem_cons] at counts
    rw [List.flatMap_cons, List.length_append, total_cons, counts.1, ih counts.2]

end TripleCube
