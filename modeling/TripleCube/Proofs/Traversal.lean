import TripleCube.Live

/-! Cursors over a container that nobody else writes to. Such a cursor stands for the list of
what it has still to yield: each step answers with the head of that list and leaves its
tail. -/
namespace TripleCube.Traversal

variable {σ κ ι : Type} [Traversal σ κ ι]

/-- What successive steps answer. -/
def answers : (count : Nat) → σ → κ → List (Option ι)
  | 0, _, _ => []
  | count + 1, subject, cursor =>
    let step := next subject cursor
    step.1 :: answers count step.2.1 step.2.2

/-- A cursor yields the items of a list, in order, and from then on answers that it has
reached the end. -/
def Yields (subject : σ) (cursor : κ) (items : List ι) : Prop :=
  ∀ count, answers count subject cursor = (List.range count).map fun step => items[step]?

/-- Where containers and cursors stand before lists such that every step answers with the head
and leaves them before the tail. -/
structure Follows (Stands : σ → κ → List ι → Prop) : Prop where
  answer : ∀ {subject cursor items}, Stands subject cursor items →
    (next subject cursor).1 = items.head?
  tail : ∀ {subject cursor items}, Stands subject cursor items →
    Stands (next subject cursor).2.1 (next subject cursor).2.2 items.tail

section Follows

variable {Stands : σ → κ → List ι → Prop} {subject : σ} {cursor : κ} {items : List ι}

theorem Follows.yields (follows : Follows Stands) (stands : Stands subject cursor items) :
    Yields subject cursor items := by
  intro count
  induction count generalizing subject cursor items with
  | zero => rfl
  | succ count ih =>
    rw [answers, follows.answer stands, ih (follows.tail stands), List.range_succ_eq_map,
      List.map_cons, List.map_map, List.head?_eq_getElem?]
    simp [Function.comp_def]

theorem Follows.drain_fst (follows : Follows Stands) (stands : Stands subject cursor items)
    (limit : Nat) : (drain limit subject cursor).1 = items.take limit := by
  induction limit generalizing subject cursor items with
  | zero => rfl
  | succ limit ih =>
    have answer := follows.answer stands
    have later := ih (follows.tail stands)
    rw [drain]
    revert answer later
    obtain ⟨item, behind, rest⟩ := next subject cursor
    intro answer later
    cases items with
    | nil =>
      cases answer
      rfl
    | cons first others =>
      cases answer
      exact congrArg (first :: ·) later

end Follows

/-- Every step answers with the head of what remains and leaves the tail. -/
structure Lists (subject : σ) (remaining : κ → List ι) (Valid : κ → Prop) : Prop where
  answer : ∀ cursor, Valid cursor → (next subject cursor).1 = (remaining cursor).head?
  unchanged : ∀ cursor : κ, (next subject cursor).2.1 = subject
  tail : ∀ cursor, Valid cursor →
    remaining (next subject cursor).2.2 = (remaining cursor).tail
  valid : ∀ cursor, Valid cursor → Valid (next subject cursor).2.2

variable {subject : σ} {remaining : κ → List ι} {Valid : κ → Prop}

/-- A container that no step changes stands before what remains. -/
theorem Lists.follows (lists : Lists subject remaining Valid) :
    Follows fun s cursor items => s = subject ∧ Valid cursor ∧ remaining cursor = items where
  answer := by
    rintro _ cursor _ ⟨rfl, valid, rfl⟩
    exact lists.answer cursor valid
  tail := by
    rintro _ cursor _ ⟨rfl, valid, rfl⟩
    exact ⟨lists.unchanged cursor, lists.valid cursor valid, lists.tail cursor valid⟩

theorem Lists.yields (lists : Lists subject remaining Valid) {cursor : κ} (valid : Valid cursor) :
    Yields subject cursor (remaining cursor) :=
  lists.follows.yields ⟨rfl, valid, rfl⟩

theorem Lists.drain_fst (lists : Lists subject remaining Valid) {cursor : κ}
    (valid : Valid cursor) (limit : Nat) :
    (drain limit subject cursor).1 = (remaining cursor).take limit :=
  lists.follows.drain_fst ⟨rfl, valid, rfl⟩ limit

/-- Containers and cursors whose steps yield the same are drained of the same. -/
theorem drain_simulates {τ ν : Type} [Traversal τ ν ι] (Related : σ → τ → Prop)
    (Matched : κ → ν → Prop)
    (steps : ∀ {s t c d}, Related s t → Matched c d → (next s c).1 = (next t d).1 ∧
      Related (next s c).2.1 (next t d).2.1 ∧ Matched (next s c).2.2 (next t d).2.2)
    (limit : Nat) {s : σ} {t : τ} {c : κ} {d : ν} (related : Related s t) (matched : Matched c d) :
    (drain limit s c).1 = (drain limit t d).1 ∧
      Related (drain limit s c).2.1 (drain limit t d).2.1 := by
  induction limit generalizing s t c d with
  | zero => exact ⟨rfl, related⟩
  | succ limit ih =>
    have stepped := steps related matched
    rw [drain, drain]
    revert stepped
    obtain ⟨item, s', c'⟩ := next s c
    obtain ⟨otherItem, t', d'⟩ := next t d
    rintro ⟨rfl, related, matched⟩
    cases item with
    | none => exact ⟨rfl, related⟩
    | some item =>
      obtain ⟨others, final⟩ := ih related matched
      exact ⟨congrArg (item :: ·) others, final⟩

/-- What every step preserves of the container, draining preserves. -/
theorem drain_preserves (Holds : σ → Prop)
    (preserves : ∀ (subject : σ) (cursor : κ), Holds subject → Holds (next subject cursor).2.1)
    (limit : Nat) {subject : σ} (cursor : κ) (holds : Holds subject) :
    Holds (drain limit subject cursor).2.1 := by
  induction limit generalizing subject cursor with
  | zero => exact holds
  | succ limit ih =>
    have still := preserves subject cursor holds
    rw [drain]
    revert still
    obtain ⟨item, behind, rest⟩ := next subject cursor
    intro still
    cases item with
    | none => exact still
    | some item => exact ih rest still

end TripleCube.Traversal
