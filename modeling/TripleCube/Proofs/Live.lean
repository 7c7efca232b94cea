import Mathlib.Data.List.Infix
import TripleCube.Error
import TripleCube.Live
import TripleCube.Proofs.Calls

/-! Histories of a container with the cursors open over it. Writes, openings and steps of any
number of cursors come in any order. To one cursor each call is one of three things: a step of
its own, a write that settles it, or something that leaves it and the container alone. -/
namespace TripleCube

/-- A container that can be written to and searched. -/
class Searchable (σ κ : Type) (ω π : outParam Type) where
  write : σ → ω → Except Error (Bool × σ)
  search : σ → π → Except Error κ

namespace Live

/-- The calls on a container and its cursors, which have numbers. -/
inductive Call (ω π : Type)
  | write (write : ω)
  | openCursor (number : Int) (pattern : π)
  | next (number : Int)
  deriving DecidableEq

inductive Answer (ι : Type)
  | written (outcome : Except Error Bool)
  | opened (outcome : Except Error Unit)
  | item (item : Option (Option ι))

variable {σ κ ι ω π : Type} [Traversal σ κ ι] [Searchable σ κ ω π]

/-- Answers a call. One that fails changes nothing. -/
def step (live : Live σ κ) : Call ω π → Answer ι × Live σ κ
  | .write write =>
    match Searchable.write (κ := κ) live.subject write with
    | .ok (changed, subject) => (.written (.ok changed), live.write subject)
    | .error e => (.written (.error e), live)
  | .openCursor number pattern =>
    match Searchable.search live.subject pattern with
    | .ok cursor => (.opened (.ok ()), live.openCursor number cursor)
    | .error e => (.opened (.error e), live)
  | .next number => (.item (live.next number).1, (live.next number).2)

/-- What a history of calls leaves. -/
def after (calls : List (Call ω π)) (live : Live σ κ) : Live σ κ := (Calls.run step calls live).2

/-- What a call answers to the cursor of a number. -/
def own (number : Int) : Call ω π → Answer ι → Option (Option ι)
  | .next other, .item item => if other = number then item else none
  | _, _ => none

/-- What the cursor of a number answered to its steps in a history of calls. -/
def returned (number : Int) (calls : List (Call ω π)) (live : Live σ κ) : List (Option ι) :=
  (calls.zip (Calls.run step calls live).1).filterMap fun exchange => own number exchange.1 exchange.2

section Histories

variable (number : Int) (call : Call ω π) (calls later : List (Call ω π)) (live : Live σ κ)

@[simp] theorem after_nil : after ([] : List (Call ω π)) live = live := rfl

@[simp] theorem after_cons : after (call :: calls) live = after calls (live.step call).2 := rfl

theorem after_append : after (calls ++ later) live = after later (after calls live) := by
  rw [after, Calls.run_append]
  rfl

@[simp] theorem returned_nil : returned number ([] : List (Call ω π)) live = [] := rfl

theorem returned_cons : returned number (call :: calls) live =
    (own number call (live.step call).1).toList ++ returned number calls (live.step call).2 := by
  rw [returned, Calls.run, List.zip_cons_cons, List.filterMap_cons]
  cases own number call (live.step call).1 <;> rfl

theorem returned_append : returned number (calls ++ later) live =
    returned number calls live ++ returned number later (after calls live) := by
  rw [returned, Calls.run_append, List.zip_append (Calls.length_run_fst step calls live).symm,
    List.filterMap_append]
  rfl

theorem returned_concat : returned number (calls ++ [call]) live =
    returned number calls live ++ (own number call ((after calls live).step call).1).toList := by
  rw [returned_append, returned_cons, returned_nil, List.append_nil]

theorem step_openCursor {live : Live σ κ} {pattern : π} {cursor : κ}
    (opens : Searchable.search live.subject pattern = .ok cursor) :
    live.step (.openCursor number pattern) = (.opened (.ok ()), live.openCursor number cursor) := by
  rw [step, opens]

end Histories

/-- What a call comes to for a cursor that it does not open. -/
inductive Moves (number : Int) (before now : Live σ κ) (cursor : κ) :
    Call ω π → Option (Option ι) → κ → Prop
  | rests {call : Call ω π} (other : call ≠ .next number) (same : now.subject = before.subject) :
    Moves number before now cursor call none cursor
  | settles {write : ω} (changed : Bool)
    (written : Searchable.write (κ := κ) before.subject write = .ok (changed, now.subject)) :
    Moves number before now cursor (.write write) none (Traversal.settle now.subject cursor)
  | steps (same : now.subject = before.subject) :
    Moves number before now cursor (.next number) (some (Traversal.next before.subject cursor).1)
      (Traversal.next before.subject cursor).2.2

/-- Over containers that reading leaves unchanged, every call does one of these. -/
theorem moves (unchanged : ∀ (subject : σ) (cursor : κ),
      (Traversal.next subject cursor).2.1 = subject) {live : Live σ κ} {number : Int} {cursor : κ}
    (standing : live.cursors.find? number = some cursor) {call : Call ω π}
    (kept : ∀ pattern, call ≠ .openCursor number pattern) :
    ∃ answer moved, own number call (live.step call).1 = answer ∧
      (live.step call).2.cursors.find? number = some moved ∧
      Moves number live (live.step call).2 cursor call answer moved := by
  cases call with
  | write write =>
    rw [step]
    split
    · next changed subject outcome =>
      refine ⟨none, Traversal.settle subject cursor, rfl, ?_, .settles changed outcome⟩
      simp [Live.write, standing]
    · exact ⟨none, cursor, rfl, standing, .rests (by simp) rfl⟩
  | openCursor other pattern =>
    have different : other ≠ number := fun same => kept pattern (same ▸ rfl)
    rw [step]
    split
    · next opened _ =>
      refine ⟨none, cursor, rfl, ?_, .rests (by simp) rfl⟩
      rw [Live.openCursor, Assoc.find?_insert, if_neg different, standing]
    · exact ⟨none, cursor, rfl, standing, .rests (by simp) rfl⟩
  | next other =>
    rw [step, own]
    by_cases same : other = number
    · subst same
      rw [if_pos rfl, Live.next, standing]
      exact ⟨_, _, rfl, by simp, .steps (unchanged _ _)⟩
    · rw [if_neg same]
      have elsewhere : Call.next (ω := ω) (π := π) other ≠ .next number := by simpa using same
      rw [Live.next]
      cases live.cursors.find? other with
      | none => exact ⟨none, cursor, rfl, standing, .rests elsewhere rfl⟩
      | some reader =>
        refine ⟨none, cursor, rfl, ?_, .rests elsewhere (unchanged _ _)⟩
        simp [same, standing]

/-- What writes preserve of a container that reading leaves unchanged, calls preserve. -/
theorem subject_after (unchanged : ∀ (subject : σ) (cursor : κ),
      (Traversal.next subject cursor).2.1 = subject) (Holds : σ → Prop)
    (writes : ∀ (subject written : σ) (write : ω) (changed : Bool), Holds subject →
      Searchable.write (κ := κ) subject write = .ok (changed, written) → Holds written)
    (calls : List (Call ω π)) {live : Live σ κ} (holds : Holds live.subject) :
    Holds (after calls live).subject := by
  refine Calls.run_preserves (fun live : Live σ κ => Holds live.subject) ?_ calls holds
  intro live call holds
  cases call with
  | write write =>
    rw [step]
    split
    · next changed subject written => exact writes _ _ _ changed holds written
    · exact holds
  | openCursor number pattern =>
    rw [step]
    split <;> exact holds
  | next number =>
    rw [step, Live.next]
    cases live.cursors.find? number with
    | none => exact holds
    | some reader =>
      change Holds (Traversal.next live.subject reader).2.1
      rw [unchanged]
      exact holds

/-- What a cursor promises of its next answer, after any calls since it was opened. -/
structure Consistent [DecidableEq ι] (holds : σ → ι → Prop) (wants : ι → Prop)
    (before : ι → ι → Prop) (number : Int) (opened : Live σ κ) (during : List (Call ω π))
    (answer : Option ι) : Prop where
  answers : ((after during opened).step (.next number)).1 = .item (some answer)
  /-- An item is wanted, is there when it is returned, and comes after those before it. -/
  item : ∀ item, answer = some item → wants item ∧ holds (after during opened).subject item ∧
    ∀ earlier, some earlier ∈ returned number during opened → before earlier item
  /-- Whatever is written later, the end is the end. -/
  ended : none ∈ returned number during opened → answer = none
  /-- At the end, all wanted items that were there all the time have come, each once. -/
  complete : answer = none → ∀ item, wants item →
    (∀ early, early <+: during → holds (after early opened).subject item) →
    (returned number during opened).count (some item) = 1

/-- Of the items that are wanted only those matter that are there. -/
theorem Consistent.congr [DecidableEq ι] {holds : σ → ι → Prop} {wants wants' : ι → Prop}
    {before : ι → ι → Prop} {number : Int} {opened : Live σ κ} {during : List (Call ω π)}
    {answer : Option ι} (consistent : Consistent holds wants before number opened during answer)
    (implied : ∀ item, wants item → wants' item)
    (there : ∀ item, holds opened.subject item → wants' item → wants item) :
    Consistent holds wants' before number opened during answer where
  answers := consistent.answers
  item item answer :=
    ⟨implied item (consistent.item item answer).1, (consistent.item item answer).2⟩
  ended := consistent.ended
  complete atEnd item wanted stays :=
    consistent.complete atEnd item (there item (stays [] List.nil_prefix) wanted) stays

section Parted

variable (apart : σ → ι → ι → Prop) (number : Int) (opened : Live σ κ) (during : List (Call ω π))

/-- Since the last step of a cursor there was a moment at which two items were apart. -/
def Parted (l v : ι) : Prop :=
  ∃ early late, during = early ++ late ∧ .next number ∉ late ∧ apart (after early opened).subject l v

/-- A cursor has lost an item when that has been parted from the item that it returned last. -/
def Lost (v : ι) : Prop :=
  ∃ l, (returned number during opened).getLast? = some (some l) ∧
    Parted apart number opened during l v

variable {apart number opened during}

theorem parted_concat {call : Call ω π} {l v : ι} :
    Parted apart number opened (during ++ [call]) l v ↔
      apart (after (during ++ [call]) opened).subject l v ∨
        call ≠ .next number ∧ Parted apart number opened during l v := by
  constructor
  · rintro ⟨early, late, split, unstepped, there⟩
    rcases List.eq_nil_or_concat' late with rfl | ⟨late, other, rfl⟩
    · rw [List.append_nil] at split
      exact Or.inl (split ▸ there)
    · rw [← List.append_assoc] at split
      obtain ⟨rfl, same⟩ := List.append_inj' split rfl
      cases same
      rw [List.mem_append, List.mem_singleton, not_or] at unstepped
      exact Or.inr ⟨fun same => unstepped.2 same.symm, early, late, rfl, unstepped.1, there⟩
  · rintro (there | ⟨other, early, late, rfl, unstepped, there⟩)
    · exact ⟨during ++ [call], [], by simp, by simp, there⟩
    · refine ⟨early, late ++ [call], by simp, ?_, there⟩
      rw [List.mem_append, List.mem_singleton]
      rintro (member | same)
      · exact unstepped member
      · exact other same.symm

end Parted

/-- At some moment an item comes after those that a cursor has returned, and from then on it is
there until the cursor returns the end. -/
structure Due (holds : σ → ι → Prop) (before : ι → ι → Prop) (number : Int) (opened : Live σ κ)
    (during later : List (Call ω π)) (item : ι) : Prop where
  unfinished : none ∉ returned number during opened
  ends : ((after later (after during opened)).step (.next number)).1 = .item (some none)
  behind : ∀ last, (returned number during opened).getLast? = some (some last) → before last item
  stays : ∀ early, early <+: later → holds (after early (after during opened)).subject item

/-- What is due to a cursor that has returned one item. -/
theorem due_of_returned {holds : σ → ι → Prop} {before : ι → ι → Prop} {number : Int}
    {opened : Live σ κ} {during later : List (Call ω π)} {item : ι} (last : ι)
    (returns : returned number during opened = [some last])
    (ends : ((after later (after during opened)).step (.next number)).1 = .item (some none))
    (behind : before last item)
    (stays : ∀ early ∈ later.inits, holds (after early (after during opened)).subject item) :
    Due holds before number opened during later item where
  unfinished := by simp [returns]
  ends := ends
  behind := by simp [returns, behind]
  stays early starts := stays early ((List.mem_inits _ _).mpr starts)

end Live

end TripleCube
