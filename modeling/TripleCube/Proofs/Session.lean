import Mathlib.Data.List.Forall2
import TripleCube.Error
import TripleCube.Live
import TripleCube.Proofs.Calls

/-! Sessions: a container is called, and cursors are opened over it and advanced, in any order.
Two containers that one step does not tell apart, and that go on so after it, are not told apart
by a session. -/
namespace TripleCube

/-- A container that answers calls, and over which cursors are opened with a pattern. -/
class Interactive (σ κ : Type) (χ ω π : outParam Type) where
  call : σ → χ → ω × σ
  start : σ → π → Except Error κ

namespace Session

/-- The steps of a session. Cursors have numbers. -/
inductive Step (χ π : Type)
  | call (call : χ)
  | openCursor (number : Int) (pattern : π)
  | next (number : Int)

inductive Reply (ω ι : Type)
  | answer (answer : ω)
  | opened (outcome : Except Error Unit)
  | item (item : Option (Option ι))

section Replies

variable {σ κ ι χ ω π : Type} [Traversal σ κ ι] [Interactive σ κ χ ω π]

/-- Replies to a step. After a call the cursors leave what the call has dropped; a call that
changes nothing drops nothing. -/
def step (live : Live σ κ) : Step χ π → Reply ω ι × Live σ κ
  | .call call =>
    let outcome := Interactive.call κ live.subject call
    (.answer outcome.1, live.write outcome.2)
  | .openCursor number pattern =>
    match Interactive.start live.subject pattern with
    | .ok cursor => (.opened (.ok ()), live.openCursor number cursor)
    | .error e => (.opened (.error e), live)
  | .next number => (.item (live.next number).1, (live.next number).2)

variable (κ) in
/-- The replies to a session over a container with no cursor open. -/
def replies (session : List (Step χ π)) (subject : σ) : List (Reply ω ι) :=
  (Calls.run step session (Live.of subject : Live σ κ)).1

/-- What a session leaves. -/
def after (session : List (Step χ π)) (live : Live σ κ) : Live σ κ :=
  (Calls.run step session live).2

/-- The steps of the cursor of a number, each with the container that it reads. -/
def reads (number : Int) : List (Step χ π) → Live σ κ → List (σ × Option (Option ι))
  | [], _ => []
  | action :: rest, live =>
    let later := reads number rest (step live action).2
    match action with
    | .next other => if other = number then (live.subject, (live.next number).1) :: later else later
    | _ => later

theorem step_openCursor {live : Live σ κ} {pattern : π} {cursor : κ}
    (started : Interactive.start live.subject pattern = .ok cursor) (number : Int) :
    step live (.openCursor number pattern) =
      (.opened (.ok ()), live.openCursor number cursor) := by
  rw [step, started]

/-- What each step of a session preserves, the session preserves. -/
theorem after_preserves (Holds : Live σ κ → Prop) {session : List (Step χ π)}
    (preserves : ∀ action ∈ session, ∀ live, Holds live → Holds (step live action).2)
    {live : Live σ κ} (holds : Holds live) : Holds (after session live) := by
  induction session generalizing live with
  | nil => exact holds
  | cons action rest ih =>
    rw [List.forall_mem_cons] at preserves
    exact ih preserves.2 (preserves.1 live holds)

end Replies

section Reads

variable {σ τ κ ν ι χ ω π : Type} [Traversal σ κ ι] [Traversal τ ν ι] [Interactive σ κ χ ω π]
  [Interactive τ ν χ ω π]

/-- Where the same steps keep two sessions linked, cursors of one number read in step: whatever
holds of a read in linked sessions holds of all their reads in turn. -/
theorem forall₂_reads {Linked : Live σ κ → Live τ ν → Prop} (number : Int)
    {Reads : σ × Option (Option ι) → τ × Option (Option ι) → Prop} {session : List (Step χ π)}
    (kept : ∀ action ∈ session, ∀ live other, Linked live other →
      Linked (step live action).2 (step other action).2)
    (read : ∀ live other, Linked live other →
      Reads (live.subject, (live.next number).1) (other.subject, (other.next number).1))
    {live : Live σ κ} {other : Live τ ν} (linked : Linked live other) :
    List.Forall₂ Reads (reads number session live) (reads number session other) := by
  induction session generalizing live other with
  | nil => exact .nil
  | cons action rest ih =>
    rw [List.forall_mem_cons] at kept
    have later := ih kept.2 (kept.1 live other linked)
    cases action with
    | next cursor =>
      simp only [reads]
      split
      · exact .cons (read live other linked) later
      · exact later
    | _ => exact later

end Reads

section Bisimulation

variable {σ τ κ ν ι χ ω π : Type}

/-- The same error, or cursors that go on alike. -/
inductive Opens (Matched : κ → ν → Prop) : Except Error κ → Except Error ν → Prop
  | error (e : Error) : Opens Matched (.error e) (.error e)
  | ok {cursor : κ} {other : ν} (matched : Matched cursor other) :
    Opens Matched (.ok cursor) (.ok other)

variable [Traversal σ κ ι] [Traversal τ ν ι] [Interactive σ κ χ ω π] [Interactive τ ν χ ω π]

/-- Related containers answer alike, whatever the call, and matched cursors over them yield the
same item. Both stay so. -/
structure Bisimulation (Related : σ → τ → Prop) (Matched : κ → ν → Prop) : Prop where
  call : ∀ {s t}, Related s t → ∀ call,
    (Interactive.call κ s call).1 = (Interactive.call ν t call).1 ∧
      Related (Interactive.call κ s call).2 (Interactive.call ν t call).2
  start : ∀ {s t}, Related s t → ∀ pattern,
    Opens Matched (Interactive.start s pattern) (Interactive.start t pattern)
  next : ∀ {s t c d}, Related s t → Matched c d →
    (Traversal.next s c).1 = (Traversal.next t d).1 ∧
      Related (Traversal.next s c).2.1 (Traversal.next t d).2.1 ∧
        Matched (Traversal.next s c).2.2 (Traversal.next t d).2.2
  settle : ∀ {s t c d}, Related s t → Matched c d →
    Matched (Traversal.settle s c) (Traversal.settle t d)

/-- The containers are related, and the same numbers stand for matched cursors. -/
structure Paired (Related : σ → τ → Prop) (Matched : κ → ν → Prop) (live : Live σ κ)
    (other : Live τ ν) : Prop where
  subject : Related live.subject other.subject
  cursors : ∀ number,
    Option.Rel Matched (live.cursors.find? number) (other.cursors.find? number)

variable {Related : σ → τ → Prop} {Matched : κ → ν → Prop} {live : Live σ κ} {other : Live τ ν}

theorem paired_of {s : σ} {t : τ} (related : Related s t) :
    Paired Related Matched (Live.of s) (Live.of t) :=
  ⟨related, fun _ => .none⟩

theorem Paired.openCursor (paired : Paired Related Matched live other) (number : Int) {c : κ}
    {d : ν} (matched : Matched c d) :
    Paired Related Matched (live.openCursor number c) (other.openCursor number d) where
  subject := paired.subject
  cursors key := by
    rw [Live.openCursor, Live.openCursor, Assoc.find?_insert, Assoc.find?_insert]
    split
    · exact .some matched
    · exact paired.cursors key

/-- Cursors are open under the same numbers. -/
theorem Paired.standing (paired : Paired Related Matched live other) (number : Int) :
    (live.cursors.find? number = none ∧ other.cursors.find? number = none) ∨
      ∃ c d, live.cursors.find? number = some c ∧ other.cursors.find? number = some d ∧
        Matched c d := by
  have cursors := paired.cursors number
  revert cursors
  cases live.cursors.find? number <;> cases other.cursors.find? number <;> intro cursors
  case none.none => exact Or.inl ⟨rfl, rfl⟩
  case none.some => cases cursors
  case some.none => cases cursors
  case some.some c d =>
    cases cursors with
    | some matched => exact Or.inr ⟨c, d, rfl, rfl, matched⟩

theorem Paired.exists_matched (paired : Paired Related Matched live other) {number : Int} {c : κ}
    (standing : live.cursors.find? number = some c) : ∃ d, Matched c d := by
  obtain ⟨none, -⟩ | ⟨c', d, found, -, matched⟩ := paired.standing number
  · exact absurd (none.symm.trans standing) (Option.some_ne_none c).symm
  · obtain rfl : c' = c := Option.some.inj (found.symm.trans standing)
    exact ⟨d, matched⟩

/-- After a write the cursors are matched as their settling leaves them. -/
theorem Paired.write (paired : Paired Related Matched live other) {s : σ} {t : τ}
    (related : Related s t) {Settled : κ → ν → Prop}
    (settles : ∀ {c d}, Matched c d → Settled (Traversal.settle s c) (Traversal.settle t d)) :
    Paired Related Settled (live.write s) (other.write t) where
  subject := related
  cursors number := by
    rw [Live.write, Live.write, Assoc.find?_mapValues, Assoc.find?_mapValues]
    obtain ⟨none, otherNone⟩ | ⟨c, d, standing, otherStanding, matched⟩ := paired.standing number
    · rw [none, otherNone]
      exact .none
    · rw [standing, otherStanding]
      exact .some (settles matched)

theorem Paired.next (paired : Paired Related Matched live other)
    (steps : ∀ {c d}, Matched c d →
      (Traversal.next live.subject c).1 = (Traversal.next other.subject d).1 ∧
        Related (Traversal.next live.subject c).2.1 (Traversal.next other.subject d).2.1 ∧
          Matched (Traversal.next live.subject c).2.2 (Traversal.next other.subject d).2.2)
    (number : Int) :
    (live.next number).1 = (other.next number).1 ∧
      Paired Related Matched (live.next number).2 (other.next number).2 := by
  rw [Live.next, Live.next]
  obtain ⟨none, otherNone⟩ | ⟨c, d, standing, otherStanding, matched⟩ := paired.standing number
  · rw [none, otherNone]
    exact ⟨rfl, paired⟩
  · rw [standing, otherStanding]
    obtain ⟨item, subject, moved⟩ := steps matched
    have still : Paired Related Matched ⟨(Traversal.next live.subject c).2.1, live.cursors⟩
        ⟨(Traversal.next other.subject d).2.1, other.cursors⟩ := ⟨subject, paired.cursors⟩
    exact ⟨congrArg some item, still.openCursor number moved⟩

theorem Bisimulation.step (alike : Bisimulation Related Matched)
    (paired : Paired Related Matched live other) (action : Step χ π) :
    (Session.step live action).1 = (Session.step other action).1 ∧
      Paired Related Matched (Session.step live action).2 (Session.step other action).2 := by
  cases action with
  | call call =>
    obtain ⟨answers, related⟩ := alike.call paired.subject call
    exact ⟨congrArg Reply.answer answers, paired.write related (alike.settle related)⟩
  | openCursor number pattern =>
    have opens := alike.start paired.subject pattern
    rw [Session.step, Session.step]
    revert opens
    generalize (Interactive.start live.subject pattern : Except Error κ) = outcome
    generalize (Interactive.start other.subject pattern : Except Error ν) = otherOutcome
    intro opens
    cases opens with
    | error e => exact ⟨rfl, paired⟩
    | ok matched => exact ⟨rfl, paired.openCursor number matched⟩
  | next number =>
    obtain ⟨item, still⟩ := paired.next (alike.next paired.subject) number
    exact ⟨congrArg Reply.item item, still⟩

/-- Related containers give the same replies to every session. -/
theorem Bisimulation.replies (alike : Bisimulation Related Matched) {s : σ} {t : τ}
    (related : Related s t) (session : List (Step χ π)) :
    Session.replies κ session s = Session.replies ν session t :=
  (Calls.run_simulates (Paired Related Matched)
    (fun _ _ action paired => alike.step paired action) session (paired_of related)).1

end Bisimulation

end Session

end TripleCube
