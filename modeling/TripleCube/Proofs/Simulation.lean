import TripleCube.Proofs.Live
import TripleCube.Proofs.Session

/-! A container with its cursors that behaves as another one does. What a cursor has to do with
its counterpart may depend on the container, so that a write to the container has to keep it for
all of them at once. Histories of the two have the same answers, and what holds of the answers
of the one holds of the answers of the other. -/
namespace TripleCube.Live

variable {σ τ κ ν ι ω π : Type}

section Laws

variable [Traversal σ κ ι] [Traversal τ ν ι]

/-- A write fails alike, or it answers alike and keeps the counterparts of all cursors. -/
inductive Writes (Related : σ → τ → Prop) (Matched : σ → κ → ν → Prop) (s : σ) :
    Except Error (Bool × σ) → Except Error (Bool × τ) → Prop
  | error (e : Error) : Writes Related Matched s (.error e) (.error e)
  | ok {s' : σ} {t' : τ} (changed : Bool) (related : Related s' t')
    (settles : ∀ {c d}, Matched s c d →
      Matched s' (Traversal.settle s' c) (Traversal.settle t' d)) :
    Writes Related Matched s (.ok (changed, s')) (.ok (changed, t'))

theorem Writes.of_pair {Related : σ → τ → Prop} {Matched : σ → κ → ν → Prop} {s : σ}
    {outcome : Bool × σ} {other : Bool × τ} (answer : outcome.1 = other.1)
    (related : Related outcome.2 other.2)
    (settles : ∀ {c d}, Matched s c d →
      Matched outcome.2 (Traversal.settle outcome.2 c) (Traversal.settle other.2 d)) :
    Writes Related Matched s (.ok outcome) (.ok other) := by
  obtain ⟨changed, s'⟩ := outcome
  obtain ⟨_, t'⟩ := other
  obtain rfl := answer
  exact .ok changed related settles

/-- Calls on related containers with matched cursors answer alike and leave them so. -/
structure Simulates [Searchable σ κ ω π] [Searchable τ ν ω π] (Related : σ → τ → Prop)
    (Matched : σ → κ → ν → Prop) : Prop where
  write : ∀ {s t}, Related s t → ∀ write : ω,
    Writes Related Matched s (Searchable.write κ s write) (Searchable.write ν t write)
  search : ∀ {s t}, Related s t → ∀ pattern : π,
    Session.Opens (Matched s) (Searchable.search s pattern) (Searchable.search t pattern)
  unchanged : ∀ (s : σ) (c : κ), (Traversal.next s c).2.1 = s
  next : ∀ {s t c d}, Related s t → Matched s c d →
    (Traversal.next s c).1 = (Traversal.next t d).1 ∧
      Related (Traversal.next s c).2.1 (Traversal.next t d).2.1 ∧
        Matched s (Traversal.next s c).2.2 (Traversal.next t d).2.2

end Laws

/-- Related containers over which the same numbers stand for matched cursors. -/
abbrev Linked (Related : σ → τ → Prop) (Matched : σ → κ → ν → Prop) (live : Live σ κ)
    (other : Live τ ν) : Prop :=
  Session.Paired Related (Matched live.subject) live other

section Histories

variable [Traversal σ κ ι] [Traversal τ ν ι] [Searchable σ κ ω π] [Searchable τ ν ω π]
  {Related : σ → τ → Prop} {Matched : σ → κ → ν → Prop} {live : Live σ κ} {other : Live τ ν}

theorem Simulates.step (simulates : Simulates Related Matched)
    (linked : Linked Related Matched live other) (call : Call ω π) :
    (live.step call).1 = (other.step call).1 ∧
      Linked Related Matched (live.step call).2 (other.step call).2 := by
  cases call with
  | write write =>
    have writes := simulates.write linked.subject write
    rw [Live.step, Live.step]
    revert writes
    generalize Searchable.write κ live.subject write = outcome
    generalize Searchable.write ν other.subject write = otherOutcome
    intro writes
    cases writes with
    | error e => exact ⟨rfl, linked⟩
    | ok changed related settles =>
      exact ⟨rfl, linked.write related settles⟩
  | openCursor number pattern =>
    have opens := simulates.search linked.subject pattern
    rw [Live.step, Live.step]
    revert opens
    generalize (Searchable.search live.subject pattern : Except Error κ) = outcome
    generalize (Searchable.search other.subject pattern : Except Error ν) = otherOutcome
    intro opens
    cases opens with
    | error e => exact ⟨rfl, linked⟩
    | ok matched => exact ⟨rfl, linked.openCursor number matched⟩
  | next number =>
    obtain ⟨item, still⟩ := linked.next (simulates.next linked.subject) number
    refine ⟨congrArg Answer.item item, ?_⟩
    have same : (live.next number).2.subject = live.subject := by
      rw [Live.next]
      split
      · rfl
      · exact simulates.unchanged _ _
    rw [Linked, Live.step, same]
    exact still

/-- Every history has the same answers. -/
theorem Simulates.run (simulates : Simulates Related Matched)
    (linked : Linked Related Matched live other) (calls : List (Call ω π)) :
    (Calls.run Live.step calls live).1 = (Calls.run Live.step calls other).1 ∧
      Linked Related Matched (after calls live) (after calls other) :=
  Calls.run_simulates (Linked Related Matched)
    (fun _ _ call linked => simulates.step linked call) calls linked

theorem Simulates.answer (simulates : Simulates Related Matched)
    (linked : Linked Related Matched live other) (calls : List (Call ω π)) (call : Call ω π) :
    ((after calls live).step call).1 = ((after calls other).step call).1 :=
  (simulates.step (simulates.run linked calls).2 call).1

theorem Simulates.returned (simulates : Simulates Related Matched)
    (linked : Linked Related Matched live other) (number : Int) (calls : List (Call ω π)) :
    returned number calls live = returned number calls other := by
  rw [Live.returned, Live.returned, (simulates.run linked calls).1]

/-- What a cursor promises of its next answer, its counterpart promises too. -/
theorem Simulates.consistent [DecidableEq ι] (simulates : Simulates Related Matched)
    (linked : Linked Related Matched live other) {holds : σ → ι → Prop} {holds' : τ → ι → Prop}
    (same : ∀ {s t}, Related s t → ∀ item, holds s item ↔ holds' t item) {wants : ι → Prop}
    {before : ι → ι → Prop} {number : Int} {during : List (Call ω π)} {answer : Option ι}
    (consistent : Consistent holds' wants before number other during answer) :
    Consistent holds wants before number live during answer := by
  have held : ∀ calls item, holds (after calls live).subject item ↔
      holds' (after calls other).subject item :=
    fun calls item => same (simulates.run linked calls).2.subject item
  have returns := simulates.returned linked number during
  refine ⟨?_, fun item found => ?_, fun ended => ?_, fun atEnd item wanted stays => ?_⟩
  · rw [simulates.answer linked]
    exact consistent.answers
  · rw [held, returns]
    exact consistent.item item found
  · rw [returns] at ended
    exact consistent.ended ended
  · rw [returns]
    exact consistent.complete atEnd item wanted fun early starts =>
      (held early item).mp (stays early starts)

/-- So does a counterpart that is opened at the same time. -/
theorem Simulates.opens_consistent [DecidableEq ι] (simulates : Simulates Related Matched)
    (linked : Linked Related Matched live other) {holds : σ → ι → Prop} {holds' : τ → ι → Prop}
    (same : ∀ {s t}, Related s t → ∀ item, holds s item ↔ holds' t item) {wants : ι → Prop}
    {before : ι → ι → Prop} {number : Int} {pattern : π} {during : List (Call ω π)}
    (opens : ∃ opened, other.step (.openCursor number pattern) = (.opened (.ok ()), opened) ∧
      ∃ answer, Consistent holds' wants before number opened during answer) :
    ∃ opened, live.step (.openCursor number pattern) = (.opened (.ok ()), opened) ∧
      ∃ answer, Consistent holds wants before number opened during answer := by
  obtain ⟨opened, answered, answer, consistent⟩ := opens
  obtain ⟨reply, still⟩ := simulates.step linked (.openCursor number pattern)
  rw [answered] at reply still
  exact ⟨_, Prod.ext reply rfl, answer, simulates.consistent still same consistent⟩

end Histories

end TripleCube.Live
