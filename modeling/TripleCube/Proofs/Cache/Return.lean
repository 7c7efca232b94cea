import Mathlib.Data.List.Induction
import TripleCube.Proofs.Cache.Memory

/-! Keys that come back. A key that was evicted from the small queue comes back into main, unread,
as long as fewer other keys than the cache has room for were evicted from there since. A key that
was not evicted from there since it last came in comes into the small queue. -/
namespace TripleCube.Cache

variable {κ α : Type} [DecidableEq κ] {c : Cache κ α} {key : κ}

/-- The cache that calls on a new one leave. -/
def reached (capacity : Nat) (calls : List (Call κ α)) : Cache κ α :=
  (Calls.run step calls (ofCapacity capacity)).2

/-- Storing a key puts it at the back of main, with no read counted, and it is no longer
remembered. -/
structure EntersMain (c : Cache κ α) (key : κ) (value : α) : Prop where
  stored : c.insert key value =
    { c.makeRoom with
      main := c.makeRoom.main ++ [key]
      ghost := c.makeRoom.ghost.erase key
      entries := c.makeRoom.entries.insert key ⟨value, 0⟩ }
  remembered : key ∈ c.makeRoom.ghost
  forgotten : key ∉ (c.insert key value).ghost

/-- Storing a key puts it at the back of the small queue, with no read counted. -/
structure EntersSmall (c : Cache κ α) (key : κ) (value : α) : Prop where
  stored : c.insert key value =
    { c.makeRoom with
      small := c.makeRoom.small ++ [key]
      entries := c.makeRoom.entries.insert key ⟨value, 0⟩ }

theorem evictedAlong_append (first second : List (Call κ α)) (c : Cache κ α) :
    evictedAlong (first ++ second) c =
      evictedAlong first c ∪ evictedAlong second (Calls.run Cache.step first c).2 := by
  induction first generalizing c with
  | nil => simp [evictedAlong, Calls.run]
  | cons call rest ih => rw [List.cons_append, evictedAlong, ih, evictedAlong, Calls.run,
      Finset.union_assoc]

theorem WellFormed.entersMain (wf : c.WellFormed) (positive : 0 < c.capacity)
    (fresh : key ∉ c.keys) (remembered : key ∈ c.makeRoom.ghost) (value : α) :
    c.EntersMain key value where
  stored := by rw [insert_eq_place positive fresh, Cache.place, if_pos remembered]
  remembered := remembered
  forgotten member := (wf.insert key value).apart key member (wf.mem_insert positive key value)

theorem entersSmall (positive : 0 < c.capacity) (fresh : key ∉ c.keys)
    (unknown : key ∉ c.makeRoom.ghost) (value : α) : c.EntersSmall key value where
  stored := by rw [insert_eq_place positive fresh, place, if_neg unknown]

/-- A key that is remembered stays so through calls that evict few keys. -/
theorem WellFormed.recent_run (wf : c.WellFormed) (positive : 0 < c.capacity) {since : Finset κ}
    (recent : Recent key since c.ghost) {calls : List (Call κ α)} (uncleared : .clear ∉ calls)
    (away : ∀ value, .insert key value ∉ calls)
    (few : (since ∪ evictedAlong calls c).card < c.capacity) :
    Recent key (since ∪ evictedAlong calls c) (Calls.run Cache.step calls c).2.ghost := by
  induction calls generalizing c since with
  | nil => simpa [evictedAlong, Calls.run] using recent
  | cons call rest ih =>
    simp only [List.mem_cons, not_or] at uncleared away
    rw [evictedAlong, ← Finset.union_assoc] at few ⊢
    have now : (since ∪ c.evictedFromSmall call).card < c.capacity :=
      Nat.lt_of_le_of_lt (Finset.card_le_card Finset.subset_union_left) few
    have kept := wf.recent_step positive (Ne.symm uncleared.1)
      (fun value same => (away value).1 same.symm) recent now
    rw [← wf.capacity_step call] at positive few
    exact ih (wf.step call) positive kept uncleared.2 (fun value => (away value).2) few

/-- What is remembered after calls was evicted from the small queue by one of them, and was not
stored by any later one. -/
theorem WellFormed.evicted_of_mem_ghost (wf : c.WellFormed) (positive : 0 < c.capacity)
    (nothing : c.ghost = []) {calls : List (Call κ α)}
    (remembered : key ∈ (Calls.run Cache.step calls c).2.ghost) :
    ∃ before evicting later, calls = before ++ evicting :: later ∧
      key ∈ (Calls.run Cache.step before c).2.evictedFromSmall evicting ∧
      ∀ value, .insert key value ∉ later := by
  induction calls using List.reverseRecOn with
  | nil =>
    rw [Calls.run, nothing] at remembered
    cases remembered
  | append_singleton calls call ih =>
    obtain ⟨same, kept⟩ := wf.run calls
    rw [Calls.run_append] at remembered
    rw [← same] at positive
    have away (value : α) : call ≠ .insert key value := by
      rintro rfl
      exact (kept.insert key value).apart key remembered (kept.mem_insert positive key value)
    rcases kept.mem_ghost_step positive remembered with evicted | stillThere
    · exact ⟨calls, call, [], rfl, evicted, by simp⟩
    · obtain ⟨before, evicting, later, rfl, evicted, gone⟩ := ih stillThere
      refine ⟨before, evicting, later ++ [call], by simp, evicted, fun value member => ?_⟩
      rw [List.mem_append, List.mem_singleton] at member
      exact member.elim (gone value) fun same => away value same.symm

/-- A key that a call evicts from the small queue comes back into main after calls that do not
store it, while few keys are evicted. -/
theorem WellFormed.comesBack (wf : c.WellFormed) (positive : 0 < c.capacity) {evicting : Call κ α}
    {later : List (Call κ α)} {value : α} (uncleared : .clear ∉ evicting :: later)
    (evicted : key ∈ c.evictedFromSmall evicting) (away : ∀ other, .insert key other ∉ later)
    (few : (evictedAlong (later ++ [.insert key value]) (c.step evicting).2).card < c.capacity) :
    (Calls.run Cache.step (evicting :: later) c).2.EntersMain key value := by
  rw [List.mem_cons, not_or] at uncleared
  have recent := wf.recent_of_evicted positive (Ne.symm uncleared.1) evicted
  rw [← wf.capacity_step evicting] at positive few
  have wf := wf.step evicting
  rw [Calls.run]
  dsimp only
  generalize (c.step evicting).2 = c at *
  rw [evictedAlong_append, evictedAlong, evictedAlong, Finset.union_empty] at few
  have fewer : (∅ ∪ evictedAlong later c).card < c.capacity := by
    rw [Finset.empty_union]
    exact Nat.lt_of_le_of_lt (Finset.card_le_card Finset.subset_union_left) few
  have during := wf.recent_run positive recent uncleared.2 away fewer
  rw [Finset.empty_union] at during
  obtain ⟨same, kept⟩ := wf.run later
  have fresh := fun stored => kept.apart key during.mem stored
  rw [← same] at positive few
  exact kept.entersMain positive fresh (kept.recent_room positive fresh value during few).mem value

/-- A key that is not stored, and that was stored again each time after it was evicted from the
small queue, comes in there. -/
theorem WellFormed.comesIn (wf : c.WellFormed) (positive : 0 < c.capacity) (nothing : c.ghost = [])
    {calls : List (Call κ α)} (fresh : key ∉ (Calls.run Cache.step calls c).2.keys)
    (again : ∀ before evicting later, calls = before ++ evicting :: later →
      key ∈ (Calls.run Cache.step before c).2.evictedFromSmall evicting →
      ∃ other, .insert key other ∈ later) (value : α) :
    (Calls.run Cache.step calls c).2.EntersSmall key value := by
  obtain ⟨same, kept⟩ := wf.run calls
  have unknown : key ∉ (Calls.run Cache.step calls c).2.ghost := by
    intro remembered
    obtain ⟨before, evicting, later, split, evicted, away⟩ :=
      wf.evicted_of_mem_ghost positive nothing remembered
    obtain ⟨other, stored⟩ := again before evicting later split evicted
    exact away other stored
  rw [← same] at positive
  refine entersSmall positive fresh (fun remembered => ?_) value
  rcases kept.room_memory positive fresh value with ⟨same, -⟩ | ⟨victim, stored, pushed, -⟩
  · rw [same] at remembered
    exact unknown remembered
  · rw [pushed] at remembered
    rcases mem_ghost_remember remembered with rfl | remembered
    · exact fresh stored
    · exact unknown remembered

theorem reached_append (capacity : Nat) (first second : List (Call κ α)) :
    reached capacity (first ++ second) =
      (Calls.run step second (reached capacity first)).2 := by
  rw [reached, Calls.run_append, reached]

theorem wellFormed_reached (capacity : Nat) (calls : List (Call κ α)) :
    (reached capacity calls).capacity = capacity ∧ (reached capacity calls).WellFormed :=
  WellFormed.run wellFormed_of_nothing calls

/-- After any calls without a `clear`, a key that the small queue gave up, and that was not stored
since, comes back into main if fewer other keys than there is room for are given up until then,
those included that make room for it. A key that is not stored, and that was stored again each
time after the small queue gave it up, comes into the small queue. -/
theorem run_returns {capacity : Nat} (positive : 0 < capacity) (key : κ) (value : α) :
    (∀ before evicting later, .clear ∉ before ++ evicting :: later →
      key ∈ (reached capacity before).evictedFromSmall evicting →
      (∀ other, .insert key other ∉ later) →
      (evictedAlong (later ++ [.insert key value])
        (reached capacity (before ++ [evicting]))).card < capacity →
      (reached capacity (before ++ evicting :: later)).EntersMain key value) ∧
    ∀ calls, key ∉ (reached capacity calls).keys →
      (∀ before evicting later, calls = before ++ evicting :: later →
        key ∈ (reached capacity before).evictedFromSmall evicting →
        ∃ other, .insert key other ∈ later) →
      (reached capacity calls).EntersSmall key value := by
  constructor
  · intro before evicting later uncleared evicted away few
    obtain ⟨same, wf⟩ := wellFormed_reached capacity before
    rw [reached_append] at few ⊢
    rw [← same] at positive
    refine wf.comesBack positive (fun member => ?_) evicted away (few.trans_eq same.symm)
    exact uncleared (List.mem_append_right _ member)
  · intro calls fresh again
    exact WellFormed.comesIn wellFormed_of_nothing positive rfl fresh again value

/-- In a cache of two, key 1 is given up for key 3 and comes back into main; given up there for
key 4, it comes into the small queue the next time. -/
theorem run_returns_twice :
    0 < 2 ∧
    1 ∈ (reached 2 [.insert 1 10, .insert 2 20]).evictedFromSmall (.insert 3 30) ∧
    (evictedAlong [.get 2, .insert 1 11]
      (reached 2 [.insert 1 10, .insert 2 20, .insert 3 30])).card < 2 ∧
    (reached 2 [.insert 1 10, .insert 2 20, .insert 3 30, .get 2]).EntersMain 1 11 ∧
    (reached 2 [.insert 1 10, .insert 2 20, .insert 3 30, .get 2, .insert 1 11,
      .insert 4 40]).EntersSmall 1 11 := by
  have evicted : 1 ∈ (reached 2 [.insert 1 10, .insert 2 20]).evictedFromSmall (.insert 3 30) := by
    decide +kernel
  have few : (evictedAlong [.get 2, .insert 1 11]
      (reached 2 [.insert 1 10, .insert 2 20, .insert 3 30])).card < 2 := by
    decide +kernel
  obtain ⟨intoMain, intoSmall⟩ := run_returns Nat.zero_lt_two (1 : Nat) (11 : Nat)
  refine ⟨Nat.zero_lt_two, evicted, few, ?_, ?_⟩
  · exact intoMain [.insert 1 10, .insert 2 20] (.insert 3 30) [.get 2] (by simp) evicted (by simp)
      few
  · refine intoSmall _ (by decide +kernel) fun before evicting later split gone => ?_
    rcases before with _ | ⟨_, _ | ⟨_, _ | ⟨_, _ | ⟨_, _ | ⟨_, _ | ⟨_, _ | _⟩⟩⟩⟩⟩⟩ <;> cases split
    -- Only the third call takes key 1 from the small queue, and it is stored again later.
    case cons.cons.nil.refl => exact ⟨11, by simp⟩
    all_goals exact absurd gone (by decide +kernel)

end TripleCube.Cache
