import Mathlib.Data.List.TakeWhile
import TripleCube.Proofs.Cache.Insertion

/-! Which key is evicted. The main queue goes round until a key has no read left, up to once for
each read that is counted; what comes of it is told at once by the first key that was read least.
The small queue gives its first key that was read once at most, and main those before it. -/
namespace TripleCube.Cache

variable {κ α : Type}

/-- Takes reads off each key. -/
def lowerBy (amount : κ → Nat) (entries : Assoc κ (CacheEntry α)) : Assoc κ (CacheEntry α) :=
  entries.map fun (key, entry) => (key, { entry with frequency := entry.frequency - amount key })

section LowerBy

variable {amount amount' : κ → Nat} {entries : Assoc κ (CacheEntry α)}

theorem lowerBy_congr (same : ∀ key ∈ entries.keys, amount key = amount' key) :
    lowerBy amount entries = lowerBy amount' entries := by
  refine List.map_congr_left fun entry member => ?_
  have keyed := same entry.1 (List.mem_map_of_mem member)
  simp only [keyed]

theorem lowerBy_eq_self (nothing : ∀ key ∈ entries.keys, amount key = 0) :
    lowerBy amount entries = entries := by
  rw [lowerBy_congr nothing]
  simp [lowerBy]

theorem lowerBy_lowerBy (amount amount' : κ → Nat) (entries : Assoc κ (CacheEntry α)) :
    lowerBy amount' (lowerBy amount entries) =
      lowerBy (fun key => amount key + amount' key) entries := by
  simp [lowerBy, Nat.sub_sub]

variable [DecidableEq κ]

theorem modify_lower (entries : Assoc κ (CacheEntry α)) (key : κ) :
    entries.modify key lower = lowerBy (fun other => if other = key then 1 else 0) entries := by
  refine List.map_congr_left fun entry _ => ?_
  by_cases same : entry.1 = key <;> simp [lower, same]

theorem erase_lowerBy (amount : κ → Nat) (entries : Assoc κ (CacheEntry α)) (key : κ) :
    (lowerBy amount entries).erase key = lowerBy amount (entries.erase key) := by
  induction entries with
  | nil => rfl
  | cons entry rest ih =>
    by_cases same : entry.1 = key
    · simp [lowerBy, Assoc.erase, same]
    · simpa [lowerBy, Assoc.erase, same] using ih

theorem find?_lowerBy (amount : κ → Nat) (entries : Assoc κ (CacheEntry α)) (key : κ) :
    (lowerBy amount entries).find? key = (entries.find? key).map
      fun entry => { entry with frequency := entry.frequency - amount key } := by
  induction entries with
  | nil => rfl
  | cons binding rest ih =>
    obtain ⟨k, entry⟩ := binding
    by_cases same : k = key
    · simp [lowerBy, Assoc.find?_cons, same]
    · simpa [lowerBy, Assoc.find?_cons, same] using ih

end LowerBy

/-- A queue parted at the first of its keys that were read least. -/
structure PartsAtLeast (reads : κ → Nat) (queue ahead : List κ) (victim : κ) (behind : List κ) :
    Prop where
  queue : queue = ahead ++ victim :: behind
  ahead : ∀ key ∈ ahead, reads victim < reads key
  behind : ∀ key ∈ behind, reads victim ≤ reads key

namespace PartsAtLeast

variable {reads : κ → Nat} {queue ahead behind : List κ} {victim : κ}

theorem min? (parts : PartsAtLeast reads queue ahead victim behind) :
    (queue.map reads).min? = some (reads victim) := by
  rw [List.min?_eq_some_iff, parts.queue]
  refine ⟨List.mem_map_of_mem (by simp), ?_⟩
  rw [List.forall_mem_map]
  intro key member
  rcases List.mem_append.mp member with member | member
  · exact Nat.le_of_lt (parts.ahead key member)
  · rcases List.mem_cons.mp member with rfl | member
    · exact Nat.le_refl _
    · exact parts.behind key member

theorem passed (parts : PartsAtLeast reads queue ahead victim behind) :
    ∀ key ∈ ahead, decide (reads key ≠ reads victim) :=
  fun key member => decide_eq_true (Nat.ne_of_gt (parts.ahead key member))

theorem takeWhile (parts : PartsAtLeast reads queue ahead victim behind) :
    (queue.takeWhile fun key => reads key ≠ reads victim) = ahead := by
  rw [parts.queue, List.takeWhile_append_of_pos parts.passed, List.takeWhile_cons_of_neg (by simp),
    List.append_nil]

theorem dropWhile (parts : PartsAtLeast reads queue ahead victim behind) :
    (queue.dropWhile fun key => reads key ≠ reads victim) = victim :: behind := by
  rw [parts.queue, List.dropWhile_append_of_pos parts.passed, List.dropWhile_cons_of_neg (by simp)]

end PartsAtLeast

theorem remember_eq (c : Cache κ α) (key : κ) :
    c.remember key = { c with
      ghost := (if c.ghost.length < c.capacity then c.ghost else c.ghost.tail) ++ [key] } := by
  rw [remember, List.drop_one]
  by_cases full : c.capacity ≤ c.ghost.length
  · simp [full, Nat.not_lt.mpr full]
  · simp [full, Nat.not_le.mp full]

variable [DecidableEq κ]

/-- The reads that are counted of a key, none if it is not stored. -/
def readsOf (entries : Assoc κ (CacheEntry α)) (key : κ) : Nat :=
  ((entries.find? key).map CacheEntry.frequency).getD 0

theorem frequency_eq (c : Cache κ α) : c.frequency = readsOf c.entries := by
  funext key
  rw [frequency, readsOf]
  cases c.entries.find? key <;> rfl

theorem readsOf_lowerBy (amount : κ → Nat) (entries : Assoc κ (CacheEntry α)) (key : κ) :
    readsOf (lowerBy amount entries) key = readsOf entries key - amount key := by
  rw [readsOf, readsOf, find?_lowerBy]
  cases entries.find? key <;> simp

/-- The rounds that a queue buys until the key is reached whose reads are used up first: one for
each of that key's reads, and one more for the keys ahead of it. -/
def rounds (least : Nat) (ahead behind : List κ) (key : κ) : Nat :=
  if key ∈ ahead then least + 1 else if key ∈ behind then least else 0

/-- One turn: the key at the head goes to the back with one read fewer. -/
theorem PartsAtLeast.turn {reads reads' : κ → Nat} {key victim : κ} {rest ahead behind : List κ}
    (nodup : (key :: rest).Nodup) (read : 0 < reads key)
    (lowered : ∀ other, reads' other = reads other - if other = key then 1 else 0)
    (parts : PartsAtLeast reads' (rest ++ [key]) ahead victim behind) :
    ∃ ahead' behind', PartsAtLeast reads (key :: rest) ahead' victim behind' ∧
      behind ++ ahead = behind' ++ ahead' ∧
      ∀ other ≠ victim, (if other = key then 1 else 0) + rounds (reads' victim) ahead behind other =
        rounds (reads victim) ahead' behind' other := by
  obtain ⟨unlisted, -⟩ := List.nodup_cons.mp nodup
  have one : reads' key + 1 = reads key := by
    rw [lowered, if_pos rfl]
    omega
  have same {other : κ} (member : other ∈ rest) : reads' other = reads other := by
    rw [lowered, if_neg (ne_of_mem_of_not_mem member unlisted), Nat.sub_zero]
  rcases List.eq_nil_or_concat behind with rfl | ⟨others, last, rfl⟩
  · -- The key itself, now that it stands behind all others, is the only one of the least.
    obtain ⟨rfl, itself⟩ := List.append_inj' parts.queue rfl
    cases itself
    refine ⟨[], rest, ⟨rfl, by simp, fun other member => ?_⟩, by simp, fun other different => ?_⟩
    · have least := parts.ahead other member
      rw [same member] at least
      omega
    · simp only [rounds, different, ite_false, List.not_mem_nil]
      split <;> omega
  · -- The key has a read to spare, so it was ahead of the victim and is behind it now.
    obtain ⟨listed, itself⟩ := List.append_inj' (parts.queue.trans (by simp) :
      rest ++ [key] = (ahead ++ victim :: others) ++ [last]) rfl
    cases itself
    subst listed
    have least : reads' victim = reads victim := same (by simp)
    have spare := parts.behind key (by simp)
    refine ⟨key :: ahead, others, ⟨rfl, ?_, ?_⟩, by simp, fun other different => ?_⟩
    · intro other member
      rcases List.mem_cons.mp member with rfl | member
      · omega
      · have before := parts.ahead other member
        rwa [least, same (by simp [member])] at before
    · intro other member
      have after := parts.behind other (by simp [member])
      rwa [least, same (by simp [member])] at after
    · by_cases turned : other = key
      · have fresh : key ∉ ahead := fun member => unlisted (by simp [member])
        simp [rounds, turned, fresh, least, Nat.add_comm]
      · simp [rounds, turned, least]

/-- Going round in the main queue evicts the first key that was read least. -/
theorem rotate_eq {main : List κ} {entries : Assoc κ (CacheEntry α)} (nonempty : main ≠ [])
    (nodup : main.Nodup) (bound : entries.keys.Nodup) :
    ∃ ahead victim behind, PartsAtLeast (readsOf entries) main ahead victim behind ∧
      rotate main entries = (behind ++ ahead,
        lowerBy (rounds (readsOf entries victim) ahead behind) (entries.erase victim)) := by
  fun_induction rotate main entries with
  | case1 => exact absurd rfl nonempty
  | case2 entries key rest entry found read ih =>
    have turned : (rest ++ [key]).Nodup :=
      (List.perm_append_singleton key rest).nodup_iff.mpr nodup
    obtain ⟨ahead, victim, behind, parts, rotated⟩ := ih (by simp) turned (by simpa using bound)
    rw [modify_lower] at parts rotated
    have positive : 0 < readsOf entries key := by simpa [readsOf, found] using read
    obtain ⟨ahead', behind', parts', queue, amount⟩ :=
      parts.turn nodup positive fun other => readsOf_lowerBy _ entries other
    refine ⟨ahead', victim, behind', parts', ?_⟩
    rw [modify_lower, rotated, queue, erase_lowerBy, lowerBy_lowerBy]
    refine congrArg (Prod.mk _) (lowerBy_congr fun other member => amount other ?_)
    rintro rfl
    rw [Assoc.keys_erase] at member
    exact bound.not_mem_erase member
  | case3 entries key rest entry found unread =>
    have none : readsOf entries key = 0 := by simp [readsOf, found, Nat.eq_zero_of_not_pos unread]
    refine ⟨[], key, rest, ⟨rfl, by simp, by simp [none]⟩, ?_⟩
    rw [lowerBy_eq_self (fun other _ => by simp [rounds, none]), List.append_nil]
  | case4 entries key rest missing =>
    have none : readsOf entries key = 0 := by simp [readsOf, missing]
    refine ⟨[], key, rest, ⟨rfl, by simp, by simp [none]⟩, ?_⟩
    rw [lowerBy_eq_self (fun other _ => by simp [rounds, none]), List.append_nil]

example : rotate [1, 2, 3] [(1, ⟨"a", 2⟩), (2, ⟨"b", 1⟩), (3, ⟨"c", 3⟩)] =
    ([3, 1], [(1, ⟨"a", 0⟩), (3, ⟨"c", 2⟩)]) := by
  decide +kernel

/-- The fewest reads that are counted of a key of the main queue. -/
def leastReads (c : Cache κ α) : Nat := (c.main.map c.frequency).min?.getD 0

/-- Evicts the first key of the main queue that was read least, and takes off the reads that this
costs the others. -/
def evictLeast (c : Cache κ α) : Cache κ α :=
  let ahead := c.main.takeWhile fun key => c.frequency key ≠ c.leastReads
  match c.main.dropWhile fun key => c.frequency key ≠ c.leastReads with
  | [] => c
  | victim :: behind =>
    { c with
      main := behind ++ ahead
      entries := lowerBy (rounds c.leastReads ahead behind) (c.entries.erase victim) }

/-- Whether a key of the small queue moves on to main when it is to be evicted. -/
def isPromoted (c : Cache κ α) (key : κ) : Bool := 1 < c.frequency key

/-- Whether the small queue is evicted from first. -/
def SmallIsDue (c : Cache κ α) : Prop := c.maxSmall < c.small.length ∨ c.main = []

instance (c : Cache κ α) : Decidable c.SmallIsDue := inferInstanceAs (Decidable (_ ∨ _))

/-- Evicts one key without going through the queues key by key. -/
def evictAtOnce (c : Cache κ α) : Cache κ α :=
  if c.SmallIsDue then
    let promoted := c.small.takeWhile c.isPromoted
    match c.small.dropWhile c.isPromoted with
    | victim :: rest =>
      { c with
        small := rest
        main := c.main ++ promoted
        entries := c.entries.erase victim
        ghost := (if c.ghost.length < c.capacity then c.ghost else c.ghost.tail) ++ [victim] }
    | [] => evictLeast { c with small := [], main := c.main ++ promoted }
  else c.evictLeast

theorem evictMain_eq {c : Cache κ α} (nodup : c.main.Nodup) (bound : c.keys.Nodup) :
    c.evictMain = c.evictLeast := by
  by_cases nonempty : c.main = []
  · simp only [evictMain, evictLeast, nonempty, rotate, List.dropWhile_nil]
    rw [← nonempty]
  · obtain ⟨ahead, victim, behind, parts, rotated⟩ := rotate_eq nonempty nodup bound
    have least : c.leastReads = readsOf c.entries victim := by
      rw [leastReads, frequency_eq, parts.min?, Option.getD_some]
    rw [evictMain, rotated, evictLeast, least, frequency_eq, parts.takeWhile, parts.dropWhile]

theorem evictFrom_eq (small : List κ) (c : Cache κ α) :
    evictFrom small c = match small.dropWhile c.isPromoted with
      | victim :: rest =>
        remember
          { c with
            small := rest
            main := c.main ++ small.takeWhile c.isPromoted
            entries := c.entries.erase victim } victim
      | [] => evictMain
          { c with small := [], main := c.main ++ small.takeWhile c.isPromoted } := by
  fun_induction evictFrom small c with
  | case1 c => simp
  | case2 key rest c read ih =>
    have promoted : c.isPromoted key = true := decide_eq_true read
    have same : { c with main := c.main ++ [key] }.isPromoted = c.isPromoted := rfl
    rw [ih, same, List.dropWhile_cons_of_pos promoted, List.takeWhile_cons_of_pos promoted]
    simp only [List.append_assoc, List.singleton_append]
  | case3 key rest c unread =>
    have stays : ¬ c.isPromoted key = true := by simpa [isPromoted] using unread
    rw [List.dropWhile_cons_of_neg stays, List.takeWhile_cons_of_neg stays]
    simp only [List.append_nil]

variable {c : Cache κ α}

theorem WellFormed.evict_eq (wf : c.WellFormed) : c.evict = c.evictAtOnce := by
  have queued : c.queued.Nodup := wf.queues.nodup_iff.mpr wf.nodup
  have due : (c.maxSmall < c.small.length ∨ c.main.isEmpty = true) ↔ c.SmallIsDue := by
    rw [List.isEmpty_iff]
    rfl
  rw [Cache.evict, evictAtOnce]
  simp only [due]
  split
  · rw [evictSmall, evictFrom_eq]
    split
    · rw [remember_eq]
    · next exhausted =>
      rw [List.takeWhile_eq_self_iff.mpr (List.dropWhile_eq_nil_iff.mp exhausted)]
      exact evictMain_eq (List.perm_append_comm.nodup_iff.mp queued) wf.nodup
  · exact evictMain_eq (List.nodup_append.mp queued).2.1 wf.nodup

/-- Wherever calls on a new cache lead, evicting takes the key that is told at once, and leaves
the values of all others. -/
theorem run_evict_eq (capacity : Nat) (calls : List (Call κ α)) :
    let c : Cache κ α := (Calls.run step calls (ofCapacity capacity)).2
    c.evict = c.evictAtOnce ∧
      (c.isEmpty = false → ∃ victim ∈ c.keys, ∀ key,
        (c.evict.entries.find? key).map CacheEntry.value =
          if key = victim then none else (c.entries.find? key).map CacheEntry.value) := by
  intro c
  have initial : (ofCapacity capacity : Cache κ α).WellFormed := wellFormed_of_nothing
  have wf : c.WellFormed := (initial.run calls).2
  refine ⟨wf.evict_eq, fun nonempty => ?_⟩
  have queued : c.queued ≠ [] := by
    intro nothing
    have entries := wf.queues
    rw [nothing, List.nil_perm, keys, Assoc.keys, List.map_eq_nil_iff] at entries
    simp [isEmpty, entries] at nonempty
  obtain ⟨victim, evicts⟩ := evict_evicts queued
  exact ⟨victim, wf.mem_of_evicts evicts, wf.value_of_evicts evicts⟩

end TripleCube.Cache
