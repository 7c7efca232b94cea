import Mathlib.Data.List.Nodup
import TripleCube.Proofs.Cache.Eviction

/-! The queues of a cache. Whatever is called, they list each stored key once and the ghost queue
lists others. So there is a key to evict whenever a new one needs room, and one is enough. -/
namespace TripleCube.Cache

variable {κ α : Type}

/-- How queues, entries and capacity of a cache fit together. -/
structure WellFormed (c : Cache κ α) : Prop where
  /-- The queues list the stored keys and nothing else, and each key once. -/
  queues : c.queued.Perm c.keys
  nodup : c.keys.Nodup
  ghost : c.ghost.Nodup
  apart : ∀ key ∈ c.ghost, key ∉ c.keys
  remembered : c.ghost.length ≤ c.capacity
  frequency : ∀ entry ∈ c.entries, entry.2.frequency ≤ maxFrequency
  size : c.size ≤ c.capacity

variable {c c' : Cache κ α} {victim : κ}

theorem length_keys (c : Cache κ α) : c.keys.length = c.size := Assoc.length_keys c.entries

theorem wellFormed_of_nothing {capacity hits misses : Nat} :
    ({ capacity, hits, misses } : Cache κ α).WellFormed where
  queues := .refl _
  nodup := List.nodup_nil
  ghost := List.nodup_nil
  apart := by simp
  remembered := Nat.zero_le _
  frequency := by simp
  size := Nat.zero_le _

/-- A cache without capacity holds nothing. -/
theorem WellFormed.eq_nil (wf : c.WellFormed) (disabled : c.capacity = 0) :
    c.entries = [] ∧ c.queued = [] ∧ c.ghost = [] := by
  have size := wf.size
  have remembered := wf.remembered
  rw [disabled, Nat.le_zero] at size remembered
  have entries : c.entries = [] := List.length_eq_zero_iff.mp size
  have queues := wf.queues
  rw [keys, entries, Assoc.keys_nil, List.perm_nil] at queues
  exact ⟨entries, queues, List.length_eq_zero_iff.mp remembered⟩

theorem WellFormed.mem_keys_of_small (wf : c.WellFormed) {key : κ} (listed : key ∈ c.small) :
    key ∈ c.keys :=
  wf.queues.mem_iff.mp (List.mem_append_left _ listed)

theorem WellFormed.capacity_ne_zero (wf : c.WellFormed) {key : κ} (stored : key ∈ c.keys) :
    c.capacity ≠ 0 := by
  intro without
  rw [keys, (wf.eq_nil without).1] at stored
  cases stored

/-- The counts of hits and misses do not matter. -/
theorem WellFormed.recount (wf : c.WellFormed) (hits misses : Nat) :
    WellFormed { c with hits, misses } :=
  ⟨wf.queues, wf.nodup, wf.ghost, wf.apart, wf.remembered, wf.frequency, wf.size⟩

/-- Remembering a key puts it behind keys of the ghost queue that leave room for it. -/
theorem ghost_remember (positive : 0 < c.capacity) (remembered : c.ghost.length ≤ c.capacity) :
    ∃ kept, (c.remember victim).ghost = kept ++ [victim] ∧ kept.Sublist c.ghost ∧
      kept.length < c.capacity := by
  refine ⟨_, rfl, ?_, ?_⟩
  · split
    · exact List.drop_sublist 1 c.ghost
    · exact List.Sublist.refl c.ghost
  · split
    · rw [List.length_drop]
      omega
    · omega

variable [DecidableEq κ]

theorem keys_modify (c : Cache κ α) (key : κ) (f : CacheEntry α → CacheEntry α) :
    keys { c with entries := c.entries.modify key f } = c.keys :=
  Assoc.keys_modify c.entries key f

theorem WellFormed.modify (wf : c.WellFormed) (key : κ) (f : CacheEntry α → CacheEntry α)
    (bounded : ∀ entry, entry.frequency ≤ maxFrequency → (f entry).frequency ≤ maxFrequency) :
    WellFormed { c with entries := c.entries.modify key f } := by
  refine ⟨?_, ?_, wf.ghost, ?_, wf.remembered, ?_, ?_⟩
  · rw [keys_modify]
    exact wf.queues
  · rw [keys_modify]
    exact wf.nodup
  · rw [keys_modify]
    exact wf.apart
  · intro entry member
    obtain ⟨old, stored, -, changed⟩ := Assoc.mem_modify member
    rw [changed]
    split
    · exact bounded old.2 (wf.frequency old stored)
    · exact wf.frequency old stored
  · rw [← length_keys, keys_modify, length_keys]
    exact wf.size

theorem WellFormed.get? (wf : c.WellFormed) (key : κ) : (c.get? key).2.WellFormed := by
  rw [Cache.get?]
  split
  · exact wf.recount c.hits (c.misses + 1)
  · let raise (e : CacheEntry α) := { e with frequency := min (e.frequency + 1) maxFrequency }
    have raised := wf.modify key raise fun _ _ => Nat.min_le_right _ _
    exact raised.recount (c.hits + 1) c.misses

/-- What is evicted was stored. -/
theorem WellFormed.mem_of_evicts (wf : c.WellFormed) (evicts : c.Evicts victim c') :
    victim ∈ c.keys :=
  wf.queues.mem_iff.mp (evicts.queues.mem_iff.mpr List.mem_cons_self)

/-- Evicting takes exactly one entry. -/
theorem WellFormed.size_of_evicts (wf : c.WellFormed) (evicts : c.Evicts victim c') :
    c'.size + 1 = c.size := by
  have member := wf.mem_of_evicts evicts
  have positive := List.length_pos_of_mem member
  rw [← length_keys, ← length_keys, evicts.keys, List.length_erase_of_mem member]
  omega

/-- Evicting leaves room for an entry. -/
theorem WellFormed.room_of_evicts (wf : c.WellFormed) (evicts : c.Evicts victim c') :
    c'.size < c'.capacity := by
  have one := wf.size_of_evicts evicts
  have size := wf.size
  rw [evicts.capacity]
  omega

theorem WellFormed.not_mem_of_evicts (wf : c.WellFormed) (evicts : c.Evicts victim c') :
    victim ∉ c'.keys := by
  rw [evicts.keys]
  exact wf.nodup.not_mem_erase

theorem Evicts.mem (evicts : c.Evicts victim c') {key : κ} (member : key ∈ c'.keys) :
    key ∈ c.keys := by
  rw [evicts.keys] at member
  exact List.mem_of_mem_erase member

/-- Only the entry of the key that is evicted is gone, and no value is another. -/
theorem WellFormed.value_of_evicts (wf : c.WellFormed) (evicts : c.Evicts victim c') (key : κ) :
    (c'.entries.find? key).map CacheEntry.value =
      if key = victim then none else (c.entries.find? key).map CacheEntry.value := by
  by_cases stays : key ∈ c'.keys
  · obtain ⟨entry, found⟩ := Option.isSome_iff_exists.mp (Assoc.isSome_find?_iff.mpr stays)
    obtain ⟨old, before, rfl, sameValue, -⟩ := evicts.entries _ (Assoc.mem_of_find? found)
    have different : old.1 ≠ victim := ne_of_mem_of_not_mem stays (wf.not_mem_of_evicts evicts)
    rw [found, Assoc.find?_of_mem wf.nodup before, if_neg different, Option.map_some,
      Option.map_some, sameValue]
  · rw [Assoc.find?_eq_none stays, Option.map_none]
    split
    · rfl
    · next different =>
      rw [evicts.keys, List.mem_erase_of_ne different] at stays
      rw [Assoc.find?_eq_none stays, Option.map_none]

/-- The ghost queue after an eviction. -/
theorem WellFormed.ghost_of_evicts (wf : c.WellFormed) (positive : 0 < c.capacity)
    (evicts : c.Evicts victim c') : c'.ghost.Nodup ∧ c'.ghost.length ≤ c.capacity ∧
      ∀ key ∈ c'.ghost, key ∈ c.ghost ∨ key = victim := by
  rcases evicts.ghost with same | pushed
  · rw [same]
    exact ⟨wf.ghost, wf.remembered, fun _ member => .inl member⟩
  · obtain ⟨kept, remember, sublist, room⟩ := ghost_remember positive wf.remembered
    have fresh : victim ∉ kept := fun member =>
      wf.apart victim (sublist.mem member) (wf.mem_of_evicts evicts)
    rw [pushed, remember, ← List.concat_eq_append]
    refine ⟨(wf.ghost.sublist sublist).concat fresh, ?_, ?_⟩
    · rw [List.length_concat]
      exact room
    · intro key member
      rw [List.concat_eq_append, List.mem_append, List.mem_singleton] at member
      exact member.imp_left sublist.mem

theorem WellFormed.evicts (wf : c.WellFormed) (positive : 0 < c.capacity)
    (evicts : c.Evicts victim c') : c'.WellFormed := by
  obtain ⟨nodup, length, members⟩ := wf.ghost_of_evicts positive evicts
  refine ⟨?_, ?_, nodup, ?_, ?_, ?_, ?_⟩
  · have stored := List.perm_cons_erase (wf.mem_of_evicts evicts)
    rw [evicts.keys]
    exact (List.perm_cons victim).mp (evicts.queues.symm.trans (wf.queues.trans stored))
  · rw [evicts.keys]
    exact wf.nodup.erase victim
  · intro key remembered member
    rcases members key remembered with old | rfl
    · exact wf.apart key old (evicts.mem member)
    · exact wf.not_mem_of_evicts evicts member
  · rw [evicts.capacity]
    exact length
  · intro entry member
    obtain ⟨old, stored, -, -, less⟩ := evicts.entries entry member
    exact Nat.le_trans less (wf.frequency old stored)
  · exact Nat.le_of_lt (wf.room_of_evicts evicts)

/-- In a full cache there is a key to evict. -/
theorem WellFormed.evict (wf : c.WellFormed) (positive : 0 < c.capacity)
    (full : c.size = c.capacity) : ∃ victim ∈ c.keys, c.Evicts victim c.evict := by
  have nonempty : c.queued ≠ [] := by
    intro nothing
    have length := wf.queues.length_eq
    rw [nothing, length_keys, List.length_nil] at length
    omega
  obtain ⟨victim, evicts⟩ := evict_evicts nonempty
  exact ⟨victim, wf.mem_of_evicts evicts, evicts⟩

/-- Evicting once makes room. -/
theorem WellFormed.makeRoom_eq (wf : c.WellFormed) (positive : 0 < c.capacity) :
    c.makeRoom = if c.size = c.capacity then c.evict else c := by
  have size := wf.size
  rw [makeRoom]
  split
  · next full =>
    have full : c.size = c.capacity := Nat.le_antisymm size full
    obtain ⟨victim, -, evicts⟩ := wf.evict positive full
    have smaller : c.evict.size < c.size := by
      have one := wf.size_of_evicts evicts
      omega
    rw [if_pos full]
    dsimp only
    rw [if_pos smaller, makeRoom, if_neg (Nat.not_le.mpr (wf.room_of_evicts evicts))]
  · next room => rw [if_neg (by omega)]

/-- Evicting until there is room, as a loop that nothing else ends. -/
inductive Empties : Cache κ α → Cache κ α → Prop
  | room {c : Cache κ α} (room : c.size < c.capacity) : Empties c c
  | evicts {c c' : Cache κ α} (full : c.capacity ≤ c.size) (later : Empties c.evict c') :
    Empties c c'

/-- That loop ends, and making room is what it does. -/
theorem WellFormed.empties (wf : c.WellFormed) (positive : 0 < c.capacity) :
    c.Empties c.makeRoom := by
  have size := wf.size
  rw [wf.makeRoom_eq positive]
  split
  · next full =>
    obtain ⟨victim, -, evicts⟩ := wf.evict positive full
    exact .evicts (Nat.le_of_eq full.symm) (.room (wf.room_of_evicts evicts))
  · exact .room (by omega)

/-- Stores a key that is not there, in a cache with room. -/
def place (c : Cache κ α) (key : κ) (value : α) : Cache κ α :=
  let entries := c.entries.insert key ⟨value, 0⟩
  if key ∈ c.ghost then { c with ghost := c.ghost.erase key, main := c.main ++ [key], entries }
  else { c with small := c.small ++ [key], entries }

theorem insert_eq_place (positive : 0 < c.capacity) {key : κ} (fresh : key ∉ c.keys)
    (value : α) : c.insert key value = c.makeRoom.place key value := by
  have unbound : ¬ (c.entries.find? key).isSome := fun bound =>
    fresh (Assoc.isSome_find?_iff.mp bound)
  rw [Cache.insert, if_neg (Nat.ne_of_gt positive), if_neg unbound]
  rfl

section Place

variable (c : Cache κ α) (key : κ) (value : α)

theorem entries_place : (c.place key value).entries = c.entries.insert key ⟨value, 0⟩ := by
  rw [place]
  split <;> rfl

theorem capacity_place : (c.place key value).capacity = c.capacity := by
  rw [place]
  split <;> rfl

theorem ghost_place : (c.place key value).ghost = c.ghost.erase key := by
  rw [place]
  split
  · rfl
  · next absent => exact (List.erase_of_not_mem absent).symm

theorem queued_place : (c.place key value).queued.Perm (c.queued ++ [key]) := by
  rw [place]
  split
  · simp [queued]
  · have moved : ([key] ++ c.main).Perm (c.main ++ [key]) := List.perm_append_comm
    simpa [queued] using moved.append_left c.small

variable {c key}

theorem keys_place (fresh : key ∉ c.keys) : (c.place key value).keys = c.keys ++ [key] := by
  rw [keys, entries_place]
  exact Assoc.keys_insert fresh _

theorem WellFormed.place (wf : c.WellFormed) (room : c.size < c.capacity) (fresh : key ∉ c.keys) :
    (c.place key value).WellFormed := by
  have keys := keys_place value fresh
  refine ⟨?_, ?_, ?_, ?_, ?_, ?_, ?_⟩
  · rw [keys]
    exact (queued_place c key value).trans (wf.queues.append_right [key])
  · rw [keys, ← List.concat_eq_append]
    exact wf.nodup.concat fresh
  · rw [ghost_place]
    exact wf.ghost.erase key
  · intro other remembered
    rw [ghost_place, wf.ghost.mem_erase_iff] at remembered
    rw [keys, List.mem_append, List.mem_singleton, not_or]
    exact ⟨wf.apart other remembered.2, remembered.1⟩
  · rw [ghost_place, capacity_place]
    exact Nat.le_trans List.length_erase_le wf.remembered
  · intro entry member
    rw [entries_place] at member
    rcases Assoc.mem_insert member with rfl | stored
    · exact Nat.zero_le _
    · exact wf.frequency entry stored
  · rw [← length_keys, keys, List.length_append, length_keys, capacity_place]
    exact room

end Place

end TripleCube.Cache
