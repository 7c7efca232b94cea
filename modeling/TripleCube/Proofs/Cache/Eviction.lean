import TripleCube.Proofs.Assoc
import TripleCube.Proofs.Cache

/-! What evicting does. Keys change places within the queues and entries may lose reads, until
one key leaves its queue together with its entry. -/
namespace TripleCube.Cache

variable {κ α : Type}

def keys (c : Cache κ α) : List κ := c.entries.keys

/-- The keys of both queues. -/
def queued (c : Cache κ α) : List κ := c.small ++ c.main

/-- Entries of which some are gone and others have lost reads. Values stay. -/
def Lowered (entries entries' : Assoc κ (CacheEntry α)) : Prop :=
  ∀ entry ∈ entries', ∃ old ∈ entries,
    entry.1 = old.1 ∧ entry.2.value = old.2.value ∧ entry.2.frequency ≤ old.2.frequency

theorem Lowered.refl (entries : Assoc κ (CacheEntry α)) : Lowered entries entries :=
  fun entry member => ⟨entry, member, rfl, rfl, Nat.le_refl _⟩

theorem Lowered.trans {first second third : Assoc κ (CacheEntry α)} (earlier : Lowered first second)
    (later : Lowered second third) : Lowered first third := by
  intro entry member
  obtain ⟨old, between, sameKey, sameValue, less⟩ := later entry member
  obtain ⟨oldest, stored, oldKey, oldValue, lesser⟩ := earlier old between
  exact ⟨oldest, stored, sameKey.trans oldKey, sameValue.trans oldValue, Nat.le_trans less lesser⟩

variable [DecidableEq κ]

theorem lowered_erase (entries : Assoc κ (CacheEntry α)) (key : κ) :
    Lowered entries (entries.erase key) :=
  fun entry member => ⟨entry, Assoc.mem_of_mem_erase member, rfl, rfl, Nat.le_refl _⟩

theorem lowered_modify (entries : Assoc κ (CacheEntry α)) (key : κ) :
    Lowered entries (entries.modify key lower) := by
  intro entry member
  obtain ⟨old, stored, sameKey, changed⟩ := Assoc.mem_modify member
  refine ⟨old, stored, sameKey, ?_⟩
  rw [changed]
  split
  · exact ⟨rfl, Nat.sub_le _ _⟩
  · exact ⟨rfl, Nat.le_refl _⟩

/-- Evicting from a main queue takes one key off it, with its entry. -/
theorem rotate_drops {main : List κ} (nonempty : main ≠ []) (entries : Assoc κ (CacheEntry α)) :
    ∃ victim, main.Perm (victim :: (rotate main entries).1) ∧
      (rotate main entries).2.keys = entries.keys.erase victim ∧
      Lowered entries (rotate main entries).2 := by
  fun_induction rotate main entries with
  | case1 => exact absurd rfl nonempty
  | case2 entries key rest entry found read ih =>
    obtain ⟨victim, queue, kept, lowered⟩ := ih (by simp)
    rw [Assoc.keys_modify] at kept
    refine ⟨victim, ?_, kept, (lowered_modify entries key).trans lowered⟩
    exact (List.perm_append_singleton key rest).symm.trans queue
  | case3 entries key rest entry found unread =>
    exact ⟨key, .refl _, Assoc.keys_erase entries key, lowered_erase entries key⟩
  | case4 entries key rest missing =>
    exact ⟨key, .refl _, Assoc.keys_erase entries key, lowered_erase entries key⟩

/-- One cache is another with a key evicted. -/
structure Evicts (c : Cache κ α) (victim : κ) (c' : Cache κ α) : Prop where
  queues : c.queued.Perm (victim :: c'.queued)
  keys : c'.keys = c.keys.erase victim
  entries : Lowered c.entries c'.entries
  ghost : c'.ghost = c.ghost ∨ c'.ghost = (c.remember victim).ghost
  capacity : c'.capacity = c.capacity

variable {c c' : Cache κ α} {victim : κ}

theorem evictMain_evicts (nonempty : c.main ≠ []) : ∃ victim, c.Evicts victim c.evictMain := by
  obtain ⟨victim, queue, kept, lowered⟩ := rotate_drops nonempty c.entries
  refine ⟨victim, ?_, kept, lowered, .inl rfl, rfl⟩
  exact (queue.append_left c.small).trans List.perm_middle

/-- Promoting keys from the small queue and evicting the next one, or one from main. -/
theorem evictFrom_evicts (small : List κ) (nonempty : small ++ c.main ≠ []) :
    ∃ victim, { c with small }.Evicts victim (evictFrom small c) := by
  fun_induction evictFrom small c with
  | case1 c => exact evictMain_evicts nonempty
  | case2 key rest c read ih =>
    obtain ⟨victim, evicts⟩ := ih (by simp)
    refine ⟨victim, ?_, evicts.keys, evicts.entries, evicts.ghost, evicts.capacity⟩
    have promoted : (key :: (rest ++ c.main)).Perm (rest ++ (c.main ++ [key])) := by
      rw [← List.append_assoc]
      exact (List.perm_append_singleton key _).symm
    exact promoted.trans evicts.queues
  | case3 key rest c unread =>
    exact ⟨key, .refl _, Assoc.keys_erase c.entries key, lowered_erase c.entries key, .inr rfl, rfl⟩

/-- Evicting evicts one key, if there is any in the queues. -/
theorem evict_evicts (nonempty : c.queued ≠ []) : ∃ victim, c.Evicts victim c.evict := by
  rw [evict]
  split
  · exact evictFrom_evicts c.small nonempty
  · next fromMain =>
    rw [not_or, List.isEmpty_iff] at fromMain
    exact evictMain_evicts fromMain.2

end TripleCube.Cache
