import TripleCube.Proofs.Cache.Eviction

/-! The count of reads. Each read of a cache is a hit or a miss and is counted as one of them;
storing and evicting count nothing. -/
namespace TripleCube.Cache

variable {κ α : Type} [DecidableEq κ]

/-- How often a cache was read. -/
def reads (c : Cache κ α) : Nat := c.hits + c.misses

@[simp] theorem reads_evictFrom (keys : List κ) (c : Cache κ α) :
    (evictFrom keys c).reads = c.reads := by
  fun_induction evictFrom keys c with
  | case1 => rfl
  | case2 key rest c read ih => exact ih
  | case3 => rfl

@[simp] theorem reads_evict (c : Cache κ α) : c.evict.reads = c.reads := by
  rw [evict]
  split
  · exact reads_evictFrom c.small c
  · rfl

@[simp] theorem reads_makeRoom (c : Cache κ α) : c.makeRoom.reads = c.reads := by
  fun_induction makeRoom c with
  | case1 c full evicted smaller ih => exact ih.trans (reads_evict c)
  | case2 c full evicted stuck => exact reads_evict c
  | case3 => rfl

@[simp] theorem reads_insert (c : Cache κ α) (key : κ) (value : α) :
    (c.insert key value).reads = c.reads := by
  have room := reads_makeRoom c
  rw [Cache.insert]
  split
  · rfl
  · split
    · rfl
    · dsimp only
      split <;> exact room

theorem reads_get? (c : Cache κ α) (key : κ) : (c.get? key).2.reads = c.reads + 1 := by
  rw [Cache.get?]
  split <;> simp only [reads] <;> omega

/-- A read that misses changes nothing but the count, and was of a key that is not stored. -/
theorem get?_eq_none_iff {c c' : Cache κ α} {key : κ} :
    c.get? key = (none, c') ↔ key ∉ c.keys ∧ c' = { c with misses := c.misses + 1 } := by
  rw [keys, ← Assoc.isSome_find?_iff, Cache.get?]
  cases c.entries.find? key <;> simp [eq_comm]

end TripleCube.Cache
