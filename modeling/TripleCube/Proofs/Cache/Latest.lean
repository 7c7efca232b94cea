import TripleCube.Proofs.Cache.Insertion

/-! What reading a cache answers. A cache forgets keys, but of a key that it still stores it has
the value that was stored last, and a key that was just stored is there. -/
namespace TripleCube.Cache

variable {κ α : Type} [DecidableEq κ] {c : Cache κ α}

/-- The last value of a key after a call, if before it was the one that is known. -/
def latestAfter (key : κ) (known : Option α) : Call κ α → Option α
  | .insert other value => if other = key then some value else known
  | .get _ => known
  | .clear => none

/-- The value that was last stored under a key, since everything was last cleared. -/
def latest? (calls : List (Call κ α)) (key : κ) : Option α :=
  calls.foldl (latestAfter key) none

/-- Reading answers with the value of the entry. -/
theorem fst_get? (c : Cache κ α) (key : κ) :
    (c.get? key).1 = (c.entries.find? key).map CacheEntry.value := by
  rw [Cache.get?]
  cases c.entries.find? key <;> rfl

variable {known : κ → Option α}

/-- Of the keys that are stored, reading answers with the values they are known to have. -/
theorem fst_get?_eq (agrees : Agrees (fun key v => known key = some v) c.entries) (key : κ) :
    (c.get? key).1 = if key ∈ c.keys then known key else none := by
  rw [fst_get?]
  split
  · next stored =>
    obtain ⟨entry, found⟩ := Option.isSome_iff_exists.mp (Assoc.isSome_find?_iff.mpr stored)
    rw [found, Option.map_some]
    exact (agrees (key, entry) (Assoc.mem_of_find? found)).symm
  · next absent =>
    rw [Assoc.find?_eq_none absent, Option.map_none]

/-- Storing a value under a key leaves the values of other keys as they are. -/
theorem WellFormed.agrees_insert (wf : c.WellFormed)
    (agrees : Agrees (fun other v => known other = some v) c.entries) (key : κ) (value : α) :
    Agrees (fun other v => latestAfter other (known other) (.insert key value) = some v)
      (c.insert key value).entries := by
  by_cases stored : key ∈ c.keys
  · have positive := wf.capacity_ne_zero stored
    rw [Cache.insert, if_neg positive, if_pos (Assoc.isSome_find?_iff.mpr stored)]
    dsimp only
    intro entry member
    obtain ⟨old, before, sameKey, changed⟩ := Assoc.mem_modify member
    have agreed := agrees old before
    by_cases same : old.1 = key
    · simp [latestAfter, sameKey, changed, same]
    · simpa [latestAfter, sameKey, changed, same, Ne.symm same] using agreed
  · refine Agrees.insert (fun entry member => ?_) (by simp [latestAfter])
    have other : key ≠ entry.1 := fun same => stored (same ▸ List.mem_map_of_mem member)
    simpa [latestAfter, other] using agrees entry member

theorem WellFormed.agrees_step (wf : c.WellFormed)
    (agrees : Agrees (fun key v => known key = some v) c.entries) (call : Call κ α) :
    Agrees (fun key v => latestAfter key (known key) call = some v) (c.step call).2.entries := by
  cases call with
  | insert key value => exact wf.agrees_insert agrees key value
  | get key => exact agrees.get? key
  | clear => exact agrees_nil

theorem WellFormed.agrees_run (wf : c.WellFormed)
    (agrees : Agrees (fun key v => known key = some v) c.entries) (calls : List (Call κ α)) :
    Agrees (fun key v => calls.foldl (latestAfter key) (known key) = some v)
      (Calls.run Cache.step calls c).2.entries := by
  induction calls generalizing c known with
  | nil => exact agrees
  | cons call rest ih => exact ih (wf.step call) (wf.agrees_step agrees call)

/-- What was just stored is read back. -/
theorem WellFormed.get?_insert (wf : c.WellFormed) (key : κ) (value : α) :
    ((c.insert key value).get? key).1 = if c.capacity = 0 then none else some value := by
  have outcome := wf.insertion key value
  rw [fst_get?]
  generalize c.insert key value = c' at outcome ⊢
  cases outcome with
  | disabled without => simp [without, (wf.eq_nil without).1]
  | replaced stored =>
    have positive := wf.capacity_ne_zero stored
    obtain ⟨entry, found⟩ := Option.isSome_iff_exists.mp (Assoc.isSome_find?_iff.mpr stored)
    simp [positive, found]
  | placed fresh room => simp [entries_place, Nat.ne_of_gt (Nat.zero_lt_of_lt room)]
  | evicting positive fresh full stored evicts =>
    simp [entries_place, Nat.ne_of_gt positive]

/-- After any calls on a new cache, reading a key answers with the value that was last stored
under it, or with nothing where the key is no longer there. Right after storing it, it is. -/
theorem run_reads_latest (capacity : Nat) (calls : List (Call κ α)) (key : κ) :
    let c : Cache κ α := (Calls.run step calls (ofCapacity capacity)).2
    (c.step (.get key)).1 = (if key ∈ c.keys then latest? calls key else none) ∧
      ∀ value, ((c.step (.insert key value)).2.step (.get key)).1 =
        if capacity = 0 then none else some value := by
  intro c
  have initial : (ofCapacity capacity : Cache κ α).WellFormed := wellFormed_of_nothing
  obtain ⟨same, wf⟩ := initial.run calls
  have latest : Agrees (fun key v => latest? calls key = some v) c.entries :=
    initial.agrees_run agrees_nil calls
  refine ⟨fst_get?_eq latest key, fun value => ?_⟩
  have read := wf.get?_insert key value
  rwa [same] at read

end TripleCube.Cache
