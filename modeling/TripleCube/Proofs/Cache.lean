import TripleCube.Cache

/-! What a cache may answer. Entries come in by `insert` alone and are otherwise only reread
or dropped, so a cache that was filled from some source agrees with that source, whatever it
evicts. -/
namespace TripleCube

namespace Assoc

variable {κ α : Type} [DecidableEq κ]

theorem mem_of_find? {bindings : Assoc κ α} {key : κ} {value : α}
    (found : bindings.find? key = some value) : (key, value) ∈ bindings := by
  induction bindings with
  | nil => cases found
  | cons first rest ih =>
    obtain ⟨k, old⟩ := first
    rw [find?_cons] at found
    split at found
    · next same =>
      cases found
      exact same ▸ List.mem_cons_self
    · exact List.mem_cons_of_mem _ (ih found)

theorem mem_insert {bindings : Assoc κ α} {key : κ} {value : α} {binding : κ × α}
    (member : binding ∈ bindings.insert key value) :
    binding = (key, value) ∨ binding ∈ bindings := by
  fun_induction insert bindings key value <;> grind

theorem mem_of_mem_erase {bindings : Assoc κ α} {key : κ} {binding : κ × α}
    (member : binding ∈ bindings.erase key) : binding ∈ bindings := by
  fun_induction erase bindings key <;> grind

theorem mem_modify {bindings : Assoc κ α} {key : κ} {f : α → α} {binding : κ × α}
    (member : binding ∈ bindings.modify key f) :
    ∃ old ∈ bindings, binding.1 = old.1 ∧
      binding.2 = if old.1 = key then f old.2 else old.2 := by
  obtain ⟨old, stored, rfl⟩ := List.mem_map.mp member
  refine ⟨old, stored, ?_⟩
  by_cases same : old.1 = key <;> simp [same]

end Assoc

namespace Cache

variable {κ α : Type}

/-- Every entry has a value that its key may have. -/
def Agrees (source : κ → α → Prop) (entries : Assoc κ (CacheEntry α)) : Prop :=
  ∀ entry ∈ entries, source entry.1 entry.2.value

variable {source : κ → α → Prop} {entries : Assoc κ (CacheEntry α)} {c : Cache κ α}

theorem agrees_nil : Agrees source ([] : Assoc κ (CacheEntry α)) := by simp [Agrees]

variable [DecidableEq κ]

theorem Agrees.erase (agrees : Agrees source entries) (key : κ) :
    Agrees source (entries.erase key) :=
  fun entry member => agrees entry (Assoc.mem_of_mem_erase member)

theorem Agrees.modify (agrees : Agrees source entries) {key : κ}
    {f : CacheEntry α → CacheEntry α}
    (valid : ∀ entry, source key entry.value → source key (f entry).value) :
    Agrees source (entries.modify key f) := by
  intro entry member
  obtain ⟨old, stored, sameKey, changed⟩ := Assoc.mem_modify member
  have before := agrees old stored
  rw [sameKey, changed]
  split
  · next same => exact same ▸ valid old.2 (same ▸ before)
  · exact before

theorem Agrees.rotate (agrees : Agrees source entries) (main : List κ) :
    Agrees source (rotate main entries).2 := by
  fun_induction Cache.rotate main entries with
  | case1 => exact agrees
  | case2 entries key rest entry found read ih => exact ih (agrees.modify fun _ => id)
  | case3 entries key rest entry found unread => exact agrees.erase key
  | case4 entries key rest missing => exact agrees.erase key

theorem Agrees.evictFrom (keys : List κ) (agrees : Agrees source c.entries) :
    Agrees source (evictFrom keys c).entries := by
  fun_induction Cache.evictFrom keys c with
  | case1 c => exact agrees.rotate c.main
  | case2 key rest c read ih => exact ih agrees
  | case3 key rest c unread => exact agrees.erase key

theorem Agrees.evict (agrees : Agrees source c.entries) : Agrees source c.evict.entries := by
  rw [Cache.evict]
  split
  · exact agrees.evictFrom c.small
  · exact agrees.rotate c.main

theorem Agrees.makeRoom (agrees : Agrees source c.entries) :
    Agrees source c.makeRoom.entries := by
  fun_induction Cache.makeRoom c with
  | case1 c full evicted smaller ih => exact ih agrees.evict
  | case2 c full evicted stuck => exact agrees.evict
  | case3 c room => exact agrees

theorem Agrees.bind (agrees : Agrees source entries) {key : κ} (entry : CacheEntry α)
    (valid : source key entry.value) : Agrees source (entries.insert key entry) := by
  intro other member
  rcases Assoc.mem_insert member with rfl | stored
  · exact valid
  · exact agrees other stored

theorem Agrees.insert (agrees : Agrees source c.entries) {key : κ} {value : α}
    (valid : source key value) : Agrees source (c.insert key value).entries := by
  rw [Cache.insert]
  split
  · exact agrees
  · split
    · dsimp only
      exact agrees.modify fun _ _ => valid
    · have stored := agrees.makeRoom.bind ⟨value, 0⟩ valid
      dsimp only
      split <;> exact stored

/-- A read that hits answers with a value that the key may have. -/
theorem Agrees.of_get? (agrees : Agrees source c.entries) {key : κ} {value : α}
    (hit : (c.get? key).1 = some value) : source key value := by
  rw [get?] at hit
  split at hit
  · cases hit
  · next entry found =>
    cases hit
    exact agrees (key, entry) (Assoc.mem_of_find? found)

theorem Agrees.get? (agrees : Agrees source c.entries) (key : κ) :
    Agrees source (c.get? key).2.entries := by
  rw [Cache.get?]
  split
  · exact agrees
  · dsimp only
    exact agrees.modify fun _ => id

end Cache

end TripleCube
