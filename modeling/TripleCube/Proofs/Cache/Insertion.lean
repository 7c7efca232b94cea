import Mathlib.Data.Finset.Card
import TripleCube.Proofs.Cache.Queues
import TripleCube.Proofs.Calls

/-! Calls on a cache. Storing a new key in a full cache evicts one key; nothing else evicts any, and
the queues go on fitting the entries. -/
namespace TripleCube.Cache

variable {κ α : Type} [DecidableEq κ] {c : Cache κ α}

/-- What storing a value under a key can come to. -/
inductive Insertion (c : Cache κ α) (key : κ) (value : α) : Cache κ α → Prop
  | disabled (without : c.capacity = 0) : Insertion c key value c
  | replaced (stored : key ∈ c.keys) :
    Insertion c key value
      { c with entries := c.entries.modify key fun entry => { entry with value } }
  | placed (fresh : key ∉ c.keys) (room : c.size < c.capacity) :
    Insertion c key value (c.place key value)
  | evicting {victim : κ} (positive : 0 < c.capacity) (fresh : key ∉ c.keys)
    (full : c.size = c.capacity) (stored : victim ∈ c.keys) (evicts : c.Evicts victim c.evict) :
    Insertion c key value (c.evict.place key value)

theorem WellFormed.insertion (wf : c.WellFormed) (key : κ) (value : α) :
    c.Insertion key value (c.insert key value) := by
  by_cases without : c.capacity = 0
  · rw [Cache.insert, if_pos without]
    exact .disabled without
  have positive : 0 < c.capacity := Nat.pos_of_ne_zero without
  rcases Decidable.em (key ∈ c.keys) with stored | fresh
  · rw [Cache.insert, if_neg without, if_pos (Assoc.isSome_find?_iff.mpr stored)]
    exact .replaced stored
  rw [insert_eq_place positive fresh, wf.makeRoom_eq positive]
  split
  · next full =>
    obtain ⟨victim, stored, evicts⟩ := wf.evict positive full
    exact .evicting positive fresh full stored evicts
  · next short => exact .placed fresh (Nat.lt_of_le_of_ne wf.size short)

theorem WellFormed.insert (wf : c.WellFormed) (key : κ) (value : α) :
    (c.insert key value).WellFormed := by
  have outcome := wf.insertion key value
  generalize c.insert key value = c' at outcome ⊢
  cases outcome with
  | disabled => exact wf
  | replaced => exact wf.modify key _ fun _ bounded => bounded
  | placed fresh room => exact wf.place value room fresh
  | evicting positive fresh full stored evicts =>
    have absent : key ∉ c.evict.keys := fun member => fresh (evicts.mem member)
    exact (wf.evicts positive evicts).place value (wf.room_of_evicts evicts) absent

/-- The calls on a cache. -/
inductive Call (κ α : Type)
  | insert (key : κ) (value : α)
  | get (key : κ)
  | clear

/-- Answers a call; only reading answers with something. -/
def step (c : Cache κ α) : Call κ α → Option α × Cache κ α
  | .insert key value => (none, c.insert key value)
  | .get key => c.get? key
  | .clear => (none, c.clear)

theorem WellFormed.step (wf : c.WellFormed) (call : Call κ α) : (c.step call).2.WellFormed := by
  cases call with
  | insert key value => exact wf.insert key value
  | get key => exact wf.get? key
  | clear => exact wellFormed_of_nothing

theorem WellFormed.capacity_step (wf : c.WellFormed) (call : Call κ α) :
    (c.step call).2.capacity = c.capacity := by
  cases call with
  | insert key value =>
    have outcome := wf.insertion key value
    change (c.insert key value).capacity = c.capacity
    generalize c.insert key value = c' at outcome ⊢
    cases outcome with
    | disabled | replaced => rfl
    | placed => exact capacity_place c key value
    | evicting positive fresh full stored evicts =>
      exact (capacity_place c.evict key value).trans evicts.capacity
  | get key =>
    rw [Cache.step, Cache.get?]
    split <;> rfl
  | clear => rfl

/-- Any calls keep the capacity and leave queues that fit the entries. -/
theorem WellFormed.run (wf : c.WellFormed) (calls : List (Call κ α)) :
    (Calls.run Cache.step calls c).2.capacity = c.capacity ∧
      (Calls.run Cache.step calls c).2.WellFormed :=
  Calls.run_preserves (fun c' : Cache κ α => c'.capacity = c.capacity ∧ c'.WellFormed)
    (fun _ call reached => ⟨(reached.2.capacity_step call).trans reached.1, reached.2.step call⟩)
    calls ⟨rfl, wf⟩

/-- How many entries calls evict: one where a new key is stored in a full cache, and otherwise
none. A cache without capacity stays empty. -/
structure EvictsOne (c : Cache κ α) : Prop where
  evict : 0 < c.capacity → c.size = c.capacity → ∃ victim ∈ c.keys, c.Evicts victim c.evict
  ends : 0 < c.capacity → c.Empties c.makeRoom
  insert : ∀ key value, (c.keys.toFinset \ (c.insert key value).keys.toFinset).card =
    if 0 < c.capacity ∧ key ∉ c.keys ∧ c.size = c.capacity then 1 else 0
  stored : ∀ key value, 0 < c.capacity → key ∈ (c.insert key value).keys
  get : ∀ key, (c.get? key).2.keys = c.keys
  disabled : c.capacity = 0 → c.isEmpty

theorem keys_get? (c : Cache κ α) (key : κ) : (c.get? key).2.keys = c.keys := by
  rw [Cache.get?]
  split
  · rfl
  · simp [keys]

theorem WellFormed.mem_insert (wf : c.WellFormed) (positive : 0 < c.capacity) (key : κ)
    (value : α) : key ∈ (c.insert key value).keys := by
  have outcome := wf.insertion key value
  generalize c.insert key value = c' at outcome ⊢
  cases outcome with
  | disabled without => omega
  | replaced stored =>
    rw [keys_modify]
    exact stored
  | placed fresh room => simp [keys_place value fresh]
  | evicting positive fresh full stored evicts =>
    simp [keys_place value fun member => fresh (evicts.mem member)]

/-- Of the keys, storing one takes that away which it evicts. -/
theorem WellFormed.card_evicted (wf : c.WellFormed) (key : κ) (value : α) :
    (c.keys.toFinset \ (c.insert key value).keys.toFinset).card =
      if 0 < c.capacity ∧ key ∉ c.keys ∧ c.size = c.capacity then 1 else 0 := by
  have outcome := wf.insertion key value
  generalize c.insert key value = c' at outcome ⊢
  cases outcome with
  | disabled without => simp [without]
  | replaced stored =>
    rw [keys_modify]
    simp [stored]
  | placed fresh room =>
    have short : c.size ≠ c.capacity := Nat.ne_of_lt room
    rw [keys_place value fresh, if_neg fun full => short full.2.2, Finset.card_eq_zero,
      Finset.sdiff_eq_empty_iff_subset, List.toFinset_append]
    exact Finset.subset_union_left
  | @evicting victim positive fresh full stored evicts =>
    have absent : key ∉ c.evict.keys := fun member => fresh (evicts.mem member)
    have evicted : c.keys.toFinset \ (c.evict.place key value).keys.toFinset = {victim} := by
      ext other
      rw [keys_place value absent, evicts.keys]
      simp only [Finset.mem_sdiff, List.mem_toFinset, List.mem_append, List.mem_singleton,
        wf.nodup.mem_erase_iff, Finset.mem_singleton]
      constructor
      · rintro ⟨member, kept⟩
        by_contra different
        exact kept (.inl ⟨different, member⟩)
      · rintro rfl
        refine ⟨stored, ?_⟩
        rintro (⟨different, -⟩ | rfl)
        · exact different rfl
        · exact fresh stored
    rw [evicted, if_pos ⟨positive, fresh, full⟩, Finset.card_singleton]

theorem WellFormed.evictsOne (wf : c.WellFormed) : c.EvictsOne where
  evict := wf.evict
  ends := wf.empties
  insert := wf.card_evicted
  stored key value positive := wf.mem_insert positive key value
  get := keys_get? c
  disabled without := by simp [isEmpty, (wf.eq_nil without).1]

/-- Any calls on a new cache leave one whose queues and entries fit together and which evicts one
entry at a time. -/
theorem run_wellFormed (capacity : Nat) (calls : List (Call κ α)) :
    let c : Cache κ α := (Calls.run step calls (ofCapacity capacity)).2
    c.capacity = capacity ∧ c.WellFormed ∧ c.EvictsOne := by
  have initial : (ofCapacity capacity : Cache κ α).WellFormed := wellFormed_of_nothing
  obtain ⟨same, wf⟩ := initial.run calls
  exact ⟨same, wf, wf.evictsOne⟩

end TripleCube.Cache
