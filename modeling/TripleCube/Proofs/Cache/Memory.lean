import TripleCube.Proofs.Cache.Selection

/-! The memory of evicted keys. A key that the small queue gave up is remembered until as many
other keys as the cache has room for were given up after it, and while it is remembered it comes
back into main. Any other key comes into the small queue. -/
namespace TripleCube.Cache

variable {κ α : Type} {c : Cache κ α}

/-- The key is remembered, and of the keys that were remembered after it no others are left than
some that were evicted since. -/
def Recent (key : κ) (since : Finset κ) (ghost : List κ) : Prop :=
  ∃ older newer, ghost = older ++ key :: newer ∧ ∀ other ∈ newer, other ∈ since

section Recent

variable {key : κ} {since since' : Finset κ} {ghost : List κ}

theorem Recent.mem (recent : Recent key since ghost) : key ∈ ghost := by
  obtain ⟨older, newer, rfl, -⟩ := recent
  simp

theorem Recent.mono (recent : Recent key since ghost) (more : since ⊆ since') :
    Recent key since' ghost := by
  obtain ⟨older, newer, same, behind⟩ := recent
  exact ⟨older, newer, same, fun other member => more (behind other member)⟩

theorem recent_remember (c : Cache κ α) (victim : κ) : Recent victim ∅ (c.remember victim).ghost :=
  ⟨_, [], rfl, by simp⟩

theorem mem_ghost_remember {victim : κ} (member : key ∈ (c.remember victim).ghost) :
    key = victim ∨ key ∈ c.ghost := by
  rw [remember_eq, List.mem_append, List.mem_singleton] at member
  refine member.symm.imp_right fun older => ?_
  split at older
  · exact older
  · exact List.mem_of_mem_tail older

end Recent

variable [DecidableEq κ]

/-- The keys that a call evicts from the small queue. They were read once at most, so they do not
move on to main, and after the call they are gone. -/
def evictedFromSmall (c : Cache κ α) (call : Call κ α) : Finset κ :=
  {key ∈ c.small.toFinset | c.frequency key ≤ 1 ∧ key ∉ (c.step call).2.keys}

/-- The keys that calls evict from the small queue, each of them once. -/
def evictedAlong : List (Call κ α) → Cache κ α → Finset κ
  | [], _ => ∅
  | call :: rest, c => c.evictedFromSmall call ∪ evictedAlong rest (c.step call).2

theorem mem_evictedFromSmall {call : Call κ α} {key : κ} :
    key ∈ c.evictedFromSmall call ↔
      key ∈ c.small ∧ c.frequency key ≤ 1 ∧ key ∉ (c.step call).2.keys := by
  simp [evictedFromSmall]

theorem evictLeast_frame (c : Cache κ α) :
    c.evictLeast.small = c.small ∧ c.evictLeast.ghost = c.ghost := by
  rw [evictLeast]
  split <;> exact ⟨rfl, rfl⟩

/-- Evicting takes a key from the small queue and remembers it, or it takes one from main and
leaves the keys of the small queue that were read once at most. -/
theorem WellFormed.evict_memory (wf : c.WellFormed) (kept : c.evict.WellFormed) :
    (c.evict.ghost = c.ghost ∧ ∀ key ∈ c.small, c.frequency key ≤ 1 → key ∈ c.evict.keys) ∨
    ∃ victim ∈ c.small, c.frequency victim ≤ 1 ∧ c.evict.ghost = (c.remember victim).ghost ∧
      c.evict.keys = c.keys.erase victim := by
  rw [wf.evict_eq, evictAtOnce] at kept ⊢
  split
  · split
    · next victim rest unpromoted =>
      have first := List.head?_dropWhile_not c.isPromoted c.small
      have behind := List.dropWhile_sublist (l := c.small) c.isPromoted
      rw [unpromoted] at first behind
      have listed : victim ∈ c.small := behind.mem List.mem_cons_self
      refine .inr ⟨victim, listed, by simpa [isPromoted] using first, ?_, ?_⟩
      · rw [remember_eq]
      · exact Assoc.keys_erase c.entries victim
    · next exhausted =>
      refine .inl ⟨(evictLeast_frame _).2, fun key listed unread => ?_⟩
      have promoted := List.dropWhile_eq_nil_iff.mp exhausted key listed
      simp [isPromoted, Nat.not_lt.mpr unread] at promoted
  · next notDue =>
    rw [if_neg notDue] at kept
    refine .inl ⟨(evictLeast_frame c).2, fun key listed _ => kept.mem_keys_of_small ?_⟩
    rwa [(evictLeast_frame c).1]

/-- Making room evicts where the cache is full, and keeps queues and entries in step. -/
theorem WellFormed.room (wf : c.WellFormed) (positive : 0 < c.capacity) :
    c.makeRoom = c ∨ c.makeRoom = c.evict ∧ c.evict.WellFormed ∧ c.evict.keys ⊆ c.keys := by
  rw [wf.makeRoom_eq positive]
  split
  · next full =>
    obtain ⟨victim, -, evicts⟩ := wf.evict positive full
    exact .inr ⟨rfl, wf.evicts positive evicts, fun _ => evicts.mem⟩
  · exact .inl rfl

/-- Storing a new key evicts what making room for it does. -/
theorem WellFormed.mem_evictedFromSmall_insert (wf : c.WellFormed) (positive : 0 < c.capacity)
    {key : κ} (fresh : key ∉ c.keys) (value : α) (other : κ) :
    other ∈ c.evictedFromSmall (.insert key value) ↔
      other ∈ c.small ∧ c.frequency other ≤ 1 ∧ other ∉ c.makeRoom.keys := by
  have absent : key ∉ c.makeRoom.keys := by
    rcases wf.room positive with same | ⟨evicted, -, fewer⟩
    · rwa [same]
    · rw [evicted]
      exact fun member => fresh (fewer member)
  have stored : (c.step (.insert key value)).2 = c.makeRoom.place key value :=
    insert_eq_place positive fresh value
  rw [mem_evictedFromSmall, stored, keys_place value absent, List.mem_append, List.mem_singleton,
    not_or]
  refine and_congr_right fun listed => and_congr_right fun _ => and_iff_left ?_
  rintro rfl
  exact fresh (wf.mem_keys_of_small listed)

/-- What making room for a new key does to the memory: nothing, or it remembers the one key that
is evicted from the small queue. -/
theorem WellFormed.room_memory (wf : c.WellFormed) (positive : 0 < c.capacity) {key : κ}
    (fresh : key ∉ c.keys) (value : α) :
    (c.makeRoom.ghost = c.ghost ∧ c.evictedFromSmall (.insert key value) = ∅) ∨
    ∃ victim ∈ c.keys, c.makeRoom.ghost = (c.remember victim).ghost ∧
      c.evictedFromSmall (.insert key value) = {victim} := by
  have evicted := wf.mem_evictedFromSmall_insert positive fresh value
  rcases wf.room positive with same | ⟨room, kept, -⟩
  · rw [same] at evicted ⊢
    refine .inl ⟨rfl, Finset.eq_empty_of_forall_notMem fun other member => ?_⟩
    obtain ⟨listed, -, gone⟩ := (evicted other).mp member
    exact gone (wf.mem_keys_of_small listed)
  · rw [room] at evicted ⊢
    rcases wf.evict_memory kept with ⟨same, stays⟩ | ⟨victim, listed, unread, pushed, erased⟩
    · refine .inl ⟨same, Finset.eq_empty_of_forall_notMem fun other member => ?_⟩
      obtain ⟨listed, unread, gone⟩ := (evicted other).mp member
      exact gone (stays other listed unread)
    · refine .inr ⟨victim, wf.mem_keys_of_small listed, pushed, ?_⟩
      ext other
      rw [evicted, erased, Finset.mem_singleton]
      constructor
      · rintro ⟨listed, -, gone⟩
        by_contra different
        exact gone ((List.mem_erase_of_ne different).mpr (wf.mem_keys_of_small listed))
      · rintro rfl
        exact ⟨listed, unread, wf.nodup.not_mem_erase⟩

/-- Calls that leave the keys as they are: reading, and storing a key again. They evict and
remember nothing. -/
inductive Idle (c : Cache κ α) : Call κ α → Prop
  | get (key : κ) : Idle c (.get key)
  | insert {key : κ} (stored : key ∈ c.keys) (value : α) : Idle c (.insert key value)

theorem idle_or_fresh (c : Cache κ α) {call : Call κ α} (uncleared : call ≠ .clear) :
    c.Idle call ∨ ∃ key value, key ∉ c.keys ∧ call = .insert key value := by
  cases call with
  | get key => exact .inl (.get key)
  | insert key value =>
    by_cases stored : key ∈ c.keys
    · exact .inl (.insert stored value)
    · exact .inr ⟨key, value, stored, rfl⟩
  | clear => exact absurd rfl uncleared

theorem Idle.frame {call : Call κ α} (idle : c.Idle call) (positive : 0 < c.capacity) :
    (c.step call).2.keys = c.keys ∧ (c.step call).2.ghost = c.ghost := by
  cases idle with
  | get key =>
    refine ⟨keys_get? c key, ?_⟩
    rw [step, Cache.get?]
    split <;> rfl
  | @insert key stored value =>
    rw [step, Cache.insert, if_neg (Nat.ne_of_gt positive),
      if_pos (Assoc.isSome_find?_iff.mpr stored)]
    exact ⟨keys_modify c key _, rfl⟩

theorem Idle.evictedFromSmall (wf : c.WellFormed) (positive : 0 < c.capacity) {call : Call κ α}
    (idle : c.Idle call) : c.evictedFromSmall call = ∅ := by
  refine Finset.eq_empty_of_forall_notMem fun key member => ?_
  obtain ⟨listed, -, gone⟩ := mem_evictedFromSmall.mp member
  rw [(idle.frame positive).1] at gone
  exact gone (wf.mem_keys_of_small listed)

section Recent

variable {key victim : κ} {since : Finset κ} {ghost : List κ}

theorem Recent.erase (recent : Recent key since ghost) {other : κ} (different : other ≠ key) :
    Recent key since (ghost.erase other) := by
  obtain ⟨older, newer, rfl, behind⟩ := recent
  by_cases early : other ∈ older
  · exact ⟨older.erase other, newer, List.erase_append_left _ early, behind⟩
  · refine ⟨older, newer.erase other, ?_, fun k member => behind k (List.mem_of_mem_erase member)⟩
    rw [List.erase_append_right _ early, List.erase_cons_tail (by simpa using different.symm)]

/-- A queue that begins with the key has room left while those that came later are few. -/
theorem WellFormed.room_to_remember (wf : c.WellFormed) (stored : victim ∈ c.keys)
    {newer : List κ} (first : c.ghost = key :: newer)
    (behind : ∀ other ∈ newer ++ [victim], other ∈ since) (few : since.card < c.capacity) :
    c.ghost.length < c.capacity := by
  have fresh : victim ∉ newer := fun member => wf.apart victim (by simp [first, member]) stored
  have distinct : (newer ++ [victim]).Nodup := by
    rw [← List.concat_eq_append]
    exact (List.nodup_cons.mp (first ▸ wf.ghost)).2.concat fresh
  have fits : (newer ++ [victim]).toFinset ⊆ since := fun other member =>
    behind other (List.mem_toFinset.mp member)
  calc c.ghost.length
    _ = (newer ++ [victim]).toFinset.card := by
      rw [List.toFinset_card_of_nodup distinct, first]
      simp
    _ ≤ since.card := Finset.card_le_card fits
    _ < c.capacity := few

/-- One more key is remembered. Where that drops the oldest, it drops another key, since those
that came later are too few to fill the queue. -/
theorem WellFormed.recent_remember (wf : c.WellFormed) (stored : victim ∈ c.keys)
    (recent : Recent key since c.ghost) (few : (since ∪ {victim}).card < c.capacity) :
    Recent key (since ∪ {victim}) (c.remember victim).ghost := by
  obtain ⟨older, newer, same, behind⟩ := recent
  have evicted (other : κ) (member : other ∈ newer ++ [victim]) : other ∈ since ∪ {victim} := by
    rw [List.mem_append, List.mem_singleton] at member
    rw [Finset.mem_union, Finset.mem_singleton]
    exact member.imp_left (behind other)
  rw [remember_eq]
  dsimp only
  split
  · exact ⟨older, newer ++ [victim], by simp [same], evicted⟩
  · next full =>
    cases older with
    | nil => exact absurd (wf.room_to_remember stored same evicted few) full
    | cons oldest older => exact ⟨older, newer ++ [victim], by simp [same], evicted⟩

/-- A key that is remembered stays so, while those that are evicted after it are few. -/
theorem WellFormed.recent_room (wf : c.WellFormed) (positive : 0 < c.capacity) {other : κ}
    (fresh : other ∉ c.keys) (value : α) (recent : Recent key since c.ghost)
    (few : (since ∪ c.evictedFromSmall (.insert other value)).card < c.capacity) :
    Recent key (since ∪ c.evictedFromSmall (.insert other value)) c.makeRoom.ghost := by
  rcases wf.room_memory positive fresh value with ⟨same, nothing⟩ | ⟨victim, stored, pushed, one⟩
  · rw [same, nothing, Finset.union_empty]
    exact recent
  · rw [one] at few ⊢
    rw [pushed]
    exact wf.recent_remember stored recent few

end Recent

section Step

variable {key : κ} {since : Finset κ} {call : Call κ α}

theorem ghost_step_insert (positive : 0 < c.capacity) (fresh : key ∉ c.keys) (value : α) :
    (c.step (.insert key value)).2.ghost = c.makeRoom.ghost.erase key := by
  rw [step, insert_eq_place positive fresh, ghost_place]

theorem WellFormed.recent_step (wf : c.WellFormed) (positive : 0 < c.capacity)
    (uncleared : call ≠ .clear) (away : ∀ value, call ≠ .insert key value)
    (recent : Recent key since c.ghost)
    (few : (since ∪ c.evictedFromSmall call).card < c.capacity) :
    Recent key (since ∪ c.evictedFromSmall call) (c.step call).2.ghost := by
  rcases c.idle_or_fresh uncleared with idle | ⟨other, value, fresh, rfl⟩
  · rw [(idle.frame positive).2]
    exact recent.mono Finset.subset_union_left
  · have different : other ≠ key := fun same => away value (by rw [same])
    rw [ghost_step_insert positive fresh]
    exact (wf.recent_room positive fresh value recent few).erase different

/-- A key that is evicted from the small queue is the last that is remembered. -/
theorem WellFormed.recent_of_evicted (wf : c.WellFormed) (positive : 0 < c.capacity)
    (uncleared : call ≠ .clear) (evicted : key ∈ c.evictedFromSmall call) :
    Recent key ∅ (c.step call).2.ghost := by
  rcases c.idle_or_fresh uncleared with idle | ⟨other, value, fresh, rfl⟩
  · rw [idle.evictedFromSmall wf positive] at evicted
    cases evicted
  · rcases wf.room_memory positive fresh value with ⟨-, nothing⟩ | ⟨victim, stored, pushed, one⟩
    · rw [nothing] at evicted
      cases evicted
    · rw [one, Finset.mem_singleton] at evicted
      subst evicted
      rw [ghost_step_insert positive fresh, pushed]
      exact (Cache.recent_remember c key).erase (ne_of_mem_of_not_mem stored fresh).symm

/-- Only a key that a call evicts from the small queue comes to be remembered. -/
theorem WellFormed.mem_ghost_step (wf : c.WellFormed) (positive : 0 < c.capacity)
    (remembered : key ∈ (c.step call).2.ghost) :
    key ∈ c.evictedFromSmall call ∨ key ∈ c.ghost := by
  have uncleared : call ≠ .clear := by
    rintro rfl
    cases remembered
  rcases c.idle_or_fresh uncleared with idle | ⟨other, value, fresh, rfl⟩
  · rw [(idle.frame positive).2] at remembered
    exact .inr remembered
  · rw [ghost_step_insert positive fresh] at remembered
    have room := List.mem_of_mem_erase remembered
    rcases wf.room_memory positive fresh value with ⟨same, -⟩ | ⟨victim, -, pushed, one⟩
    · rw [same] at room
      exact .inr room
    · rw [pushed] at room
      rw [one, Finset.mem_singleton]
      exact mem_ghost_remember room

end Step

end TripleCube.Cache
