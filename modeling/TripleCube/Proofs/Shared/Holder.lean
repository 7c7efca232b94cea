import Mathlib.Data.Option.Basic
import TripleCube.Proofs.Grid.Layer
import TripleCube.Shared.Holder

/-! Containers of shared objects against maps of values. What a write does to such a container is
one of four things, and it never comes near an object that was dropped: of a handle that somebody
has kept, either the object is still held under its key, or it is empty for good. -/
namespace TripleCube.Holder

variable {p : PageSize} {α σ : Type} {s s' : Holder p α} {m : PagedMap p σ}

section Frame

variable (s) (key other : UInt32) (handle : Handle) (value : α)

@[simp] theorem handle?_write : (s.write handle value).handle? other = s.handle? other := rfl

theorem handle?_link :
    (s.link key value).handle? other = if key = other then some s.next else s.handle? other :=
  PagedMap.get?_insert s.wellFormed key other s.next

theorem handle?_unlink :
    (s.unlink key).handle? other = if key = other then none else s.handle? other :=
  PagedMap.get?_erase s.wellFormed key other

@[simp] theorem object_write_self : (s.write handle value).object handle = value := if_pos rfl

theorem object_write_ne {handle kept : Handle} (different : handle ≠ kept) :
    (s.write handle value).object kept = s.object kept := if_neg different

@[simp] theorem object_link_self : (s.link key value).object s.next = value := if_pos rfl

theorem object_link_made {kept : Handle} (made : kept < s.next) :
    (s.link key value).object kept = s.object kept := if_neg (Nat.ne_of_gt made)

@[simp] theorem object_unlink : (s.unlink key).object = s.object := rfl

end Frame

/-- What a write comes to. An object only moves as `Moves` lets it, and one that is dropped is
empty. -/
inductive Change (Moves : α → α → Prop) (isEmpty : α → Bool) (s : Holder p α) :
    Holder p α → Prop
  | rests : Change Moves isEmpty s s
  | writes {key : UInt32} {handle : Handle} {value : α} (held : s.handle? key = some handle)
    (moves : Moves (s.object handle) value) : Change Moves isEmpty s (s.write handle value)
  | links {key : UInt32} (free : s.handle? key = none) (value : α) :
    Change Moves isEmpty s (s.link key value)
  | drops {key : UInt32} {handle : Handle} {value : α} (held : s.handle? key = some handle)
    (moves : Moves (s.object handle) value) (vacant : isEmpty value = true) :
    Change Moves isEmpty s ((s.write handle value).unlink key)

/-- An object that was dropped: it is held under no key, and it is empty. -/
structure Dropped (isEmpty : α → Bool) (s : Holder p α) (handle : Handle) : Prop where
  made : handle < s.next
  gone : ∀ key, s.handle? key ≠ some handle
  vacant : isEmpty (s.object handle) = true

section Change

variable {Moves : α → α → Prop} {isEmpty : α → Bool} {key : UInt32} {handle : Handle}

/-- No write reaches an object that was dropped. -/
theorem Change.object_dropped (change : Change Moves isEmpty s s')
    (dropped : Dropped isEmpty s handle) : s'.object handle = s.object handle := by
  cases change with
  | rests => rfl
  | writes held => exact object_write_ne s _ fun same => dropped.gone _ (same ▸ held)
  | links => exact object_link_made s _ _ dropped.made
  | drops held =>
    rw [object_unlink]
    exact object_write_ne s _ fun same => dropped.gone _ (same ▸ held)

/-- What was dropped stays so. -/
theorem Dropped.change (dropped : Dropped isEmpty s handle) (change : Change Moves isEmpty s s') :
    Dropped isEmpty s' handle := by
  have vacant : isEmpty (s'.object handle) = true :=
    (congrArg isEmpty (change.object_dropped dropped)).trans dropped.vacant
  cases change with
  | rests => exact dropped
  | writes => exact ⟨dropped.made, dropped.gone, vacant⟩
  | links =>
    refine ⟨Nat.lt_succ_of_lt dropped.made, fun other held => ?_, vacant⟩
    rw [handle?_link] at held
    split at held
    · cases held
      exact Nat.lt_irrefl _ dropped.made
    · exact dropped.gone other held
  | drops =>
    refine ⟨dropped.made, fun other held => ?_, vacant⟩
    rw [handle?_unlink, Option.ite_none_left_eq_some] at held
    exact dropped.gone other held.2

/-- An object that is held stays under its key and moves as it may, or it is dropped. -/
theorem Change.held (change : Change Moves isEmpty s s') (still : ∀ object, Moves object object)
    (held : s.handle? key = some handle) :
    Moves (s.object handle) (s'.object handle) ∧
      (s'.handle? key = some handle ∨ s'.handle? key = none ∧ Dropped isEmpty s' handle) := by
  have made : handle < s.next := s.made key handle held
  cases change with
  | rests => exact ⟨still _, Or.inl held⟩
  | @writes _ written value there moves =>
    refine ⟨?_, Or.inl held⟩
    by_cases same : written = handle
    · subst same
      rw [object_write_self]
      exact moves
    · rw [object_write_ne s value same]
      exact still _
  | @links new free value =>
    rw [object_link_made s new value made, handle?_link]
    refine ⟨still _, Or.inl ((if_neg fun same => ?_).trans held)⟩
    rw [same, held] at free
    cases free
  | @drops old dropped value there moves vacant =>
    rw [object_unlink, handle?_unlink]
    by_cases same : dropped = handle
    · subst same
      obtain rfl := s.alone old key dropped there held
      rw [if_pos rfl, object_write_self]
      refine ⟨moves, Or.inr ⟨rfl, made, fun other again => ?_, ?_⟩⟩
      · rw [handle?_unlink, Option.ite_none_left_eq_some] at again
        exact again.1 (s.alone _ _ _ there again.2)
      · rw [object_unlink, object_write_self]
        exact vacant
    · rw [object_write_ne s value same]
      refine ⟨still _, Or.inl ((if_neg fun here => same ?_).trans held)⟩
      rw [here, held] at there
      exact (Option.some.inj there).symm

theorem change_setIn (s : Holder p α) (key : UInt32) (blank : α) (set : α → Bool × α)
    (moves : ∀ object, Moves object (set object).2) :
    Change Moves isEmpty s (s.setIn key blank set).2 := by
  rw [setIn]
  split
  · next held => exact .writes held (moves _)
  · next free => exact .links free _

theorem change_clearIn (s : Holder p α) (key : UInt32) (clear : α → Bool × α)
    (moves : ∀ object, Moves object (clear object).2) :
    Change Moves isEmpty s (s.clearIn key clear isEmpty).2 := by
  rw [clearIn]
  split
  · exact .rests
  · next held =>
    dsimp only
    split
    · next vacant => exact .drops held (moves _) vacant
    · exact .writes held (moves _)

end Change

/-- A container and a map with the same keys, where each object fits the value of its key. -/
structure Shows (Fits : α → σ → Prop) (s : Holder p α) (m : PagedMap p σ) : Prop where
  wellFormed : m.WellFormed
  entry : ∀ key, Option.Rel Fits ((s.handle? key).map s.object) (m.get? key)

section Shows

variable {Fits : α → σ → Prop} {key : UInt32} {handle : Handle}

theorem Shows.of_some (shows : Shows Fits s m) (held : s.handle? key = some handle) :
    ∃ value, m.get? key = some value ∧ Fits (s.object handle) value := by
  have entry := shows.entry key
  rw [held, Option.map_some] at entry
  cases stored : m.get? key with
  | none =>
    rw [stored] at entry
    cases entry
  | some value =>
    rw [stored] at entry
    cases entry with
    | some fits => exact ⟨value, rfl, fits⟩

theorem Shows.get?_eq_none_iff (shows : Shows Fits s m) (key : UInt32) :
    m.get? key = none ↔ s.handle? key = none := by
  have entry := shows.entry key
  cases held : s.handle? key with
  | none =>
    rw [held, Option.map_none] at entry
    generalize m.get? key = stored at entry
    cases entry
    simp
  | some handle =>
    obtain ⟨value, stored, -⟩ := shows.of_some held
    simp [stored]

theorem shows_empty (blank : α) : Shows Fits (empty blank : Holder p α) .empty :=
  ⟨PagedMap.wellFormed_empty, fun _ => .none⟩

/-- A container without keys shows the empty map, whatever it has dropped. -/
theorem shows_of_isEmpty (vacant : s.isEmpty = true) : Shows Fits s (.empty : PagedMap p σ) := by
  refine ⟨PagedMap.wellFormed_empty, fun key => ?_⟩
  have free : s.handle? key = none := (PagedMap.isEmpty_iff s.wellFormed).mp vacant key
  rw [free]
  exact .none

theorem Shows.isEmpty (shows : Shows Fits s m) : s.isEmpty = m.isEmpty := by
  rw [Bool.eq_iff_iff, Holder.isEmpty, PagedMap.isEmpty_iff s.wellFormed,
    PagedMap.isEmpty_iff shows.wellFormed]
  exact forall_congr' fun key => (shows.get?_eq_none_iff key).symm

theorem Shows.write (shows : Shows Fits s m) (held : s.handle? key = some handle) {object : α}
    {value : σ} (fits : Fits object value) :
    Shows Fits (s.write handle object) (m.insert key value) := by
  refine ⟨shows.wellFormed.insert key value, fun other => ?_⟩
  rw [handle?_write, PagedMap.get?_insert shows.wellFormed]
  by_cases same : key = other
  · rw [if_pos same, ← same, held, Option.map_some, object_write_self]
    exact .some fits
  · rw [if_neg same]
    have entry := shows.entry other
    cases there : s.handle? other with
    | none => rwa [there] at entry
    | some kept =>
      have different : handle ≠ kept := fun equal =>
        same (s.alone key other handle held (equal ▸ there))
      rw [there, Option.map_some] at entry
      rwa [Option.map_some, object_write_ne s object different]

theorem Shows.link (shows : Shows Fits s m) (key : UInt32) {object : α} {value : σ}
    (fits : Fits object value) : Shows Fits (s.link key object) (m.insert key value) := by
  refine ⟨shows.wellFormed.insert key value, fun other => ?_⟩
  rw [handle?_link, PagedMap.get?_insert shows.wellFormed]
  by_cases same : key = other
  · rw [if_pos same, if_pos same, Option.map_some, object_link_self]
    exact .some fits
  · rw [if_neg same, if_neg same]
    have entry := shows.entry other
    cases there : s.handle? other with
    | none => rwa [there] at entry
    | some kept =>
      rw [there, Option.map_some] at entry
      rwa [Option.map_some, object_link_made s key object (s.made other kept there)]

/-- What the object under a key has become does not matter once it is dropped. -/
theorem Shows.drop (shows : Shows Fits s m) (held : s.handle? key = some handle) (object : α) :
    Shows Fits ((s.write handle object).unlink key) (m.erase key) := by
  refine ⟨shows.wellFormed.erase key, fun other => ?_⟩
  rw [handle?_unlink, PagedMap.get?_erase shows.wellFormed]
  by_cases same : key = other
  · rw [if_pos same, if_pos same]
    exact .none
  · rw [if_neg same, if_neg same, handle?_write, object_unlink]
    have entry := shows.entry other
    cases there : s.handle? other with
    | none => rwa [there] at entry
    | some kept =>
      have different : handle ≠ kept := fun equal =>
        same (s.alone key other handle held (equal ▸ there))
      rw [there, Option.map_some] at entry
      rwa [Option.map_some, object_write_ne s object different]

/-- Both sides have the same next key along an axis. -/
theorem Shows.nextAlong? (shows : Shows Fits s m) (axis : Axis) (start : UInt64) :
    (s.handles.nextAlong? axis start).map Prod.fst = (m.nextAlong? axis start).map Prod.fst := by
  have keys : s.handles.toList.map Prod.fst = m.toList.map Prod.fst := by
    have asymm : ∀ a b : UInt32, a < b → ¬ b < a := fun _ _ => UInt32.lt_asymm
    refine Sorted.eq_of_mem_iff asymm
      (List.pairwise_map.mpr (PagedMap.pairwise_toList s.wellFormed))
      (List.pairwise_map.mpr (PagedMap.pairwise_toList shows.wellFormed)) fun key => ?_
    have free := shows.get?_eq_none_iff key
    simp only [List.mem_map, Prod.exists, exists_and_right, exists_eq_right,
      PagedMap.mem_toList s.wellFormed, PagedMap.mem_toList shows.wellFormed,
      ← Option.isSome_iff_exists, ← Option.ne_none_iff_isSome]
    exact (not_congr free).symm
  have selected : ∀ {β : Type} (entries : List (UInt32 × β)),
      ((entries.filter fun entry =>
          axis.admits entry.1 && decide (start ≤ entry.1.toUInt64)).head?).map Prod.fst =
        ((entries.map Prod.fst).filter fun key =>
          axis.admits key && decide (start ≤ key.toUInt64)).head? := by
    intro β entries
    rw [List.filter_map, List.head?_map]
    rfl
  rw [PagedMap.nextAlong?_eq s.wellFormed, PagedMap.nextAlong?_eq shows.wellFormed, selected,
    selected, keys]

/-- Sets under a key on both sides. -/
theorem Shows.setIn (shows : Shows Fits s m) (key : UInt32) {blank : α} {void : σ}
    (set : α → Bool × α) (set' : σ → Bool × σ) (clean : Fits blank void)
    (fresh : (set' void).1 = true)
    (same : ∀ {object value}, Fits object value →
      (set object).1 = (set' value).1 ∧ Fits (set object).2 (set' value).2) :
    (s.setIn key blank set).1 = (set' ((m.get? key).getD void)).1 ∧
      Shows Fits (s.setIn key blank set).2
        (m.insert key (set' ((m.get? key).getD void)).2) := by
  rw [Holder.setIn]
  cases held : s.handle? key with
  | some handle =>
    obtain ⟨value, stored, fits⟩ := shows.of_some held
    rw [stored, Option.getD_some]
    exact ⟨(same fits).1, shows.write held (same fits).2⟩
  | none =>
    rw [(shows.get?_eq_none_iff key).mpr held, Option.getD_none]
    exact ⟨fresh.symm, shows.link key (same clean).2⟩

/-- Clears under a key on both sides. -/
theorem Shows.clearIn (shows : Shows Fits s m) (held : s.handle? key = some handle) {value : σ}
    (stored : m.get? key = some value) (clear : α → Bool × α) (clear' : σ → Bool × σ)
    {isEmpty : α → Bool} {isEmpty' : σ → Bool}
    (same : ∀ {object value}, Fits object value →
      (clear object).1 = (clear' value).1 ∧ Fits (clear object).2 (clear' value).2)
    (vacant : ∀ {object value}, Fits object value → isEmpty object = isEmpty' value) :
    (s.clearIn key clear isEmpty).1 = (clear' value).1 ∧
      Shows Fits (s.clearIn key clear isEmpty).2
        (if isEmpty' (clear' value).2 then m.erase key else m.insert key (clear' value).2) := by
  obtain ⟨value', stored', fits⟩ := shows.of_some held
  obtain rfl : value' = value := Option.some.inj (stored'.symm.trans stored)
  obtain ⟨answered, after⟩ := same fits
  rw [Holder.clearIn, held]
  refine ⟨answered, ?_⟩
  dsimp only
  rw [vacant after]
  split
  · exact shows.drop held _
  · exact shows.write held after

end Shows

end TripleCube.Holder
