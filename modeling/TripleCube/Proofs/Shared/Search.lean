import TripleCube.Proofs.Shared.Holder
import TripleCube.Shared.Search

/-! Searches of shared objects against searches that keep a place in a map. The one goes round a
loop and holds the handle of an object; the other looks up its place in the map anew, and leaves
it when a write drops what is there. Both answer alike, whatever is written in between. -/
namespace TripleCube

/-- The places of a search along a map: within a value, before the values from a position on, and
at the end. -/
structure Spots (l π : Type) where
  within : UInt32 → l → π
  before : UInt64 → π
  finished : π

namespace Spots

variable {p : PageSize} {σ l π ι : Type}

/-- Steps that come to what one turn of a loop after the other comes to. -/
structure Walk (spots : Spots l π) (probe : Probe σ l ι) (m : PagedMap p σ) (axis : Axis)
    (step : π → Option ι × π) : Prop where
  finished : step spots.finished = (none, spots.finished)
  ends : ∀ start, m.nextAlong? axis start = none →
    step (spots.before start) = (none, spots.finished)
  enters : ∀ start key value, m.nextAlong? axis start = some (key, value) →
    step (spots.before start) = step (spots.within key probe.first)
  hits : ∀ key value place item rest, m.get? key = some value →
    probe.look key value place = (some item, rest) →
    step (spots.within key place) =
      (some item, rest.elim (spots.before (key.toUInt64 + 1)) (spots.within key))
  leaves : ∀ key value place, m.get? key = some value → (probe.look key value place).1 = none →
    step (spots.within key place) = step (spots.before (key.toUInt64 + 1))

/-- What a write that leaves a map does to places. -/
structure Settles (spots : Spots l π) (m : PagedMap p σ) (inner : σ → l → l)
    (settle : π → π) : Prop where
  finished : settle spots.finished = spots.finished
  before : ∀ start, settle (spots.before start) = spots.before start
  within : ∀ key value place, m.get? key = some value →
    settle (spots.within key place) = spots.within key (inner value place)
  gone : ∀ key place, m.get? key = none →
    settle (spots.within key place) = spots.before (key.toUInt64 + 1)

end Spots

namespace Holder

section Search

variable {p : PageSize} {α σ κ l π ι : Type}

/-- How a search within a shared object goes along with one within a value that the object
fits. `At` has the object, and the places of both. -/
structure Follows (probe : Probe α κ ι) (plain : Probe σ l ι) (isEmpty : α → Bool)
    (settle : σ → l → l) (Fits : α → σ → Prop) (Moves : α → α → Prop)
    (At : α → κ → l → Prop) : Prop where
  still : ∀ object, Moves object object
  first : ∀ {object value}, Fits object value → At object probe.first plain.first
  look : ∀ {object value place spot} key, Fits object value → At object place spot →
    (probe.look key object place).1 = (plain.look key value spot).1 ∧
      Option.Rel (At object) (probe.look key object place).2 (plain.look key value spot).2
  settled : ∀ {object moved value place spot}, At object place spot → Moves object moved →
    Fits moved value → At moved place (settle value spot)
  emptied : ∀ {object moved place spot}, At object place spot → Moves object moved →
    isEmpty moved = true → ∃ spot', At moved place spot'
  idle : ∀ {object place spot} key, At object place spot → isEmpty object = true →
    (probe.look key object place).1 = none

/-- A cursor with the place that it stands for. If it holds an object, that is held under its
key too, or it was dropped, and then the place is behind it. -/
inductive Stands (isEmpty : α → Bool) (At : α → κ → l → Prop) (spots : Spots l π)
    (s : Holder p α) : Cursor κ → π → Prop
  | finished {c : Cursor κ} (ended : c.done = true) :
    Stands isEmpty At spots s c spots.finished
  | between {c : Cursor κ} (going : c.done = false) (free : c.held = none) :
    Stands isEmpty At spots s c (spots.before c.start)
  | within {c : Cursor κ} {key : UInt32} {handle : Handle} {place : κ} {spot : l}
    (going : c.done = false) (held : c.held = some (key, handle, place))
    (behind : c.start = key.toUInt64 + 1) (linked : s.handle? key = some handle)
    (stands : At (s.object handle) place spot) :
    Stands isEmpty At spots s c (spots.within key spot)
  | left {c : Cursor κ} {key : UInt32} {handle : Handle} {place : κ} {spot : l}
    (going : c.done = false) (held : c.held = some (key, handle, place))
    (behind : c.start = key.toUInt64 + 1) (dropped : Dropped isEmpty s handle)
    (stands : At (s.object handle) place spot) :
    Stands isEmpty At spots s c (spots.before (key.toUInt64 + 1))

variable {probe : Probe α κ ι} {plain : Probe σ l ι} {isEmpty : α → Bool} {inner : σ → l → l}
  {Fits : α → σ → Prop} {Moves : α → α → Prop} {At : α → κ → l → Prop} {spots : Spots l π}
  {s s' : Holder p α} {m m' : PagedMap p σ} {c : Cursor κ} {place : π}
  {step : π → Option ι × π} {settle : π → π}

theorem Stands.of_done (stands : Stands isEmpty At spots s c place) (ended : c.done = true) :
    place = spots.finished := by
  cases stands with
  | finished => rfl
  | between going | within going | left going => exact absurd (going.symm.trans ended) (by decide)

theorem Stands.of_none (stands : Stands isEmpty At spots s c place) (going : c.done = false)
    (free : c.held = none) : place = spots.before c.start := by
  cases stands with
  | finished ended => exact absurd (going.symm.trans ended) (by decide)
  | between => rfl
  | within _ held | left _ held => exact absurd (free.symm.trans held) (Option.some_ne_none _).symm

theorem Stands.of_some (stands : Stands isEmpty At spots s c place) (going : c.done = false)
    {key : UInt32} {handle : Handle} {within : κ} (holds : c.held = some (key, handle, within)) :
    c.start = key.toUInt64 + 1 ∧ ∃ spot, At (s.object handle) within spot ∧
      (s.handle? key = some handle ∧ place = spots.within key spot ∨
        Dropped isEmpty s handle ∧ place = spots.before c.start) := by
  cases stands with
  | finished ended => exact absurd (going.symm.trans ended) (by decide)
  | between _ free => exact absurd (free.symm.trans holds) (Option.some_ne_none _).symm
  | within _ held behind linked stands =>
    cases held.symm.trans holds
    exact ⟨behind, _, stands, Or.inl ⟨linked, rfl⟩⟩
  | left _ held behind dropped stands =>
    cases held.symm.trans holds
    exact ⟨behind, _, stands, Or.inr ⟨dropped, congrArg spots.before behind.symm⟩⟩

/-- The object that a cursor holds is held under its key too, or it was dropped and is empty. -/
theorem Stands.linked_or_dropped (stands : Stands isEmpty At spots s c place)
    (going : c.done = false) {key : UInt32} {handle : Handle} {within : κ}
    (holds : c.held = some (key, handle, within)) :
    s.handle? key = some handle ∨ Dropped isEmpty s handle := by
  obtain ⟨-, _, -, ⟨linked, -⟩ | ⟨dropped, -⟩⟩ := stands.of_some going holds
  · exact Or.inl linked
  · exact Or.inr dropped

theorem stands_opening (axis : Axis) (done : Bool) :
    Stands isEmpty At spots s (.opening axis done)
      (if done then spots.finished else spots.before axis.start) := by
  cases done with
  | true => exact .finished rfl
  | false => exact .between rfl rfl

theorem Cursor.axis_next (probe : Probe α κ ι) (s : Holder p α) (c : Cursor κ) :
    (c.next probe s).2.axis = c.axis := by
  fun_induction Cursor.next probe s c <;> simp_all

theorem Shows.next_of_none (shows : Shows Fits s m) {axis : Axis} {start position : UInt64}
    (found : s.along? axis start = (none, position)) : m.nextAlong? axis start = none := by
  have next := shows.nextAlong? axis start
  rw [← along?_fst, found, Option.map_none] at next
  exact Option.map_eq_none_iff.mp next.symm

theorem Shows.next_of_some (shows : Shows Fits s m) {axis : Axis} {start position : UInt64}
    {key : UInt32} {handle : Handle}
    (found : s.along? axis start = (some (key, handle), position)) :
    ∃ value, m.nextAlong? axis start = some (key, value) ∧ Fits (s.object handle) value := by
  have next := shows.nextAlong? axis start
  rw [← along?_fst, found, Option.map_some] at next
  obtain ⟨⟨_, value⟩, entry, rfl⟩ := Option.map_eq_some_iff.mp next.symm
  obtain ⟨value', stored, fits⟩ := shows.of_some (along?_some found).1
  have there := (PagedMap.nextAlong?_eq_some shows.wellFormed entry).1
  obtain rfl : value' = value := Option.some.inj (stored.symm.trans there)
  exact ⟨value', entry, fits⟩

/-- The turns of the loop, one after the other, come to one step. -/
theorem Stands.next (follows : Follows probe plain isEmpty inner Fits Moves At)
    (shows : Shows Fits s m) (walk : spots.Walk plain m c.axis step)
    (stands : Stands isEmpty At spots s c place) :
    (c.next probe s).1 = (step place).1 ∧
      Stands isEmpty At spots s (c.next probe s).2 (step place).2 := by
  -- Along the turns: one that goes on leaves the cursor at a place from which the step is the same.
  fun_induction Cursor.next probe s c generalizing place with
  | case1 c ended =>
    rw [stands.of_done ended, walk.finished]
    exact ⟨rfl, .finished ended⟩
  | case2 c going free key handle start found ih =>
    rw [Bool.not_eq_true] at going
    obtain ⟨linked, -, rfl⟩ := along?_some found
    obtain ⟨value, next, fits⟩ := shows.next_of_some found
    rw [stands.of_none going free, walk.enters _ key value next]
    exact ih walk (.within going rfl rfl linked (follows.first fits))
  | case3 c going free start found ih =>
    rw [Bool.not_eq_true] at going
    rw [stands.of_none going free, walk.ends _ (shows.next_of_none found), ← walk.finished]
    exact ih walk (.finished rfl)
  | case4 c going key handle place held item rest found =>
    rw [Bool.not_eq_true] at going
    obtain ⟨behind, spot, within, ⟨linked, rfl⟩ | ⟨dropped, -⟩⟩ := stands.of_some going held
    · obtain ⟨value, stored, fits⟩ := shows.of_some linked
      obtain ⟨answer, rests⟩ := follows.look key fits within
      rw [found] at answer rests
      obtain ⟨rest', looked⟩ : ∃ rest', plain.look key value spot = (some item, rest') :=
        ⟨_, Prod.ext answer.symm rfl⟩
      rw [looked] at rests
      rw [walk.hits key value spot item rest' stored looked]
      refine ⟨rfl, ?_⟩
      cases rests with
      | none => exact behind ▸ .between going rfl
      | some still => exact .within going rfl behind linked still
    · -- What was dropped has no items.
      have idle := follows.idle key within dropped.vacant
      rw [found] at idle
      cases idle
  | case5 c going key handle place held rest found ih =>
    rw [Bool.not_eq_true] at going
    obtain ⟨behind, spot, within, ⟨linked, rfl⟩ | ⟨-, rfl⟩⟩ := stands.of_some going held
    · obtain ⟨value, stored, fits⟩ := shows.of_some linked
      have answer := (follows.look key fits within).1
      rw [found] at answer
      rw [walk.leaves key value spot stored answer.symm, ← behind]
      exact ih walk (.between going rfl)
    · exact ih walk (.between going rfl)

/-- Whatever a write does, the cursor stands for the settled place. -/
theorem Stands.change (follows : Follows probe plain isEmpty inner Fits Moves At)
    (shows : Shows Fits s' m') (settles : spots.Settles m' inner settle)
    (change : Change Moves isEmpty s s') (stands : Stands isEmpty At spots s c place) :
    Stands isEmpty At spots s' c (settle place) := by
  cases stands with
  | finished ended =>
    rw [settles.finished]
    exact .finished ended
  | between going free =>
    rw [settles.before]
    exact .between going free
  | within going held behind linked stands =>
    obtain ⟨moves, still | ⟨free, dropped⟩⟩ := change.held follows.still linked
    · obtain ⟨value, stored, fits⟩ := shows.of_some still
      rw [settles.within _ value _ stored]
      exact .within going held behind still (follows.settled stands moves fits)
    · obtain ⟨_, left⟩ := follows.emptied stands moves dropped.vacant
      rw [settles.gone _ _ ((shows.get?_eq_none_iff _).mpr free)]
      exact .left going held behind dropped left
  | left going held behind dropped stands =>
    rw [settles.before]
    rw [← change.object_dropped dropped] at stands
    exact .left going held behind (dropped.change change) stands

end Search

end Holder

end TripleCube
