import TripleCube.Proofs.Grid.Layer
import TripleCube.Shared.Holder

/-! Searches of a container whose objects are searched in turn. A search keeps the handle of the
object that it stands in, and no write tells it anything: it goes on in that object also when the
container has dropped it. -/
namespace TripleCube

/-- How an object that is held under a key is searched. `look` gives the next item, and the place
from which the search goes on in the object if it does not leave it. -/
structure Probe (α κ ι : Type) where
  first : κ
  look : UInt32 → α → κ → Option ι × Option κ

namespace Holder

variable {p : PageSize} {α κ ι : Type}

/-- What is held at or past a position along an axis, and the position behind it. -/
def along? (s : Holder p α) (axis : Axis) (start : UInt64) :
    Option (UInt32 × Handle) × UInt64 :=
  match axis with
  | .only key =>
    if key.toUInt64 < start then (none, start)
    else ((s.handle? key).map (key, ·), key.toUInt64 + 1)
  | .any =>
    match s.handles.nextEntry? start with
    | none => (none, start)
    | some (key, handle) => (some (key, handle), key.toUInt64 + 1)

theorem along?_fst (s : Holder p α) (axis : Axis) (start : UInt64) :
    (s.along? axis start).1 = s.handles.nextAlong? axis start := by
  cases axis with
  | any =>
    have next : s.handles.nextAlong? .any start = s.handles.nextEntry? start := rfl
    rw [along?, next]
    cases s.handles.nextEntry? start <;> rfl
  | only key =>
    rw [along?, PagedMap.nextAlong?, PagedMap.findAlong?, handle?]
    by_cases passed : key.toUInt64 < start
    · rw [if_pos passed, if_neg (UInt64.not_le.mpr passed)]
    · rw [if_neg passed, if_pos (UInt64.not_lt.mp passed)]
      cases s.handles.get? key <;> rfl

theorem along?_some {s : Holder p α} {axis : Axis} {start position : UInt64} {key : UInt32}
    {handle : Handle} (found : s.along? axis start = (some (key, handle), position)) :
    s.handle? key = some handle ∧ start ≤ key.toUInt64 ∧ position = key.toUInt64 + 1 := by
  have next := s.along?_fst axis start
  rw [found] at next
  obtain ⟨held, -, reached⟩ := PagedMap.nextAlong?_eq_some s.wellFormed next.symm
  refine ⟨held, reached, ?_⟩
  cases axis with
  | any =>
    rw [along?] at found
    cases entry : s.handles.nextEntry? start with
    | none => simp [entry] at found
    | some entry' =>
      rw [entry] at found
      cases found
      rfl
  | only only =>
    rw [along?] at found
    split at found
    · simp at found
    · obtain ⟨some, rfl⟩ := Prod.mk.inj found
      obtain ⟨_, -, same⟩ := Option.map_eq_some_iff.mp some
      cases same
      rfl

/-- Where a search has come to. -/
structure Cursor (κ : Type) where
  axis : Axis
  /-- The position of the next object to look for. -/
  start : UInt64
  /-- The object that is searched, with its key and the place within it. -/
  held : Option (UInt32 × Handle × κ)
  done : Bool

namespace Cursor

/-- Stands before the first object along an axis. -/
def opening (axis : Axis) (done : Bool) : Cursor κ := ⟨axis, axis.start, none, done⟩

/-- Of two cursors that go on, the one that looks for objects from a later position ranks lower;
of two at one position, the one that stands in no object. -/
def rank (c : Cursor κ) : Nat :=
  if c.done then 0 else 2 * (UInt32.size - c.start.toNat) + (if c.held.isSome then 1 else 0) + 1

theorem rank_ended {c : Cursor κ} (going : ¬ c.done) (start : UInt64) :
    rank { c with start, done := true } < c.rank := by
  rw [rank, rank, if_pos rfl, if_neg going]
  exact Nat.succ_pos _

theorem rank_left {c : Cursor κ} (going : ¬ c.done) {held : UInt32 × Handle × κ}
    (within : c.held = some held) :
    ({ c with held := none } : Cursor κ).rank < c.rank := by
  rw [rank, rank, if_neg going, if_neg going, within]
  simp

theorem rank_entered {s : Holder p α} {c : Cursor κ} (going : ¬ c.done) (between : c.held = none)
    {key : UInt32} {handle : Handle} {start : UInt64}
    (found : s.along? c.axis c.start = (some (key, handle), start)) (place : κ) :
    rank { c with start, held := some (key, handle, place) } < c.rank := by
  obtain ⟨-, reached, rfl⟩ := along?_some found
  have small : key.toNat < UInt32.size := key.toNat_lt_size
  have wide : UInt32.size + 1 < 2 ^ 64 := by decide
  have one : (1 : UInt64).toNat = 1 := rfl
  rw [UInt64.le_iff_toNat_le, UInt32.toNat_toUInt64] at reached
  rw [rank, rank, if_neg going, if_neg going, between, UInt64.toNat_add, UInt32.toNat_toUInt64,
    Option.isSome_some, Option.isSome_none, if_pos rfl, if_neg Bool.false_ne_true]
  omega

/-- Moves to the next item: looks into the object that the cursor stands in, or takes up the next
one, until there is an item or no object is left. -/
def next (probe : Probe α κ ι) (s : Holder p α) (c : Cursor κ) : Option ι × Cursor κ :=
  if _ : c.done then (none, c)
  else
    match _ : c.held with
    | none =>
      match _ : s.along? c.axis c.start with
      | (some (key, handle), start) =>
        next probe s { c with start, held := some (key, handle, probe.first) }
      | (none, start) => next probe s { c with start, done := true }
    | some (key, handle, place) =>
      match probe.look key (s.object handle) place with
      | (some item, place) => (some item, { c with held := place.map (key, handle, ·) })
      | (none, _) => next probe s { c with held := none }
termination_by c.rank
decreasing_by
  · exact rank_entered ‹_› ‹_› ‹_› probe.first
  · exact rank_ended ‹_› start
  · exact rank_left ‹_› ‹_›

end Cursor

end Holder

end TripleCube
