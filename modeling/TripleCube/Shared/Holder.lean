import TripleCube.Proofs.Sparse.PagedMap

/-! Containers that share what they hold. A container has the handles of its objects under
keys, and a handle may be kept elsewhere too. An object changes in place, for all who hold it.
When a container drops one it is no longer found there, but it is still there for those who
hold it; what comes under the same key later is another object with another handle. -/
namespace TripleCube

/-- Tells an object from all others, for good. -/
abbrev Handle := Nat

structure Holder (p : PageSize) (α : Type) where
  handles : PagedMap p Handle
  object : Handle → α
  /-- The handle of the object that is made next. -/
  next : Handle
  wellFormed : handles.WellFormed
  made : ∀ key handle, handles.get? key = some handle → handle < next
  alone : ∀ key other handle,
    handles.get? key = some handle → handles.get? other = some handle → key = other

namespace Holder

variable {p : PageSize} {α : Type}

/-- Holds nothing. Handles that are not given out yet read as `blank`. -/
def empty (blank : α) : Holder p α where
  handles := .empty
  object _ := blank
  next := 0
  wellFormed := PagedMap.wellFormed_empty
  made _ _ held := by cases held
  alone _ _ _ held := by cases held

def handle? (s : Holder p α) (key : UInt32) : Option Handle := s.handles.get? key

def isEmpty (s : Holder p α) : Bool := s.handles.isEmpty

/-- Changes an object in place. -/
def write (s : Holder p α) (handle : Handle) (value : α) : Holder p α :=
  { s with object := fun other => if handle = other then value else s.object other }

/-- Makes an object and holds it under a key. -/
def link (s : Holder p α) (key : UInt32) (value : α) : Holder p α where
  handles := s.handles.insert key s.next
  object other := if s.next = other then value else s.object other
  next := s.next + 1
  wellFormed := s.wellFormed.insert key s.next
  made other handle held := by
    rw [PagedMap.get?_insert s.wellFormed] at held
    split at held
    · cases held
      exact Nat.lt_succ_self _
    · exact Nat.lt_succ_of_lt (s.made other handle held)
  alone first second handle held again := by
    rw [PagedMap.get?_insert s.wellFormed] at held again
    split at held <;> split at again
    · next here there => exact here.symm.trans there
    · cases held
      exact absurd (s.made second _ again) (Nat.lt_irrefl _)
    · cases again
      exact absurd (s.made first _ held) (Nat.lt_irrefl _)
    · exact s.alone first second handle held again

/-- Drops the object under a key. -/
def unlink (s : Holder p α) (key : UInt32) : Holder p α where
  handles := s.handles.erase key
  object := s.object
  next := s.next
  wellFormed := s.wellFormed.erase key
  made other handle held := by
    rw [PagedMap.get?_erase s.wellFormed, Option.ite_none_left_eq_some] at held
    exact s.made other handle held.2
  alone first second handle held again := by
    rw [PagedMap.get?_erase s.wellFormed, Option.ite_none_left_eq_some] at held again
    exact s.alone first second handle held.2 again.2

/-- Sets something in the object under a key, and tells whether that changed it. Where there is
no object, one is made of `blank`. -/
def setIn (s : Holder p α) (key : UInt32) (blank : α) (set : α → Bool × α) : Bool × Holder p α :=
  match s.handle? key with
  | some handle =>
    let (changed, object) := set (s.object handle)
    (changed, s.write handle object)
  | none =>
    let (_, object) := set blank
    (true, s.link key object)

/-- Clears something in the object under a key, and tells whether that changed it. An object
that is empty then is dropped. -/
def clearIn (s : Holder p α) (key : UInt32) (clear : α → Bool × α) (isEmpty : α → Bool) :
    Bool × Holder p α :=
  match s.handle? key with
  | none => (false, s)
  | some handle =>
    let (changed, object) := clear (s.object handle)
    let s := s.write handle object
    (changed, if isEmpty object then s.unlink key else s)

end Holder

end TripleCube
