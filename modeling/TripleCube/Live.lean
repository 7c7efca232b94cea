import TripleCube.Assoc

/-! Containers that are read step by step while they change. A container and the
cursors open over it are values; `Live` keeps them together, so that every write is
seen by every cursor. -/
namespace TripleCube

/-- How cursors `κ` read a container `σ`. `next` yields an item or the end; reading may
leave traces in the container. `settle` is what a write does to a cursor: it leaves the
parts of the container that the write has dropped. -/
class Traversal (σ κ : Type) (ι : outParam Type) where
  next : σ → κ → Option ι × σ × κ
  settle : σ → κ → κ

/-- The items of at most `limit` steps. -/
def Traversal.drain {σ κ ι : Type} [Traversal σ κ ι] : (limit : Nat) → σ → κ → List ι × σ × κ
  | 0, subject, cursor => ([], subject, cursor)
  | limit + 1, subject, cursor =>
    match Traversal.next subject cursor with
    | (none, subject, cursor) => ([], subject, cursor)
    | (some item, subject, cursor) =>
      let (items, subject, cursor) := drain limit subject cursor
      (item :: items, subject, cursor)

/-- A container with the cursors open over it, by their numbers. -/
structure Live (σ κ : Type) where
  subject : σ
  cursors : Assoc Int κ

namespace Live

variable {σ κ ι : Type}

/-- A container over which nothing is open. -/
def of (subject : σ) : Live σ κ := ⟨subject, []⟩

/-- Opens a cursor, in place of an older one of the same number. -/
def openCursor (live : Live σ κ) (number : Int) (cursor : κ) : Live σ κ :=
  { live with cursors := live.cursors.insert number cursor }

/-- The container after a write. -/
def write [Traversal σ κ ι] (live : Live σ κ) (subject : σ) : Live σ κ :=
  ⟨subject, live.cursors.mapValues (Traversal.settle subject)⟩

/-- Advances a cursor; `none` if there is none of that number. -/
def next [Traversal σ κ ι] (live : Live σ κ) (number : Int) :
    Option (Option ι) × Live σ κ :=
  match live.cursors.find? number with
  | none => (none, live)
  | some cursor =>
    let (item, subject, cursor) := Traversal.next live.subject cursor
    (some item, ⟨subject, live.cursors.insert number cursor⟩)

end Live

end TripleCube
