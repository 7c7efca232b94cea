import TripleCube.Sparse.PageSize
import TripleCube.Sparse.PageTable
import TripleCube.Total

/-! Maps from 32-bit indices to values, stored in pages. A page comes into being with
the first write into its range and goes with its last value, so the table lists
exactly the pages that hold something. -/
namespace TripleCube

/-- One page: a slot for each of its indices, and a count of the filled ones. -/
structure Slots (α : Type) where
  slots : List (Option α)
  occupied : Nat
  deriving DecidableEq

namespace Slots

variable {α β : Type}

def blank (p : PageSize) : Slots α := ⟨List.replicate p.slots none, 0⟩

def get? (page : Slots α) (slot : Nat) : Option α := page.slots[slot]?.join

/-- Writes a slot and returns what it held. -/
def store (page : Slots α) (slot : Nat) (value : Option α) : Option α × Slots α :=
  let previous := page.get? slot
  let occupied := match previous, value with
    | none, some _ => page.occupied + 1
    | some _, none => page.occupied - 1
    | _, _ => page.occupied
  (previous, ⟨page.slots.set slot value, occupied⟩)

/-- The first answer of `f` along filled slots; the first slot listed has number `slot`. -/
def findFrom? : List (Option α) → (slot : Nat) → (f : Nat → α → Option β) → Option β
  | [], _, _ => none
  | none :: rest, slot, f => findFrom? rest (slot + 1) f
  | some value :: rest, slot, f => (f slot value).or (findFrom? rest (slot + 1) f)

/-- The filled slots in ascending order; the first slot listed has number `slot`. -/
def filledFrom : List (Option α) → (slot : Nat) → List (Nat × α)
  | [], _ => []
  | none :: rest, slot => filledFrom rest (slot + 1)
  | some value :: rest, slot => (slot, value) :: filledFrom rest (slot + 1)

end Slots

/-- A sparse map whose pages have `p` slots. -/
structure PagedMap (p : PageSize) (α : Type) where
  pages : PageTable (Slots α)
  deriving DecidableEq

namespace PagedMap

variable {p : PageSize} {α β : Type}

def empty : PagedMap p α := ⟨[]⟩

def get? (m : PagedMap p α) (index : UInt32) : Option α :=
  (m.pages.find? (p.offset index)).bind (·.get? (p.slot index))

def contains (m : PagedMap p α) (index : UInt32) : Bool := (m.get? index).isSome

def isEmpty (m : PagedMap p α) : Bool := m.pages.isEmpty

/-- How many values are stored: the sum of the pages' counts. -/
def size (m : PagedMap p α) : Nat := total (fun entry => entry.2.occupied) m.pages

def pageCount (m : PagedMap p α) : Nat := m.pages.length

/-- Stores a value, or removes one when `value` is `none`, and returns what was there.
Removing from a page that does not exist creates nothing. -/
def put (m : PagedMap p α) (index : UInt32) (value : Option α) : Option α × PagedMap p α :=
  let offset := p.offset index
  match m.pages.find? offset, value with
  | none, none => (none, m)
  | page?, value =>
    let (previous, page) := (page?.getD (.blank p)).store (p.slot index) value
    let pages := if page.occupied = 0 then m.pages.unlink offset else m.pages.link offset page
    (previous, ⟨pages⟩)

def insert (m : PagedMap p α) (index : UInt32) (value : α) : PagedMap p α :=
  (m.put index (some value)).2

def erase (m : PagedMap p α) (index : UInt32) : PagedMap p α := (m.put index none).2

/-- The first answer of `f` along the entries at or past a position, in ascending order. -/
def findFrom? (m : PagedMap p α) (start : UInt64) (f : UInt32 → α → Option β) : Option β :=
  (m.pages.startingAt (p.startOffset start)).findSome? fun (offset, page) =>
    let first := p.startSlot offset start
    Slots.findFrom? (page.slots.drop first) first fun slot value => f (p.index offset slot) value

/-- The first entry at or past a position. -/
def nextEntry? (m : PagedMap p α) (start : UInt64) : Option (UInt32 × α) :=
  m.findFrom? start fun index value => some (index, value)

/-- The first occupied index at or past a position. -/
def nextIndex? (m : PagedMap p α) (start : UInt64) : Option UInt32 :=
  m.findFrom? start fun index _ => some index

/-- All entries in ascending order. -/
def toList (m : PagedMap p α) : List (UInt32 × α) :=
  m.pages.flatMap fun (offset, page) =>
    (Slots.filledFrom page.slots 0).map fun (slot, value) => (p.index offset slot, value)

end PagedMap

end TripleCube
