import TripleCube.Sparse.PageSize
import TripleCube.Sparse.PageTable
import TripleCube.Sparse.Words
import TripleCube.Total

/-! Sets of 32-bit indices, stored in pages of bits. As with maps, the table lists
exactly the pages that hold something. -/
namespace TripleCube

/-- One page: its bits, and a count of those that are set. -/
structure BitPage where
  words : Words
  ones : Nat
  deriving DecidableEq

namespace BitPage

def blank (p : PageSize) : BitPage := ⟨.zeros p.slots, 0⟩

/-- Sets or clears a bit and tells whether that changed it. -/
def assign (page : BitPage) (slot : Nat) (value : Bool) : Bool × BitPage :=
  if page.words.get slot = value then (false, page)
  else if value then (true, ⟨page.words.set slot, page.ones + 1⟩)
  else (true, ⟨page.words.clear slot, page.ones - 1⟩)

end BitPage

/-- A sparse set whose pages have `p` bits. -/
structure BitSet (p : PageSize) where
  pages : PageTable BitPage
  deriving DecidableEq

namespace BitSet

variable {p : PageSize}

def empty : BitSet p := ⟨[]⟩

def contains (s : BitSet p) (index : UInt32) : Bool :=
  match s.pages.find? (p.offset index) with
  | some page => page.words.get (p.slot index)
  | none => false

def isEmpty (s : BitSet p) : Bool := s.pages.isEmpty

/-- How many indices are in the set: the sum of the pages' counts. -/
def size (s : BitSet p) : Nat := total (fun entry => entry.2.ones) s.pages

def pageCount (s : BitSet p) : Nat := s.pages.length

/-- Puts an index in or takes it out, and tells whether that changed the set.
Taking out of a page that does not exist creates nothing. -/
def assign (s : BitSet p) (index : UInt32) (value : Bool) : Bool × BitSet p :=
  let offset := p.offset index
  match s.pages.find? offset, value with
  | none, false => (false, s)
  | page?, value =>
    let (changed, page) := (page?.getD (.blank p)).assign (p.slot index) value
    let pages := if page.ones = 0 then s.pages.unlink offset else s.pages.link offset page
    (changed, ⟨pages⟩)

def set (s : BitSet p) (index : UInt32) : Bool × BitSet p := s.assign index true

def clear (s : BitSet p) (index : UInt32) : Bool × BitSet p := s.assign index false

/-- The least member at or past a position. -/
def next? (s : BitSet p) (start : UInt64) : Option UInt32 :=
  (s.pages.startingAt (p.startOffset start)).findSome? fun (offset, page) =>
    (page.words.nextSet? (p.startSlot offset start)).map (p.index offset)

/-- All members in ascending order. -/
def toList (s : BitSet p) : List UInt32 :=
  s.pages.flatMap fun (offset, page) => page.words.toList.map (p.index offset)

end BitSet

end TripleCube
