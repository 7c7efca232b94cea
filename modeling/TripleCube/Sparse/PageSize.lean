/-! The arithmetic of pages. An index space of 32 bits is cut into pages of equal
size; a page is named by its offset, and an index lies at one slot of one page.
Scan positions have 64 bits, so that one past the last index is a position too. -/
namespace TripleCube

/-- How many indices a page covers. There is no empty page. -/
structure PageSize where
  val : UInt32
  pos : 0 < val
  deriving DecidableEq

namespace PageSize

/-- The page size of containers that are not told otherwise. -/
def standard : PageSize := ⟨4096, by decide⟩

/-- What is said of a container that is to have pages of no size. -/
def zeroMessage : String := "page size must be greater than zero"

/-- Refuses zero. -/
def ofUInt32? (size : UInt32) : Option PageSize :=
  if h : 0 < size then some ⟨size, h⟩ else none

/-- The page size nearest to `size`: zero is raised to one. -/
def clamp (size : UInt32) : PageSize :=
  if h : 0 < size then ⟨size, h⟩ else ⟨1, by decide⟩

def slots (p : PageSize) : Nat := p.val.toNat

/-- The page that covers an index. -/
def offset (p : PageSize) (index : UInt32) : UInt32 := index / p.val

/-- Where an index lies within its page. -/
def slot (p : PageSize) (index : UInt32) : Nat := (index % p.val).toNat

/-- The first index of a page. The product of two 32-bit words fits the 64-bit result. -/
def base (p : PageSize) (offset : UInt32) : UInt64 := offset.toUInt64 * p.val.toUInt64

/-- The index at a slot of a page. The last page may reach past the index space; its
surplus slots have no index and are never filled. -/
def index (p : PageSize) (offset : UInt32) (slot : Nat) : UInt32 :=
  (p.base offset + slot.toUInt64).toUInt32

/-- The page in which a scan from a position begins. -/
def startOffset (p : PageSize) (start : UInt64) : UInt64 := start / p.val.toUInt64

/-- The first slot of a page that a scan from a position looks at. -/
def startSlot (p : PageSize) (offset : UInt32) (start : UInt64) : Nat :=
  if p.base offset ≤ start then (start - p.base offset).toNat else 0

theorem slots_pos (p : PageSize) : 0 < p.slots := by
  have := p.pos
  simpa [slots, UInt32.lt_iff_toNat_lt] using this

theorem slot_lt (p : PageSize) (index : UInt32) : p.slot index < p.slots := by
  simp only [slot, slots, UInt32.toNat_mod]
  exact Nat.mod_lt _ p.slots_pos

end PageSize

end TripleCube
