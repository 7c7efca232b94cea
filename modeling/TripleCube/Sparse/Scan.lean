import TripleCube.Sparse.PagedMap
import TripleCube.Sparse.BitSet
import TripleCube.Live

/-! Step-by-step scans of maps and sets. A scan remembers only the next position to look
at, so it sees whatever is stored ahead of it at the time of a step. -/
namespace TripleCube

/-- The next position to look at; none once the scan has reported its end. -/
structure Scan where
  position : Option UInt64
  deriving DecidableEq

namespace Scan

def start : Scan := ⟨some 0⟩

/-- One step: the first item at or past the position, and a scan that stands behind it. -/
def advance {ι : Type} (scan : Scan) (first? : UInt64 → Option ι) (index : ι → UInt32) :
    Option ι × Scan :=
  match scan.position with
  | none => (none, scan)
  | some position =>
    match first? position with
    | some item => (some item, ⟨some ((index item).toUInt64 + 1)⟩)
    | none => (none, ⟨none⟩)

end Scan

instance {p : PageSize} : Traversal (BitSet p) Scan UInt32 where
  next s scan :=
    let (item, scan) := scan.advance s.next? id
    (item, s, scan)
  settle _ scan := scan

namespace PagedMap

/-- What a scan of a map reports of each entry. -/
inductive Part
  | entries
  | values
  | indices
  deriving DecidableEq

inductive Item (α : Type)
  | entry (index : UInt32) (value : α)
  | value (value : α)
  | index (index : UInt32)
  deriving DecidableEq

/-- A scan of a map with the part of each entry that it reports. -/
structure Reader where
  part : Part
  scan : Scan
  deriving DecidableEq

namespace Reader

variable {p : PageSize} {α : Type}

def start (part : Part) : Reader := ⟨part, .start⟩

def next (m : PagedMap p α) (reader : Reader) : Option (Item α) × Reader :=
  match reader.part with
  | .entries =>
    let (item, scan) := reader.scan.advance m.nextEntry? Prod.fst
    (item.map fun (index, value) => .entry index value, { reader with scan })
  | .values =>
    let (item, scan) := reader.scan.advance m.nextEntry? Prod.fst
    (item.map fun (_, value) => .value value, { reader with scan })
  | .indices =>
    let (item, scan) := reader.scan.advance m.nextIndex? id
    (item.map .index, { reader with scan })

end Reader

end PagedMap

instance {p : PageSize} {α : Type} :
    Traversal (PagedMap p α) PagedMap.Reader (PagedMap.Item α) where
  next m reader :=
    let (item, reader) := PagedMap.Reader.next m reader
    (item, m, reader)
  settle _ reader := reader

end TripleCube
