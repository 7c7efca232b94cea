import TripleCube.Gzip.Compression
import TripleCube.Store

/-! One-line descriptions of the containers. They show sizes and page counts, not contents. -/
namespace TripleCube

/-- A name with its fields, in braces. -/
def describeFields (name : String) (fields : List (String × String)) : String :=
  let parts := fields.map fun (field, value) => s!"{field}: {value}"
  let body := ", ".intercalate parts
  s!"{name} \x7b {body} \x7d"

/-- A check in progress does not show its register. -/
def Crc.State.describe (_ : Crc.State) : String := "Hasher"

variable {p : PageSize}

def BitSet.describe (s : BitSet p) : String :=
  describeFields "SparseBitSet" [("page_size", toString p.val), ("pages", toString s.pageCount)]

def PagedMap.describe {α : Type} (m : PagedMap p α) : String :=
  describeFields "SparsePagedMap" [("page_size", toString p.val), ("pages", toString m.pageCount)]

def Matrix.describe (m : Matrix p) : String :=
  describeFields "BitMatrix" [("page_size", toString p.val), ("rows", m.rows.describe)]

def Cube.describe (c : Cube p) : String :=
  describeFields "BitCube"
    [("page_size", toString p.val), ("size", toString c.counter), ("planes", c.planes.describe)]

def Dictionary.describe (d : Dictionary) : String :=
  describeFields "EntityDictionary"
    [("count", toString d.count), ("cached", toString d.cache.size), ("closed", toString d.closed)]

def Store.describe (s : Store p) : String :=
  describeFields "TripleStore"
    [("dictionary", s.dictionary.describe), ("cube", s.cube.describe)]

end TripleCube
