import TripleCube.Cache
import TripleCube.Config
import TripleCube.Record.Basic

/-! The dictionary: nodes get indices in the order in which they are first seen. It keeps a
record for each index, the index of each canonical key, and a cache of decoded nodes, which
decides nothing. The wildcard node has the wildcard index and is never stored. -/
namespace TripleCube

structure Dictionary where
  config : Config
  records : Array NodeRecord
  byContent : Assoc (List UInt8) Int32
  cache : Cache Int32 Node
  closed : Bool

namespace Dictionary

variable [Compression]

def empty (config : Config) : Dictionary :=
  ⟨config, #[], [], .ofCapacity config.cacheSize, false⟩

def ensureOpen (d : Dictionary) : Except Error Unit :=
  if d.closed then .error (.invalidState .closed) else .ok ()

/-- The index of the wildcard node. -/
def wildIndex : Int32 := NodeRecord.unassigned

/-- One more than the greatest index. -/
def maxCount : Nat := 1 <<< 31

/-- Stores a node under the next index. -/
def intern (d : Dictionary) (node : Node) (key : List UInt8) :
    Except Error (Int32 × Dictionary) := do
  let r ← NodeRecord.encode node NodeRecord.unassigned d.config.threshold
  if d.records.size < maxCount then
    let index := Int32.ofNat d.records.size
    let r ← r.setIndex index
    return (index,
      { d with records := d.records.push r, byContent := d.byContent.insert key index })
  else .error (.invalidState .full)

/-- The index of a node, which is stored if it is new. -/
def resolve (d : Dictionary) (node : Node) : Except Error (Int32 × Dictionary) := do
  d.ensureOpen
  if node.isAny then return (wildIndex, d)
  else
    let key ← NodeRecord.nodeKey node
    match d.byContent.find? key with
    | some index => return (index, d)
    | none => d.intern node key

/-- The index of a node, if it is stored. -/
def indexOf? (d : Dictionary) (node : Node) : Except Error (Option Int32) := do
  d.ensureOpen
  if node.isAny then return some wildIndex
  else return d.byContent.find? (← NodeRecord.nodeKey node)

def record (d : Dictionary) (index : Int32) : Except Error NodeRecord := do
  d.ensureOpen
  if index < 0 then .error (.indexNotFound index)
  else match d.records[index.toInt.toNat]? with
    | some r => return r
    | none => .error (.indexNotFound index)

/-- The node at an index. A cached node is taken from the cache, and a node that was decoded
goes there; a failure leaves nothing but a miss. -/
def lookup (d : Dictionary) (index : Int32) : Except Error Node × Dictionary :=
  match d.ensureOpen with
  | .error e => (.error e, d)
  | .ok _ =>
    if index = wildIndex then (.ok .any, d)
    else
      match d.cache.get? index with
      | (some node, cache) => (.ok node, { d with cache })
      | (none, cache) =>
        let d := { d with cache }
        match d.record index >>= NodeRecord.decode with
        | .error e => (.error e, d)
        | .ok node => (.ok node, { d with cache := cache.insert index node })

def count (d : Dictionary) : Nat := d.records.size

def isEmpty (d : Dictionary) : Bool := d.count == 0

/-- Closes the dictionary and drops the cache. Afterwards only counts can be asked for. -/
def close (d : Dictionary) : Dictionary :=
  if d.closed then d else { d with cache := d.cache.clear, closed := true }

end Dictionary

end TripleCube
