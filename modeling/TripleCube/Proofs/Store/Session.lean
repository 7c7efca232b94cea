import TripleCube.Dictionary.Stream
import TripleCube.Proofs.Grid.Alike
import TripleCube.Proofs.Store.Ledger

/-! Sessions over a store. Besides the calls on triples its owner can call the dictionary and the
cube by themselves, and searches for triples and for voxels are open meanwhile. -/
namespace TripleCube.Store

variable [Compression] {p : PageSize}

/-- What can be asked of a store besides a search. -/
inductive Request
  | call (call : Call)
  | dictionary (call : Dictionary.Call)
  | record (index : Int32)
  | cacheReads
  | isClosed
  | stream (sink : Sink)
  | cube (request : Cube.Request)
  | close

inductive Response
  | answer (answer : Answer)
  | dictionary (answer : Dictionary.Answer)
  | record (outcome : Except Error NodeRecord)
  | cacheReads (hits misses : Nat)
  | isClosed (closed : Bool)
  | stream (outcome : Except Error Sink)
  | cube (response : Cube.Response)
  | closed

def respond (s : Store p) : Request → Response × Store p
  | .call call => (.answer (s.step call).1, (s.step call).2)
  | .dictionary call =>
    let step := s.dictionary.step call
    (.dictionary step.1, { s with dictionary := step.2 })
  | .record index => (.record (s.dictionary.record index), s)
  | .cacheReads => (.cacheReads s.dictionary.cache.hits s.dictionary.cache.misses, s)
  | .isClosed => (.isClosed s.dictionary.closed, s)
  | .stream sink => (.stream (s.dictionary.write sink), s)
  | .cube request =>
    let step := s.cube.respond request
    (.cube step.1, { s with cube := step.2 })
  | .close => (.closed, s.close)

/-- A search for triples, or one for voxels of the cube. -/
inductive Reader
  | triples (search : Search)
  | voxels (search : Cube.Search)

inductive Reader.Pattern
  | triples (subject predicate object : Option Node)
  | voxels (x y z : Int32)

inductive Reader.Item
  | triple (outcome : Except Error Triple)
  | voxel (v : Voxel)

instance : Traversal (Store p) Reader Reader.Item where
  next s reader :=
    match reader with
    | .triples search =>
      let (item, s, search) := Traversal.next s search
      (item.map .triple, s, .triples search)
    | .voxels search =>
      let (v, cube, search) := Traversal.next s.cube search
      (v.map .voxel, { s with cube }, .voxels search)
  settle s reader :=
    match reader with
    | .triples search => .triples (Traversal.settle s search)
    | .voxels search => .voxels (Traversal.settle s.cube search)

instance : Interactive (Store p) Reader Request Response Reader.Pattern where
  call := respond
  start s pattern :=
    match pattern with
    | .triples subject predicate object => (s.search subject predicate object).map .triples
    | .voxels x y z => (s.cube.search x y z).map .voxels

end TripleCube.Store
