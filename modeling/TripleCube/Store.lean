import TripleCube.Dictionary.Basic
import TripleCube.Grid.CubeSearch

/-! The triple store: a dictionary of nodes, and a cube with a cell for each triple. The
subject's index is on `x`, the predicate's on `y` and the object's on `z`. -/
namespace TripleCube

structure Store (p : PageSize) where
  dictionary : Dictionary
  cube : Cube p

namespace Store

variable [Compression] {p : PageSize}

def empty (config : Config) : Store config.cubePageSize := ⟨.empty config, .empty⟩

/-- The indices of a triple's nodes, which are stored where they are new. What was stored
before a failure stays. -/
def resolve (s : Store p) (t : Triple) : Except Error Voxel × Store p :=
  match s.dictionary.resolve t.subject with
  | .error e => (.error e, s)
  | .ok (x, d) =>
    match d.resolve t.predicate with
    | .error e => (.error e, { s with dictionary := d })
    | .ok (y, d) =>
      match d.resolve t.object with
      | .error e => (.error e, { s with dictionary := d })
      | .ok (z, d) => (.ok ⟨x, y, z⟩, { s with dictionary := d })

/-- Adds a triple, and tells whether it is new. -/
def add (s : Store p) (t : Triple) : Except Error Bool × Store p :=
  if t.isConcrete then
    match s.resolve t with
    | (.error e, s) => (.error e, s)
    | (.ok ⟨x, y, z⟩, s) =>
      match s.cube.insert x y z with
      | .error e => (.error e, s)
      | .ok (added, cube) => (.ok added, { s with cube })
  else (.error (.invalidArgument (.wildcardTriple t.toString)), s)

/-- The cell of a triple, if all its nodes are stored. -/
def cell? (s : Store p) (t : Triple) : Except Error (Option Voxel) :=
  if t.isConcrete then do
    let x ← s.dictionary.indexOf? t.subject
    let y ← s.dictionary.indexOf? t.predicate
    let z ← s.dictionary.indexOf? t.object
    return match x, y, z with
      | some x, some y, some z => some ⟨x, y, z⟩
      | _, _, _ => none
  else .error (.invalidArgument (.openTriple t.toString))

/-- Removes a triple, and tells whether it was there. Nodes stay stored. -/
def remove (s : Store p) (t : Triple) : Except Error (Bool × Store p) := do
  match ← s.cell? t with
  | none => return (false, s)
  | some ⟨x, y, z⟩ =>
    let (removed, cube) ← s.cube.remove x y z
    return (removed, { s with cube })

def contains (s : Store p) (t : Triple) : Except Error Bool := do
  match ← s.cell? t with
  | none => return false
  | some ⟨x, y, z⟩ => s.cube.contains x y z

/-- The coordinate of one position of a pattern. No node and the wildcard node match all;
for a node that is not stored there is none. -/
def coordinate? (s : Store p) : Option Node → Except Error (Option Int32)
  | none | some .any => .ok (some wild)
  | some node => s.dictionary.indexOf? node

/-- A search in progress; a pattern with a node that is not stored has no cells to search. -/
structure Search where
  cells : Option Cube.Search
  deriving DecidableEq

/-- Opens a search. -/
def search (s : Store p) (subject predicate object : Option Node) : Except Error Search := do
  let x ← s.coordinate? subject
  let y ← s.coordinate? predicate
  let z ← s.coordinate? object
  match x, y, z with
  | some x, some y, some z => return ⟨some (← s.cube.search x y z)⟩
  | _, _, _ => return ⟨none⟩

/-- The triple of a cell. Nodes are looked up in the order of the axes until one fails. -/
def lookup (s : Store p) (v : Voxel) : Except Error Triple × Store p :=
  match s.dictionary.lookup v.x with
  | (.error e, d) => (.error e, { s with dictionary := d })
  | (.ok subject, d) =>
    match d.lookup v.y with
    | (.error e, d) => (.error e, { s with dictionary := d })
    | (.ok predicate, d) =>
      match d.lookup v.z with
      | (.error e, d) => (.error e, { s with dictionary := d })
      | (.ok object, d) => (.ok ⟨subject, predicate, object⟩, { s with dictionary := d })

/-- One step: the next cell of the cube, as a triple or as the error of looking it up. -/
def Search.next (s : Store p) (search : Search) :
    Option (Except Error Triple) × Store p × Search :=
  match search.cells with
  | none => (none, s, search)
  | some cells =>
    match Traversal.next s.cube cells with
    | (none, _, cells) => (none, s, ⟨some cells⟩)
    | (some voxel, _, cells) =>
      let (item, s) := s.lookup voxel
      (some item, s, ⟨some cells⟩)

instance : Traversal (Store p) Search (Except Error Triple) where
  next s search := search.next s
  settle s search := ⟨search.cells.map (Traversal.settle s.cube)⟩

/-- The triples that match a pattern, in the order of the search. -/
def find (s : Store p) (subject predicate object : Option Node) :
    Except Error (List (Except Error Triple)) × Store p :=
  match s.search subject predicate object with
  | .error e => (.error e, s)
  | .ok search =>
    let (items, s, _) := Traversal.drain s.cube.cardinality s search
    (.ok items, s)

/-- The cube's element counter, or zero when it has drifted below. -/
def size (s : Store p) : Nat := s.cube.counter.toInt.toNat

def isEmpty (s : Store p) : Bool := s.cube.isEmpty

def close (s : Store p) : Store p := { s with dictionary := s.dictionary.close }

end Store

end TripleCube
