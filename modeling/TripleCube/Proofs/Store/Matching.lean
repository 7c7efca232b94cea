import TripleCube.Proofs.Gzip.Stored
import TripleCube.Proofs.Snapshot.Reload
import TripleCube.Proofs.Store.Ledger

/-! What searches find. The nodes of a pattern become coordinates, the cells that match come in
the order of the cube, and their coordinates become nodes again. Seen from the ledger that is a
filter of its triples, in the order in which their nodes came first. -/
namespace TripleCube

/-- Whether a position of a pattern admits a node. The wildcard node, or none, admits them all. -/
def Node.Agrees (pattern : Option Node) (node : Node) : Prop :=
  pattern.getD .any = .any ∨ node = pattern.getD .any

/-- Whether a triple agrees with a pattern. -/
def Triple.Agrees (subject predicate object : Option Node) (t : Triple) : Prop :=
  Node.Agrees subject t.subject ∧ Node.Agrees predicate t.predicate ∧ Node.Agrees object t.object

namespace NodeList

/-- The order of a search: by the place of the object in the list, then of the predicate, then of
the subject. -/
def Before (nodes : NodeList) (a b : Triple) : Prop :=
  nodes.idxOf a.object < nodes.idxOf b.object ∨ nodes.idxOf a.object = nodes.idxOf b.object ∧
    (nodes.idxOf a.predicate < nodes.idxOf b.predicate ∨
      nodes.idxOf a.predicate = nodes.idxOf b.predicate ∧
        nodes.idxOf a.subject < nodes.idxOf b.subject)

instance (nodes : NodeList) (a b : Triple) : Decidable (nodes.Before a b) :=
  inferInstanceAs (Decidable (_ ∨ _))

variable {nodes : NodeList}

theorem asymm_before (a b : Triple) (less : nodes.Before a b) : ¬ nodes.Before b a := by
  rw [Before] at less ⊢
  omega

theorem index_lt_iff (small : nodes.length ≤ 2 ^ 31) {a b : Node} (la : a ∈ nodes)
    (lb : b ∈ nodes) : nodes.index a < nodes.index b ↔ nodes.idxOf a < nodes.idxOf b := by
  rw [Int32.lt_iff_toInt_lt, index, index, toInt_ofNat (idxOf_lt small la),
    toInt_ofNat (idxOf_lt small lb), Int.ofNat_lt]

theorem index_eq_iff (small : nodes.length ≤ 2 ^ 31) {a b : Node} (la : a ∈ nodes)
    (lb : b ∈ nodes) : nodes.index a = nodes.index b ↔ nodes.idxOf a = nodes.idxOf b :=
  ⟨ofNat_inj (idxOf_lt small la) (idxOf_lt small lb), congrArg Int32.ofNat⟩

/-- Cells are found in the order of their triples. -/
theorem before_iff (small : nodes.length ≤ 2 ^ 31) {a b : Triple} (la : nodes.Lists a)
    (lb : nodes.Lists b) :
    nodes.Before a b ↔ Cube.Precedes (nodes.voxelOf a) (nodes.voxelOf b) := by
  obtain ⟨as, ap, ao⟩ := lists_iff.mp la
  obtain ⟨bs, bp, bo⟩ := lists_iff.mp lb
  simp only [Before, Cube.Precedes, voxelOf, index_lt_iff small ao bo, index_eq_iff small ao bo,
    index_lt_iff small ap bp, index_eq_iff small ap bp, index_lt_iff small as bs]

variable {pattern : Option Node}

/-- The coordinate that is sought agrees with the indices of the nodes that are admitted. -/
theorem agrees_index_iff (small : nodes.length ≤ 2 ^ 31) {x : Int32}
    (sought : nodes.sought? pattern = some x) {node : Node} (listed : node ∈ nodes) :
    Axis.Agrees x (nodes.index node) ↔ Node.Agrees pattern node := by
  rw [sought?] at sought
  rw [Axis.Agrees, Node.Agrees]
  split at sought
  · next unbound =>
    cases sought
    exact iff_of_true (Or.inl rfl) (Or.inl unbound)
  · next named =>
    obtain ⟨known, same⟩ := Option.ite_none_right_eq_some.mp sought
    cases same
    have concrete : nodes.index (pattern.getD .any) ≠ wild := fun isWild =>
      absurd (isWild ▸ index_nonneg small known) (by decide)
    rw [or_iff_right concrete, or_iff_right named]
    exact ⟨index_injective small listed known, congrArg nodes.index⟩

/-- Where a listed node is admitted, there is a coordinate to seek. -/
theorem exists_sought {node : Node} (listed : node ∈ nodes) (agrees : Node.Agrees pattern node) :
    ∃ x, nodes.sought? pattern = some x := by
  rw [sought?]
  split
  · exact ⟨_, rfl⟩
  · next named =>
    obtain rfl := agrees.resolve_left named
    exact ⟨_, if_pos listed⟩

theorem agrees_voxelOf_iff (small : nodes.length ≤ 2 ^ 31) {subject predicate object : Option Node}
    {x y z : Int32} (atX : nodes.sought? subject = some x) (atY : nodes.sought? predicate = some y)
    (atZ : nodes.sought? object = some z) {t : Triple} (lists : nodes.Lists t) :
    (Axis.Agrees x (nodes.voxelOf t).x ∧ Axis.Agrees y (nodes.voxelOf t).y ∧
        Axis.Agrees z (nodes.voxelOf t).z) ↔ t.Agrees subject predicate object := by
  obtain ⟨ls, lp, lo⟩ := lists_iff.mp lists
  exact and_congr (agrees_index_iff small atX ls)
    (and_congr (agrees_index_iff small atY lp) (agrees_index_iff small atZ lo))

end NodeList

/-- A search with a valid pattern opens before the voxels that agree with it, in order. -/
theorem Cube.Represents.opens {p : PageSize} {c : Cube p} {voxels : Finset Voxel}
    (represents : c.Represents voxels) {x y z : Int32} (gx : wild ≤ x) (gy : wild ≤ y)
    (gz : wild ≤ z) :
    ∃ search found, c.search x y z = .ok search ∧ search.place.Valid search.pattern ∧
      (Place.remaining c search.pattern search.place).map voxelOf = found ∧
      found.Pairwise Precedes ∧ ∀ v, v ∈ found ↔
        v ∈ voxels ∧ Axis.Agrees x v.x ∧ Axis.Agrees y v.y ∧ Axis.Agrees z v.z := by
  refine ⟨_, _, search_eq c gx gy gz, valid_opening c _,
    congrArg (List.map voxelOf) (remaining_opening represents.wf _), ?_,
    fun v => represents.mem_matching⟩
  have ascending := represents.pairwise_voxels
  rw [voxels_eq] at ascending
  exact ascending.sublist (List.filter_sublist.map voxelOf)

/-- Voxels of triples are the voxels of a list of these triples. -/
theorem NodeList.exists_map_voxelOf {nodes : NodeList} {triples : Finset Triple}
    {voxels : List Voxel} (within : ∀ v ∈ voxels, v ∈ nodes.voxels triples) :
    ∃ found : List Triple, voxels = found.map nodes.voxelOf ∧ ∀ t ∈ found, t ∈ triples := by
  induction voxels with
  | nil => exact ⟨[], rfl, fun _ member => absurd member List.not_mem_nil⟩
  | cons v rest ih =>
    rw [List.forall_mem_cons] at within
    obtain ⟨t, stored, rfl⟩ := Finset.mem_image.mp within.1
    obtain ⟨found, rfl, others⟩ := ih within.2
    exact ⟨t :: found, rfl, List.forall_mem_cons.mpr ⟨stored, others⟩⟩

/-- A listed node has a key. -/
theorem Dictionary.Represents.storable [Compression] {d : Dictionary} {nodes : NodeList}
    (represents : d.Represents nodes) {node : Node} (listed : node ∈ nodes) : node.Storable := by
  obtain ⟨position, lt, rfl⟩ := List.mem_iff_getElem.mp listed
  obtain ⟨_, r, _, stores⟩ := represents.exists_record (List.getElem?_eq_getElem lt)
  exact stores.storable

namespace Store

variable [Compression] {p : PageSize} {s : Store p} {l : Ledger}

/-- Where a search stands: it has no cells, or valid ones, which it has still to look up. -/
inductive Stands (l : Ledger) (s : Store p) : Search → List (Except Error Triple) → Prop
  | nowhere (represents : s.Represents l) : Stands l s ⟨none⟩ []
  | at (represents : s.Represents l) {cells : Cube.Search}
    (valid : cells.place.Valid cells.pattern) :
    Stands l s ⟨some cells⟩ (((Cube.Place.remaining s.cube cells.pattern cells.place).map
      Cube.voxelOf).map l.nodes.tripleOf)

/-- Each step of a search looks the next of its cells up. -/
theorem follows (l : Ledger) : Traversal.Follows (Stands l : Store p → _) where
  answer := by
    rintro s _ _ (represents | ⟨represents, valid⟩)
    · rfl
    · obtain ⟨cache, moved, _⟩ := represents.next _
      rw [moved, List.head?_map]
      exact congrArg (Option.map l.nodes.tripleOf)
        ((Cube.Place.lists represents.cube.represents.wf).answer _ valid)
  tail := by
    rintro s _ _ (represents | ⟨represents, valid⟩)
    · exact .nowhere represents
    · have lists := Cube.Place.lists represents.cube.represents.wf
      obtain ⟨cache, moved, still⟩ := represents.next _
      rw [moved, ← List.map_tail, ← lists.tail _ valid]
      exact .at still (lists.valid _ valid)

/-- A stored triple is not refused. -/
theorem Represents.check_eq_ok (represents : s.Represents l) {t : Triple} (stored : t ∈ l.triples) :
    t.check = .ok () := by
  have lists := represents.listed t stored
  obtain ⟨subject, predicate, object⟩ := NodeList.lists_iff.mp lists
  have named := fun {node : Node} (listed : node ∈ l.nodes) =>
    ne_of_mem_of_not_mem listed represents.dictionary.named
  have concrete : t.isConcrete = true :=
    Triple.isConcrete_iff.mpr ⟨named subject, named predicate, named object⟩
  exact Triple.check_eq_ok concrete fun node member =>
    represents.dictionary.storable (lists node member)

theorem Represents.contains_iff (represents : s.Represents l) (t : Triple) :
    s.contains t = .ok true ↔ t ∈ l.triples := by
  rw [represents.contains]
  constructor
  · intro told
    cases checked : t.check with
    | error e =>
      rw [checked] at told
      cases told
    | ok _ =>
      rw [checked] at told
      exact of_decide_eq_true (Except.ok.inj told)
  · intro stored
    rw [represents.check_eq_ok stored]
    exact congrArg Except.ok (decide_eq_true stored)

variable {subject predicate object : Option Node}

/-- Voxels that agree with the coordinates sought are the triples that agree with the pattern. -/
theorem Represents.triplesOf (represents : s.Represents l) {x y z : Int32}
    (atX : l.nodes.sought? subject = some x) (atY : l.nodes.sought? predicate = some y)
    (atZ : l.nodes.sought? object = some z) {voxels : List Voxel}
    (ascending : voxels.Pairwise Cube.Precedes)
    (mem : ∀ v, v ∈ voxels ↔ v ∈ l.nodes.voxels l.triples ∧
      Axis.Agrees x v.x ∧ Axis.Agrees y v.y ∧ Axis.Agrees z v.z) :
    ∃ found : List Triple, voxels.map l.nodes.tripleOf = found.map .ok ∧
      found.Pairwise l.nodes.Before ∧
        ∀ t, t ∈ found ↔ t ∈ l.triples ∧ t.Agrees subject predicate object := by
  have small := represents.dictionary.length_le
  have agree := fun {t : Triple} => NodeList.agrees_voxelOf_iff (t := t) small atX atY atZ
  obtain ⟨found, rfl, stored⟩ :=
    NodeList.exists_map_voxelOf fun v member => ((mem v).mp member).1
  have lists := fun t member => represents.listed t (stored t member)
  refine ⟨found, ?_, ?_, fun t => ⟨fun member => ?_, ?_⟩⟩
  · rw [List.map_map]
    exact List.map_congr_left fun t member => NodeList.tripleOf_voxelOf small (lists t member)
  · rw [List.pairwise_map] at ascending
    exact ascending.imp_of_mem fun first second =>
      (NodeList.before_iff small (lists _ first) (lists _ second)).mpr
  · have agrees := ((mem _).mp (List.mem_map_of_mem member)).2
    exact ⟨stored t member, (agree (lists t member)).mp agrees⟩
  · rintro ⟨held, agrees⟩
    have listed := represents.listed t held
    obtain ⟨other, member, same⟩ := List.mem_map.mp ((mem _).mpr
      ⟨(NodeList.mem_voxels small represents.listed listed).mpr held, (agree listed).mpr agrees⟩)
    exact NodeList.voxelOf_injective small (lists other member) listed same ▸ member

/-- Where a stored triple agrees with a pattern, each position has a coordinate to search for. -/
theorem Represents.exists_coordinates (represents : s.Represents l) {t : Triple}
    (stored : t ∈ l.triples) (agrees : t.Agrees subject predicate object) :
    ∃ x y z, l.nodes.sought? subject = some x ∧ l.nodes.sought? predicate = some y ∧
      l.nodes.sought? object = some z := by
  obtain ⟨ls, lp, lo⟩ := NodeList.lists_iff.mp (represents.listed t stored)
  obtain ⟨x, atX⟩ := NodeList.exists_sought ls agrees.1
  obtain ⟨y, atY⟩ := NodeList.exists_sought lp agrees.2.1
  obtain ⟨z, atZ⟩ := NodeList.exists_sought lo agrees.2.2
  exact ⟨x, y, z, atX, atY, atZ⟩

/-- A search whose nodes are not refused opens before the triples that agree with them. -/
theorem Represents.opens (represents : s.Represents l)
    (checked : Node.checkAll [subject.getD .any, predicate.getD .any, object.getD .any] = .ok ()) :
    ∃ (search : Search) (found : List Triple), s.search subject predicate object = .ok search ∧
      Stands l s search (found.map .ok) ∧ found.Pairwise l.nodes.Before ∧
        ∀ t, t ∈ found ↔ t ∈ l.triples ∧ t.Agrees subject predicate object := by
  have valid {pattern : Option Node} {x : Int32} (sought : l.nodes.sought? pattern = some x) :
      wild ≤ x := NodeList.wild_le_of_sought? represents.dictionary.length_le sought
  rw [represents.search_eq, checked, Except.bind]
  split
  · next x y z atX atY atZ =>
    obtain ⟨cells, voxels, opened, stands, rfl, ascending, mem⟩ :=
      represents.cube.represents.opens (valid atX) (valid atY) (valid atZ)
    obtain ⟨found, looked, ordered, agree⟩ := represents.triplesOf atX atY atZ ascending mem
    rw [opened]
    exact ⟨⟨some cells⟩, found, rfl, looked ▸ .at represents stands, ordered, agree⟩
  · next nowhere =>
    refine ⟨⟨none⟩, [], rfl, .nowhere represents, .nil, fun t =>
      ⟨fun member => absurd member List.not_mem_nil, ?_⟩⟩
    rintro ⟨stored, agrees⟩
    obtain ⟨x, y, z, atX, atY, atZ⟩ := represents.exists_coordinates stored agrees
    exact (nowhere x y z atX atY atZ).elim

/-- What a search finds: each stored triple that agrees with the pattern, once, in the order of
the nodes. It leaves the store as it was but for the cache. -/
structure Finds (s : Store p) (l : Ledger) (subject predicate object : Option Node)
    (found : List Triple) : Prop where
  yields : ∃ search, s.search subject predicate object = .ok search ∧
    Traversal.Yields s search (found.map .ok)
  collected : (s.find subject predicate object).1 = .ok (found.map .ok)
  kept : ∃ cache, (s.find subject predicate object).2 =
    { s with dictionary := { s.dictionary with cache } }
  mem : ∀ t, t ∈ found ↔ s.contains t = .ok true ∧ t.Agrees subject predicate object
  nodup : found.Nodup
  ordered : found.Pairwise l.nodes.Before
  indexed : ∀ node ∈ l.nodes, s.dictionary.indexOf? node = .ok (some (l.nodes.index node))
  unknown : ∀ pattern ∈ [subject, predicate, object],
    s.dictionary.indexOf? (pattern.getD .any) = .ok none → found = []

/-- Listed nodes are stored under their places in the list. -/
theorem Represents.indexOf?_listed (represents : s.Represents l) {node : Node}
    (listed : node ∈ l.nodes) :
    s.dictionary.indexOf? node = .ok (some (l.nodes.index node)) := by
  have named := ne_of_mem_of_not_mem listed represents.dictionary.named
  rw [represents.indexOf? named, Node.check, represents.dictionary.storable listed, if_pos listed]
  rfl

/-- A position with a node that is not stored admits no listed node. -/
theorem Represents.not_agrees (represents : s.Represents l) {pattern : Option Node}
    (unknown : s.dictionary.indexOf? (pattern.getD .any) = .ok none) {node : Node}
    (listed : node ∈ l.nodes) : ¬ Node.Agrees pattern node := by
  rintro (unbound | rfl)
  · rw [unbound, Dictionary.indexOf?_any represents.dictionary.isOpen] at unknown
    cases unknown
  · rw [represents.indexOf?_listed listed] at unknown
    cases unknown

theorem Represents.finds (represents : s.Represents l)
    (checked : Node.checkAll [subject.getD .any, predicate.getD .any, object.getD .any] = .ok ()) :
    ∃ found, s.Finds l subject predicate object found := by
  obtain ⟨search, found, opened, stands, ordered, mem⟩ := represents.opens checked
  have nodup := Sorted.nodup NodeList.asymm_before ordered
  have few : (found.map Except.ok : List (Except Error Triple)).length ≤ s.cube.cardinality := by
    rw [List.length_map, represents.cube.represents.cardinality,
      NodeList.card_voxels represents.dictionary.length_le represents.listed,
      ← List.toFinset_card_of_nodup nodup]
    exact Finset.card_le_card fun t member => ((mem t).mp (List.mem_toFinset.mp member)).1
  refine ⟨found, ⟨search, opened, (follows l).yields stands⟩, ?_, ?_, fun t => ?_, nodup, ordered,
    fun node listed => represents.indexOf?_listed listed, fun pattern position unknown => ?_⟩
  · rw [Store.find, opened]
    exact congrArg Except.ok
      (((follows l).drain_fst stands _).trans (List.take_of_length_le few))
  · obtain ⟨cache, kept, _⟩ := represents.drain s.cube.cardinality search
    rw [Store.find, opened]
    exact ⟨cache, kept⟩
  · rw [mem, represents.contains_iff]
  · refine List.eq_nil_iff_forall_not_mem.mpr fun t member => ?_
    obtain ⟨held, agreesX, agreesY, agreesZ⟩ := (mem t).mp member
    obtain ⟨ls, lp, lo⟩ := NodeList.lists_iff.mp (represents.listed t held)
    simp only [List.mem_cons, List.not_mem_nil, or_false] at position
    obtain rfl | rfl | rfl := position
    · exact represents.not_agrees unknown ls agreesX
    · exact represents.not_agrees unknown lp agreesY
    · exact represents.not_agrees unknown lo agreesZ

end Store

namespace Store

/-- A history in which the object that was seen first has the greater name. -/
def objectHistory : List Call :=
  let gone : Triple := ⟨.uri "s", .uri "q", .uri "o1"⟩
  [.add ⟨.uri "s", .uri "p", .uri "o2"⟩, .add ⟨.uri "p", .uri "p", .uri "s"⟩, .add gone,
    .add ⟨.uri "s", .uri "p", .uri "o1"⟩, .remove gone]

end Store

end TripleCube
