import Mathlib.Data.Finset.Card
import TripleCube.Grid.Axis
import TripleCube.Grid.Cell
import TripleCube.Proofs.Dictionary.NodeList

/-! Triples as cells. A node list gives each triple of listed nodes a voxel of its own, which
stays the same while the list grows; so a set of triples is a set of voxels. -/
namespace TripleCube

theorem Node.isAny_iff {node : Node} : node.isAny = true ↔ node = .any := by
  cases node <;> simp [Node.isAny]

namespace Triple

/-- The nodes of a triple, in the order in which they are stored. -/
def nodes (t : Triple) : List Node := [t.subject, t.predicate, t.object]

theorem isConcrete_iff {t : Triple} :
    t.isConcrete = true ↔ t.subject ≠ .any ∧ t.predicate ≠ .any ∧ t.object ≠ .any := by
  rw [isConcrete, Bool.not_eq_true', Bool.or_eq_false_iff, Bool.or_eq_false_iff, and_assoc,
    ← Bool.not_eq_true, ← Bool.not_eq_true, ← Bool.not_eq_true, Node.isAny_iff, Node.isAny_iff,
    Node.isAny_iff]

end Triple

namespace NodeList

/-- Whether all nodes of a triple are listed. -/
def Lists (nodes : NodeList) (t : Triple) : Prop := ∀ node ∈ t.nodes, node ∈ nodes

instance (nodes : NodeList) (t : Triple) : Decidable (nodes.Lists t) :=
  inferInstanceAs (Decidable (∀ node ∈ t.nodes, node ∈ nodes))

/-- The cell of a triple whose nodes are listed. -/
def voxelOf (nodes : NodeList) (t : Triple) : Voxel :=
  ⟨nodes.index t.subject, nodes.index t.predicate, nodes.index t.object⟩

/-- The triple of a cell, or the error of looking for the first of its nodes that is missing. -/
def tripleOf (nodes : NodeList) (v : Voxel) : Except Error Triple := do
  let subject ← nodes.lookup v.x
  let predicate ← nodes.lookup v.y
  let object ← nodes.lookup v.z
  return ⟨subject, predicate, object⟩

/-- The coordinate to search for at a position of a pattern, if there is one. -/
def sought? (nodes : NodeList) (pattern : Option Node) : Option Int32 :=
  if pattern.getD .any = .any then some wild
  else if pattern.getD .any ∈ nodes then some (nodes.index (pattern.getD .any))
  else none

variable {nodes : NodeList}

theorem lists_iff {t : Triple} :
    nodes.Lists t ↔ t.subject ∈ nodes ∧ t.predicate ∈ nodes ∧ t.object ∈ nodes := by
  simp [Lists, Triple.nodes]

theorem idxOf_lt (small : nodes.length ≤ 2 ^ 31) {node : Node} (listed : node ∈ nodes) :
    nodes.idxOf node < 2 ^ 31 :=
  Nat.lt_of_lt_of_le (List.idxOf_lt_length_of_mem listed) small

theorem index_nonneg (small : nodes.length ≤ 2 ^ 31) {node : Node} (listed : node ∈ nodes) :
    0 ≤ nodes.index node := ofNat_nonneg (idxOf_lt small listed)

theorem index_injective (small : nodes.length ≤ 2 ^ 31) {a b : Node} (la : a ∈ nodes)
    (lb : b ∈ nodes) (same : nodes.index a = nodes.index b) : a = b :=
  (List.idxOf_inj la).mp (ofNat_inj (idxOf_lt small la) (idxOf_lt small lb) same)

theorem at?_index (small : nodes.length ≤ 2 ^ 31) {node : Node} (listed : node ∈ nodes) :
    nodes.at? (nodes.index node) = some node := by
  rw [at?, if_neg (not_lt_zero (index_nonneg small listed)), index,
    toInt_ofNat (idxOf_lt small listed), Int.toNat_natCast]
  exact List.getElem?_idxOf listed

/-- A listed node is found at its index. -/
theorem lookup_index (small : nodes.length ≤ 2 ^ 31) {node : Node} (listed : node ∈ nodes) :
    nodes.lookup (nodes.index node) = .ok node := by
  have concrete : nodes.index node ≠ Dictionary.wildIndex := fun isWild =>
    absurd (isWild ▸ index_nonneg small listed) (by decide)
  rw [lookup, if_neg concrete, at?_index small listed]

theorem wild_le_of_sought? (small : nodes.length ≤ 2 ^ 31) {pattern : Option Node} {x : Int32}
    (sought : nodes.sought? pattern = some x) : wild ≤ x := by
  rw [sought?] at sought
  split at sought
  · cases sought
    exact Int32.le_refl wild
  · obtain ⟨listed, same⟩ := Option.ite_none_right_eq_some.mp sought
    cases same
    exact Int32.le_trans (by decide) (index_nonneg small listed)

theorem wild_le_of_indexOf? (small : nodes.length ≤ 2 ^ 31) {node : Node} {x : Int32}
    (known : nodes.indexOf? node = .ok (some x)) : wild ≤ x := by
  rw [indexOf?] at known
  split at known
  · cases known
    exact Int32.le_refl wild
  · split at known
    · cases known
    · rw [Except.ok.injEq, idxOf?_eq] at known
      split at known
      · next listed =>
        cases known
        exact Int32.le_trans (by decide) (index_nonneg small listed)
      · cases known

theorem voxelOf_nonneg (small : nodes.length ≤ 2 ^ 31) {t : Triple} (lists : nodes.Lists t) :
    0 ≤ (nodes.voxelOf t).x ∧ 0 ≤ (nodes.voxelOf t).y ∧ 0 ≤ (nodes.voxelOf t).z := by
  obtain ⟨subject, predicate, object⟩ := lists_iff.mp lists
  exact ⟨index_nonneg small subject, index_nonneg small predicate, index_nonneg small object⟩

/-- A triple of listed nodes is found in its cell. -/
theorem tripleOf_voxelOf (small : nodes.length ≤ 2 ^ 31) {t : Triple} (lists : nodes.Lists t) :
    nodes.tripleOf (nodes.voxelOf t) = .ok t := by
  obtain ⟨subject, predicate, object⟩ := lists_iff.mp lists
  rw [tripleOf, voxelOf, lookup_index small subject, lookup_index small predicate,
    lookup_index small object]
  rfl

theorem voxelOf_injective (small : nodes.length ≤ 2 ^ 31) {a b : Triple} (la : nodes.Lists a)
    (lb : nodes.Lists b) (same : nodes.voxelOf a = nodes.voxelOf b) : a = b := by
  obtain ⟨as, ap, ao⟩ := lists_iff.mp la
  obtain ⟨bs, bp, bo⟩ := lists_iff.mp lb
  obtain ⟨x, y, z⟩ := Voxel.mk.injEq .. ▸ same
  obtain ⟨subject, predicate, object⟩ := a
  rw [Triple.mk.injEq]
  exact ⟨index_injective small as bs x, index_injective small ap bp y,
    index_injective small ao bo z⟩

/-- A longer list keeps the indices. -/
theorem index_of_longer {longer : NodeList} (grows : nodes <+: longer) {node : Node}
    (listed : node ∈ nodes) : longer.index node = nodes.index node := by
  obtain ⟨new, rfl⟩ := grows
  rw [index, index, List.idxOf_append_of_mem listed]

theorem Lists.of_longer {longer : NodeList} (grows : nodes <+: longer) {t : Triple}
    (lists : nodes.Lists t) : longer.Lists t := fun node member => grows.mem (lists node member)

theorem voxelOf_of_longer {longer : NodeList} (grows : nodes <+: longer) {t : Triple}
    (lists : nodes.Lists t) : longer.voxelOf t = nodes.voxelOf t := by
  obtain ⟨subject, predicate, object⟩ := lists_iff.mp lists
  rw [voxelOf, voxelOf, index_of_longer grows subject, index_of_longer grows predicate,
    index_of_longer grows object]

/-- Resolving only adds to the list. -/
theorem resolve_grows (nodes : NodeList) (node : Node) : nodes <+: (nodes.resolve node).2 := by
  have outcome := nodes.resolution node
  generalize nodes.resolve node = answer at outcome ⊢
  cases outcome with
  | appended => exact List.prefix_append _ _
  | _ => exact List.prefix_refl _

/-- A node that was given an index is listed there. -/
theorem index_of_resolve {node : Node} (named : node ≠ .any) {index : Int32}
    (resolved : (nodes.resolve node).1 = .ok index) :
    node ∈ (nodes.resolve node).2 ∧ index = (nodes.resolve node).2.index node := by
  have outcome := nodes.resolution node
  generalize nodes.resolve node = answer at outcome resolved ⊢
  cases outcome with
  | wildcard isAny => exact absurd isAny named
  | refused | full => cases resolved
  | known _ listed =>
    cases resolved
    exact ⟨listed, rfl⟩
  | appended _ absent =>
    cases resolved
    refine ⟨List.mem_append_right _ (List.mem_singleton_self node), ?_⟩
    rw [NodeList.index, List.idxOf_append_of_notMem absent, List.idxOf_cons_self, Nat.add_zero]

/-- The voxels of triples. -/
def voxels (nodes : NodeList) (triples : Finset Triple) : Finset Voxel :=
  triples.image nodes.voxelOf

theorem voxels_insert (nodes : NodeList) (t : Triple) (triples : Finset Triple) :
    nodes.voxels (insert t triples) = insert (nodes.voxelOf t) (nodes.voxels triples) :=
  Finset.image_insert _ _ _

variable {triples : Finset Triple}

theorem voxels_of_longer {longer : NodeList} (grows : nodes <+: longer)
    (listed : ∀ t ∈ triples, nodes.Lists t) : longer.voxels triples = nodes.voxels triples :=
  Finset.image_congr fun t member => voxelOf_of_longer grows (listed t member)

theorem mem_voxels (small : nodes.length ≤ 2 ^ 31) (listed : ∀ t ∈ triples, nodes.Lists t)
    {t : Triple} (lists : nodes.Lists t) :
    nodes.voxelOf t ∈ nodes.voxels triples ↔ t ∈ triples := by
  rw [voxels, Finset.mem_image]
  constructor
  · rintro ⟨other, member, same⟩
    exact voxelOf_injective small (listed other member) lists same ▸ member
  · intro member
    exact ⟨t, member, rfl⟩

theorem voxels_erase (small : nodes.length ≤ 2 ^ 31) (listed : ∀ t ∈ triples, nodes.Lists t)
    {t : Triple} (lists : nodes.Lists t) :
    nodes.voxels (triples.erase t) = (nodes.voxels triples).erase (nodes.voxelOf t) := by
  ext v
  simp only [voxels, Finset.mem_image, Finset.mem_erase]
  constructor
  · rintro ⟨other, ⟨different, member⟩, rfl⟩
    exact ⟨fun same => different (voxelOf_injective small (listed other member) lists same),
      other, member, rfl⟩
  · rintro ⟨different, other, member, rfl⟩
    refine ⟨other, ⟨?_, member⟩, rfl⟩
    rintro rfl
    exact different rfl

theorem card_voxels (small : nodes.length ≤ 2 ^ 31) (listed : ∀ t ∈ triples, nodes.Lists t) :
    (nodes.voxels triples).card = triples.card :=
  Finset.card_image_of_injOn fun _ ma _ mb same =>
    voxelOf_injective small (listed _ ma) (listed _ mb) same

end NodeList

end TripleCube
