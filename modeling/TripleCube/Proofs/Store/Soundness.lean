import TripleCube.Proofs.Store.Caching

/-! What holds of a store whatever is asked of it. Its cube can be written to by itself and its
dictionary be closed, so its cells need not be those of triples. But the dictionary, closed or not,
goes on storing the nodes of a list and the cube goes on being a set of voxels; and the voxels that
are written for triples are covered by that list. -/
namespace TripleCube

namespace NodeList

/-- Whether each coordinate of a voxel is an index of the list. -/
def Covers (nodes : NodeList) (v : Voxel) : Prop :=
  v.x.toInt < nodes.length ∧ v.y.toInt < nodes.length ∧ v.z.toInt < nodes.length

variable {nodes longer : NodeList} {v : Voxel}

theorem Covers.of_longer (grows : nodes <+: longer) (covers : nodes.Covers v) :
    longer.Covers v := by
  have longer := grows.length_le
  simp only [Covers] at covers ⊢
  omega

theorem index_lt_length (small : nodes.length ≤ 2 ^ 31) {node : Node} (listed : node ∈ nodes) :
    (nodes.index node).toInt < nodes.length := by
  rw [index, toInt_ofNat (idxOf_lt small listed)]
  exact Int.ofNat_lt.mpr (List.idxOf_lt_length_of_mem listed)

theorem covers_voxelOf (small : nodes.length ≤ 2 ^ 31) {t : Triple} (lists : nodes.Lists t) :
    nodes.Covers (nodes.voxelOf t) := by
  obtain ⟨subject, predicate, object⟩ := lists_iff.mp lists
  exact ⟨index_lt_length small subject, index_lt_length small predicate,
    index_lt_length small object⟩

/-- An index is that of a listed node, or there is none at it. -/
theorem lookup_cases (nodes : NodeList) {index : Int32} (nonneg : 0 ≤ index) :
    (index.toInt < nodes.length ∧ ∃ node, nodes.lookup index = .ok node) ∨
      (nodes.length ≤ index.toInt ∧ nodes.lookup index = .error (.indexNotFound index)) := by
  have concrete : index ≠ Dictionary.wildIndex := by
    rintro rfl
    exact absurd nonneg (by decide)
  have atLeast := Int32.le_iff_toInt_le.mp nonneg
  rw [Int32.toInt_zero] at atLeast
  rw [lookup, if_neg concrete, at?, if_neg (not_lt_zero nonneg)]
  cases found : nodes[index.toInt.toNat]? with
  | some node =>
    have lt := (List.getElem?_eq_some_iff.mp found).1
    exact Or.inl ⟨by omega, node, rfl⟩
  | none =>
    have le := List.getElem?_eq_none_iff.mp found
    exact Or.inr ⟨by omega, rfl⟩

theorem tripleOf_eq_ok_iff {t : Triple} : nodes.tripleOf v = .ok t ↔
    nodes.lookup v.x = .ok t.subject ∧ nodes.lookup v.y = .ok t.predicate ∧
      nodes.lookup v.z = .ok t.object := by
  obtain ⟨subject, predicate, object⟩ := t
  simp only [tripleOf, bind_eq_ok, pure, Except.pure, Except.ok.injEq, Triple.mk.injEq]
  constructor
  · rintro ⟨_, first, _, second, _, third, rfl, rfl, rfl⟩
    exact ⟨first, second, third⟩
  · rintro ⟨first, second, third⟩
    exact ⟨_, first, _, second, _, third, rfl, rfl, rfl⟩

/-- A voxel has a triple where it is covered. Elsewhere one of its coordinates is not found. -/
theorem tripleOf_cases (nodes : NodeList) (nonneg : 0 ≤ v.x ∧ 0 ≤ v.y ∧ 0 ≤ v.z) :
    (nodes.Covers v ∧ ∃ t, nodes.tripleOf v = .ok t) ∨
      ∃ index ∈ [v.x, v.y, v.z], nodes.length ≤ index.toInt ∧
        nodes.tripleOf v = .error (.indexNotFound index) := by
  rw [tripleOf]
  rcases nodes.lookup_cases nonneg.1 with ⟨x, subject, first⟩ | ⟨x, first⟩
  · rcases nodes.lookup_cases nonneg.2.1 with ⟨y, predicate, second⟩ | ⟨y, second⟩
    · rcases nodes.lookup_cases nonneg.2.2 with ⟨z, object, third⟩ | ⟨z, third⟩
      · rw [first, second, third]
        exact Or.inl ⟨⟨x, y, z⟩, _, rfl⟩
      · rw [first, second, third]
        exact Or.inr ⟨v.z, by simp, z, rfl⟩
    · rw [first, second]
      exact Or.inr ⟨v.y, by simp, y, rfl⟩
  · rw [first]
    exact Or.inr ⟨v.x, by simp, x, rfl⟩

end NodeList

namespace Dictionary

variable [Compression] {d : Dictionary} {nodes : NodeList}

theorem Represents.reopened (represents : d.Represents nodes) : d.reopened.Represents nodes := by
  rw [reopened_eq represents.isOpen]
  exact represents

/-- A call adds nodes at the end, if any. One that is refused since the dictionary is closed adds
none. -/
theorem step_reopened (represents : d.reopened.Represents nodes) (call : Call) :
    ∃ nodes', (d.step call).2.reopened.Represents nodes' ∧ nodes <+: nodes' := by
  cases closed : d.closed with
  | true =>
    rw [step_of_closed closed]
    exact ⟨nodes, represents, List.prefix_refl nodes⟩
  | false =>
    rw [reopened_eq closed] at represents
    refine ⟨_, (represents.step call).2.reopened, ?_⟩
    cases call with
    | resolve node => exact nodes.resolve_grows node
    | lookup index =>
      rw [NodeList.step]
      split
      · exact List.prefix_refl nodes
      · split <;> exact List.prefix_refl nodes
    | record index =>
      rw [NodeList.step]
      split <;> exact List.prefix_refl nodes
    | _ => exact List.prefix_refl nodes

theorem close_reopened (represents : d.reopened.Represents nodes) :
    d.close.reopened.Represents nodes := by
  rw [close]
  split
  · exact represents
  · exact represents.recache Cache.agrees_nil

end Dictionary

theorem Cube.Write.eq_of_mem_effect {voxels : Finset Voxel} {write : Cube.Write} {v : Voxel}
    (member : v ∈ write.effect voxels) : v = write.voxel ∨ v ∈ voxels := by
  cases write with
  | set x y z | insert x y z =>
    rw [effect] at member
    split at member
    · exact Finset.mem_insert.mp member
    · exact Or.inr member
  | clear x y z | remove x y z => exact Or.inr (Finset.mem_of_mem_erase member)

namespace Store

variable {p : PageSize} {s s' : Store p} {nodes : NodeList} {voxels : Finset Voxel}

/-- What a call adds: nodes at the end of the list, and voxels that the list covers. -/
structure Evolves (nodes nodes' : NodeList) (voxels voxels' : Finset Voxel) : Prop where
  nodes : nodes <+: nodes'
  voxels : ∀ v ∈ voxels', v ∈ voxels ∨ nodes'.Covers v

theorem Evolves.refl (nodes : NodeList) (voxels : Finset Voxel) :
    Evolves nodes nodes voxels voxels := ⟨List.prefix_refl nodes, fun _ member => Or.inl member⟩

theorem Evolves.covers {nodes' : NodeList} {voxels' : Finset Voxel}
    (evolves : Evolves nodes nodes' voxels voxels') (covered : ∀ v ∈ voxels, nodes.Covers v) :
    ∀ v ∈ voxels', nodes'.Covers v := by
  intro v member
  rcases evolves.voxels v member with old | covers
  · exact (covered v old).of_longer evolves.nodes
  · exact covers

/-- Removing a triple clears its cell, if its nodes are stored. -/
theorem remove_leaves {t : Triple} {removed : Bool} (outcome : s.remove t = .ok (removed, s')) :
    s' = s ∨ ∃ v : Voxel, s' = { s with cube := s.cube.apply (.remove v.x v.y v.z) } := by
  obtain ⟨cell, -, outcome⟩ := bind_eq_ok.mp outcome
  cases cell with
  | none =>
    cases outcome
    exact Or.inl rfl
  | some v =>
    obtain ⟨⟨removed, c⟩, change, same⟩ := bind_eq_ok.mp outcome
    cases same
    have change : s.cube.change (.remove v.x v.y v.z) = .ok (removed, c) := change
    exact Or.inr ⟨v, by rw [Cube.apply_of_change change]⟩

variable [Compression]

/-- A store whose dictionary stores the nodes of a list, if it is not closed, and whose cube has
the voxels of a set. -/
structure Sound (s : Store p) (nodes : NodeList) (voxels : Finset Voxel) : Prop where
  dictionary : s.dictionary.reopened.Represents nodes
  cube : s.cube.Represents voxels

theorem Sound.represents (sound : s.Sound nodes voxels) (isOpen : s.dictionary.closed = false) :
    s.dictionary.Represents nodes := by
  have represents := sound.dictionary
  rwa [Dictionary.reopened_eq isOpen] at represents

theorem sound_empty (lossless : Compression.Lossless) (config : Config) :
    (empty config).Sound [] ∅ :=
  ⟨(Dictionary.represents_empty lossless config).reopened, Cube.represents_empty⟩

theorem Sound.of_looked (sound : s.Sound nodes voxels) (looked : s.Looked s') :
    s'.Sound nodes voxels := by
  obtain ⟨d, rfl, looked⟩ := looked
  exact ⟨looked.represents sound.dictionary, sound.cube⟩

/-- Adding a triple whose nodes are resolved writes its cell. -/
theorem add_of_resolved {t : Triple} {v : Voxel} (concrete : t.isConcrete = true)
    (resolved : s.resolve t = (.ok v, s')) :
    (s.add t).2 = { s' with cube := s'.cube.apply (.insert v.x v.y v.z) } := by
  rw [Store.add, if_pos concrete, resolved, Cube.apply_eq, Cube.change]
  dsimp only
  cases s'.cube.insert v.x v.y v.z <;> rfl

theorem Sound.add (sound : s.Sound nodes voxels) (t : Triple) : ∃ nodes' voxels',
    (s.add t).2.Sound nodes' voxels' ∧ Evolves nodes nodes' voxels voxels' := by
  by_cases concrete : t.isConcrete = true
  · cases closed : s.dictionary.closed with
    | true =>
      rw [Store.add, if_pos concrete, Store.resolve, Dictionary.resolve_of_closed closed]
      exact ⟨nodes, voxels, sound, .refl nodes voxels⟩
    | false =>
      obtain ⟨d, nodes', still, grows, ⟨e, refused, _⟩ | ⟨resolved, _, lists⟩⟩ :=
        resolve_of_represents (sound.represents closed) concrete
      · rw [Store.add, if_pos concrete, refused]
        exact ⟨nodes', voxels, ⟨still.reopened, sound.cube⟩, grows, fun _ => Or.inl⟩
      · have written := sound.cube.apply (.insert (nodes'.voxelOf t).x (nodes'.voxelOf t).y
          (nodes'.voxelOf t).z)
        rw [add_of_resolved concrete resolved]
        refine ⟨nodes', _, ⟨still.reopened, written⟩, grows, fun v member => ?_⟩
        rcases Cube.Write.eq_of_mem_effect member with rfl | old
        · exact Or.inr (NodeList.covers_voxelOf still.length_le lists)
        · exact Or.inl old
  · rw [Store.add, if_neg concrete]
    exact ⟨nodes, voxels, sound, .refl nodes voxels⟩

theorem Sound.remove (sound : s.Sound nodes voxels) {t : Triple} {removed : Bool}
    (outcome : s.remove t = .ok (removed, s')) :
    ∃ voxels', s'.Sound nodes voxels' ∧ Evolves nodes nodes voxels voxels' := by
  rcases remove_leaves outcome with rfl | ⟨v, rfl⟩
  · exact ⟨voxels, sound, .refl nodes voxels⟩
  · have cleared := sound.cube.apply (.remove v.x v.y v.z)
    refine ⟨_, ⟨sound.dictionary, cleared⟩, List.prefix_refl nodes, fun other member => ?_⟩
    exact Or.inl (Finset.mem_of_mem_erase member)

theorem Sound.step (sound : s.Sound nodes voxels) (call : Call) : ∃ nodes' voxels',
    (s.step call).2.Sound nodes' voxels' ∧ Evolves nodes nodes' voxels voxels' := by
  cases call with
  | add t => exact sound.add t
  | remove t =>
    rw [Store.step]
    cases outcome : s.remove t with
    | error e => exact ⟨nodes, voxels, sound, .refl nodes voxels⟩
    | ok changed =>
      obtain ⟨voxels', still, evolves⟩ := sound.remove outcome
      exact ⟨nodes, voxels', still, evolves⟩
  | find subject predicate object =>
    exact ⟨nodes, voxels, sound.of_looked (s.looked_find subject predicate object),
      .refl nodes voxels⟩
  | _ => exact ⟨nodes, voxels, sound, .refl nodes voxels⟩

/-- Whether a request writes to the cube by itself. -/
def Request.WritesCube : Request → Prop
  | .cube (.call (.write _)) => True
  | _ => False

/-- A store stays sound, and what is added is covered but for what is written to the cube by
itself. -/
theorem Sound.respond (sound : s.Sound nodes voxels) (request : Request) : ∃ nodes' voxels',
    (s.respond request).2.Sound nodes' voxels' ∧
      (¬ request.WritesCube → Evolves nodes nodes' voxels voxels') := by
  cases request with
  | call call =>
    obtain ⟨nodes', voxels', still, evolves⟩ := sound.step call
    exact ⟨nodes', voxels', still, fun _ => evolves⟩
  | dictionary call =>
    obtain ⟨nodes', still, grows⟩ := Dictionary.step_reopened sound.dictionary call
    exact ⟨nodes', voxels, ⟨still, sound.cube⟩, fun _ => ⟨grows, fun _ => Or.inl⟩⟩
  | cube request =>
    cases request with
    | call call =>
      refine ⟨nodes, _, ⟨sound.dictionary, (sound.cube.step call).2⟩, fun kept => ?_⟩
      cases call with
      | write write => exact absurd trivial kept
      | contains x y z =>
        rw [Cube.stepVoxels]
        split <;> exact .refl nodes voxels
      | _ => exact .refl nodes voxels
    | _ => exact ⟨nodes, voxels, sound, fun _ => .refl nodes voxels⟩
  | close =>
    exact ⟨nodes, voxels, ⟨Dictionary.close_reopened sound.dictionary, sound.cube⟩,
      fun _ => .refl nodes voxels⟩
  | _ => exact ⟨nodes, voxels, sound, fun _ => .refl nodes voxels⟩

end Store

end TripleCube
