import TripleCube.Proofs.Dictionary.Loaded
import TripleCube.Proofs.Grid.Refusal
import TripleCube.Proofs.Store.Matching
import TripleCube.Proofs.Store.Reading
import TripleCube.Proofs.Store.TripleSet

/-! Which calls a store refuses, and what they leave. A triple with the wildcard for a node is
refused before any of its nodes is stored, and a store whose dictionary is closed refuses all that
it would have to ask the dictionary for. Nothing changes by that. Only where nodes do not fit the
dictionary can a triple be refused when some of its nodes are stored already. -/
namespace TripleCube

namespace Dictionary

variable {d : Dictionary} {nodes : NodeList}

theorem failed_indexOf? (d : Dictionary) (node : Node) :
    Failed (d.indexOf? node) ↔ d.closed = true ∨ ¬ node.Storable := by
  cases closed : d.closed with
  | true => simp [indexOf?, ensureOpen_of_closed closed, bind, Except.bind]
  | false =>
    by_cases named : node = .any
    · have storable : Node.any.Storable := rfl
      simp [named, indexOf?_any closed, storable]
    · rw [indexOf?_eq closed named, Node.Storable]
      cases node.refusal? <;> simp

/-- The nodes that would be stored with some others. -/
def unknown (d : Dictionary) (list : List Node) : Finset Node :=
  list.toFinset.filter fun node => d.byContent.find? (NodeRecord.keyOf node) = none

variable [Compression]

theorem Keyed.nonneg_of_indexOf? (keyed : d.Keyed) {node : Node} (named : node ≠ .any)
    {index : Int32} (found : d.indexOf? node = .ok (some index)) : 0 ≤ index := by
  have isOpen : d.closed = false := by
    by_contra closed
    have failed := (failed_indexOf? d node).mpr (.inl (Bool.not_eq_false _ ▸ closed))
    simp [found] at failed
  rw [indexOf?_eq isOpen named] at found
  split at found
  · cases found
  · obtain ⟨r, stands, -⟩ := keyed.listed _ index (Except.ok.inj found)
    exact (at?_eq_some stands).1

/-- No node is stored twice. -/
theorem Represents.nodup (represents : d.Represents nodes) : nodes.Nodup := by
  refine List.nodup_iff_getElem?_ne_getElem?.mpr fun i j less lt same => ?_
  have second := List.getElem?_eq_getElem lt
  obtain ⟨iSmall, r, atI, stores⟩ := represents.exists_record (same.trans second)
  obtain ⟨jSmall, r', atJ, storesToo⟩ := represents.exists_record second
  have index := (represents.keyed.find?_of_stores atI stores).symm.trans
    (represents.keyed.find?_of_stores atJ storesToo)
  exact Nat.ne_of_lt less (ofNat_inj iSmall jSmall (Option.some.inj index))

theorem Represents.count_add_unknown (represents : d.Represents nodes) {list : List Node}
    (storable : ∀ node ∈ list, node.Storable) :
    d.count + (d.unknown list).card = (nodes.toFinset ∪ list.toFinset).card := by
  have unlisted : d.unknown list = list.toFinset \ nodes.toFinset := by
    ext node
    simp only [unknown, Finset.mem_filter, List.mem_toFinset, Finset.mem_sdiff]
    refine and_congr_right fun member => ?_
    rw [represents.find?_keyOf (storable node member), Option.map_eq_none_iff,
      List.idxOf?_eq_none_iff]
  have count : d.count = nodes.toFinset.card :=
    represents.length.trans (List.toFinset_card_of_nodup represents.nodup).symm
  rw [count, unlisted, Nat.add_comm, Finset.card_sdiff_add_card, Finset.union_comm]

end Dictionary

theorem Triple.isConcrete_iff_any_notMem {t : Triple} :
    t.isConcrete = true ↔ .any ∉ t.nodes := by
  simp only [isConcrete_iff, nodes, List.mem_cons, List.not_mem_nil, or_false, not_or, ne_comm]

namespace Store

variable {p : PageSize} {s : Store p} {nodes : NodeList} {voxels : Finset Voxel}

/-- Whether a triple cannot be asked for. -/
def Unaskable (s : Store p) (t : Triple) : Prop :=
  s.dictionary.closed = true ∨ .any ∈ t.nodes ∨ ∃ node ∈ t.nodes, ¬ node.Storable

theorem failed_cell? (s : Store p) (t : Triple) : Failed (s.cell? t) ↔ s.Unaskable t := by
  rw [cell?, Unaskable]
  by_cases concrete : t.isConcrete = true
  · have named := Triple.isConcrete_iff_any_notMem.mp concrete
    rw [if_pos concrete, or_iff_right named]
    refine failed_three.trans ?_
    simp only [Dictionary.failed_indexOf?, Triple.nodes, List.mem_cons, List.not_mem_nil, or_false,
      exists_eq_or_imp, exists_eq_left]
    tauto
  · rw [if_neg concrete]
    rw [Triple.isConcrete_iff_any_notMem, not_not] at concrete
    simp [concrete]

/-- Whether a position of a pattern cannot be asked for. -/
def Unseekable (s : Store p) (pattern : Option Node) : Prop :=
  pattern.getD .any ≠ .any ∧ (s.dictionary.closed = true ∨ ¬ (pattern.getD .any).Storable)

theorem failed_coordinate? (s : Store p) (pattern : Option Node) :
    Failed (s.coordinate? pattern) ↔ s.Unseekable pattern := by
  rw [Unseekable]
  rcases pattern with _ | node
  · simp [coordinate?]
  · by_cases named : node = .any
    · simp [coordinate?, named]
    · simp [coordinate?_of_named named, Dictionary.failed_indexOf?, named]

/-- Whether the nodes of a triple do not fit the dictionary: a field is too long to be stored, or
fewer indices are left than there are new nodes. -/
def Exceeds (s : Store p) (t : Triple) : Prop :=
  (∃ node ∈ t.nodes, ¬ node.Storable) ∨
    Dictionary.maxCount < s.dictionary.count + (s.dictionary.unknown t.nodes).card

variable [Compression]

/-- What adding a triple can come to. -/
inductive Addition (s : Store p) (t : Triple) : Except Error Bool × Store p → Prop
  | refused (e : Error) (cause : s.dictionary.closed = true ∨ .any ∈ t.nodes) :
    Addition s t (.error e, s)
  | exceeding (e : Error) (d : Dictionary) (isOpen : s.dictionary.closed = false)
    (named : .any ∉ t.nodes) (exceeds : s.Exceeds t) :
    Addition s t (.error e, { s with dictionary := d })
  | added (changed : Bool) (s' : Store p) (isOpen : s.dictionary.closed = false)
    (named : .any ∉ t.nodes) (within : ¬ s.Exceeds t) : Addition s t (.ok changed, s')

/-- Nodes that are listed at last did not exceed the dictionary. -/
theorem not_exceeds_of_lists {nodes' : NodeList} {d : Dictionary} {t : Triple}
    (represents : s.dictionary.Represents nodes) (still : d.Represents nodes')
    (grows : nodes <+: nodes') (lists : nodes'.Lists t) : ¬ s.Exceeds t := by
  have storable : ∀ node ∈ t.nodes, node.Storable := fun node member =>
    still.storable (lists node member)
  have stored : nodes.toFinset ∪ t.nodes.toFinset ⊆ nodes'.toFinset := by
    intro node member
    simp only [Finset.mem_union, List.mem_toFinset] at member ⊢
    exact member.elim (fun old => grows.mem old) (lists node)
  have few := (Finset.card_le_card stored).trans nodes'.toFinset_card_le
  have small := still.length_le
  rw [← represents.count_add_unknown storable] at few
  rintro (⟨node, member, unfit⟩ | full)
  · exact unfit (storable node member)
  · have bound : Dictionary.maxCount = 2 ^ 31 := rfl
    omega

theorem Sound.addition (sound : s.Sound nodes voxels) (t : Triple) :
    s.Addition t (s.add t) := by
  rw [Store.add]
  by_cases concrete : t.isConcrete = true
  · have named := Triple.isConcrete_iff_any_notMem.mp concrete
    rw [if_pos concrete]
    cases closed : s.dictionary.closed with
    | true =>
      rw [Store.resolve, Dictionary.resolve_of_closed closed]
      exact .refused _ (.inl closed)
    | false =>
      have represents := sound.represents closed
      obtain ⟨d, nodes', still, grows, ⟨e, resolved, entered⟩ | ⟨resolved, entered, lists⟩⟩ :=
        resolve_of_represents represents concrete
      · rw [resolved]
        refine .exceeding e d closed named ?_
        by_contra within
        rw [Exceeds, not_or, not_exists, Nat.not_lt] at within
        have storable : ∀ node ∈ t.nodes, node.Storable := by simpa using within.1
        have room := within.2
        rw [represents.count_add_unknown storable] at room
        obtain ⟨_, again, -⟩ := NodeList.enter_of_room represents.nodup
          (Triple.nodes_ne_any concrete) storable room
        cases (congrArg Prod.fst entered).symm.trans (congrArg Prod.fst again)
      · have nonneg := NodeList.voxelOf_nonneg still.length_le lists
        rw [resolved]
        dsimp only
        rw [Cube.insert_of_nonneg nonneg]
        exact .added _ _ closed named (not_exceeds_of_lists represents still grows lists)
  · rw [if_neg concrete]
    rw [Triple.isConcrete_iff_any_notMem, not_not] at concrete
    exact .refused _ (.inr concrete)

/-- A cell that is found has coordinates. -/
theorem Sound.proper_of_cell? (sound : s.Sound nodes voxels) {t : Triple} {v : Voxel}
    (found : s.cell? t = .ok (some v)) : v.Proper := by
  have accepted : ¬ Failed (s.cell? t) := by simp [found]
  rw [failed_cell?, Unaskable, not_or, not_or, Bool.not_eq_true] at accepted
  obtain ⟨isOpen, named, -⟩ := accepted
  have keyed := (sound.represents isOpen).keyed
  have concrete := Triple.isConcrete_iff_any_notMem.mpr named
  obtain ⟨subject, predicate, object⟩ := Triple.isConcrete_iff.mp concrete
  simp only [cell?, if_pos concrete, bind_eq_ok, pure, Except.pure, Except.ok.injEq] at found
  obtain ⟨x, atX, y, atY, z, atZ, found⟩ := found
  rcases x with _ | x <;> rcases y with _ | y <;> rcases z with _ | z <;> cases found
  exact ⟨keyed.nonneg_of_indexOf? subject atX, keyed.nonneg_of_indexOf? predicate atY,
    keyed.nonneg_of_indexOf? object atZ⟩

theorem Sound.failed_contains (sound : s.Sound nodes voxels) (t : Triple) :
    Failed (s.contains t) ↔ s.Unaskable t := by
  rw [← s.failed_cell?, ← or_false (Failed (s.cell? t))]
  refine failed_bind fun cell found => iff_false_intro ?_
  rcases cell with _ | v
  · exact not_failed_ok _
  · obtain ⟨x, y, z⟩ := sound.proper_of_cell? found
    simpa [s.cube.failed_contains] using ⟨x, y, z⟩

theorem Sound.failed_remove (sound : s.Sound nodes voxels) (t : Triple) :
    Failed (s.remove t) ↔ s.Unaskable t := by
  rw [← s.failed_cell?, ← or_false (Failed (s.cell? t))]
  refine failed_bind fun cell found => iff_false_intro ?_
  rcases cell with _ | v
  · exact not_failed_ok _
  · obtain ⟨x, y, z⟩ := sound.proper_of_cell? found
    refine failed_bind_pure.not.mpr ((s.cube.failed_change (.remove v.x v.y v.z)).not.mpr ?_)
    simpa [Cube.Write.voxel] using ⟨x, y, z⟩

theorem Sound.failed_search (sound : s.Sound nodes voxels)
    (subject predicate object : Option Node) : Failed (s.search subject predicate object) ↔
      ∃ pattern ∈ [subject, predicate, object], s.Unseekable pattern := by
  refine (failed_bind fun x atX => failed_bind fun y atY => failed_bind fun z atZ =>
    iff_of_false ?_ not_false).trans ?_
  · rcases x with _ | x <;> rcases y with _ | y <;> rcases z with _ | z <;>
      try exact not_failed_ok _
    have opens : ¬ Failed (s.cube.search x y z) := by
      simpa [s.cube.failed_search] using
        ⟨sound.wild_le atX, sound.wild_le atY, sound.wild_le atZ⟩
    exact failed_bind_pure.not.mpr opens
  · simp [failed_coordinate?]

theorem failed_find (s : Store p) (subject predicate object : Option Node) :
    Failed (s.find subject predicate object).1 ↔ Failed (s.search subject predicate object) := by
  rw [find]
  cases s.search subject predicate object <;> simp

theorem find_of_failed {subject predicate object : Option Node}
    (failed : Failed (s.find subject predicate object).1) :
    (s.find subject predicate object).2 = s := by
  rw [find] at failed ⊢
  cases opened : s.search subject predicate object with
  | error e => rfl
  | ok search => simp [opened] at failed

/-- Whether a store refuses a call. -/
def Refuses (s : Store p) : Call → Prop
  | .add t => s.dictionary.closed = true ∨ .any ∈ t.nodes ∨ s.Exceeds t
  | .remove t | .contains t => s.Unaskable t
  | .find subject predicate object =>
    ∃ pattern ∈ [subject, predicate, object], s.Unseekable pattern
  | .size | .isEmpty | .count => False

def Answer.Failed : Answer → Prop
  | .changed outcome | .contains outcome => TripleCube.Failed outcome
  | .searched outcome => TripleCube.Failed outcome
  | .size _ | .isEmpty _ | .count _ => False

/-- A call fails where it is refused. -/
theorem Sound.failed_step (sound : s.Sound nodes voxels) (call : Call) :
    (s.step call).1.Failed ↔ s.Refuses call := by
  cases call with
  | add t =>
    have outcome := sound.addition t
    rw [Store.step, Refuses, Answer.Failed]
    generalize s.add t = result at outcome
    cases outcome with
    | refused e cause =>
      simp only [failed_error, true_iff]
      exact cause.elim .inl fun wildcard => .inr (.inl wildcard)
    | exceeding e d isOpen named exceeds => simp [exceeds]
    | added changed s' isOpen named within => simp [isOpen, named, within]
  | remove t =>
    rw [Refuses, ← sound.failed_remove, Store.step]
    rcases s.remove t with e | ⟨removed, s'⟩ <;> simp [Answer.Failed]
  | contains t => exact sound.failed_contains t
  | find subject predicate object =>
    exact failed_map.trans ((s.failed_find _ _ _).trans (sound.failed_search _ _ _))
  | size | isEmpty | count => exact Iff.rfl

/-- A call that fails changes nothing, unless it was to add nodes that do not fit the dictionary.
Then still it leaves the cube. -/
theorem Sound.step_of_failed (sound : s.Sound nodes voxels) {call : Call}
    (failed : (s.step call).1.Failed) : (s.step call).2 = s ∨
      ∃ t, call = .add t ∧ s.dictionary.closed = false ∧ .any ∉ t.nodes ∧ s.Exceeds t ∧
        (s.step call).2.cube = s.cube := by
  cases call with
  | add t =>
    have outcome := sound.addition t
    rw [Store.step, Answer.Failed] at failed
    rw [Store.step]
    generalize s.add t = result at outcome failed
    cases outcome with
    | refused => exact .inl rfl
    | exceeding e d isOpen named exceeds => exact .inr ⟨t, rfl, isOpen, named, exceeds, rfl⟩
    | added => simp at failed
  | remove t =>
    rw [Store.step] at failed ⊢
    cases outcome : s.remove t with
    | error e => exact .inl rfl
    | ok removed => simp [outcome, Answer.Failed] at failed
  | find subject predicate object => exact .inl (find_of_failed (failed_map.mp failed))
  | contains | size | isEmpty | count => exact .inl rfl

end Store

end TripleCube
