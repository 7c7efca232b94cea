import TripleCube.Proofs.Grid.Counted
import TripleCube.Proofs.Store.Cells
import TripleCube.Store

/-! A store is a ledger: the list of the nodes that were named to it, and the set of triples
that it holds. Every history of calls is answered as by the ledger, errors included. -/
namespace TripleCube

namespace Store

variable {p : PageSize}

/-- The calls on an open store. -/
inductive Call
  | add (t : Triple)
  | remove (t : Triple)
  | contains (t : Triple)
  | find (subject predicate object : Option Node)
  | size
  | isEmpty
  | count

/-- What calls answer. Of a search it counts whether it opens. -/
inductive Answer
  | changed (outcome : Except Error Bool)
  | contains (outcome : Except Error Bool)
  | searched (outcome : Except Error Unit)
  | size (triples : Nat)
  | isEmpty (answer : Bool)
  | count (nodes : Nat)

def step [Compression] (s : Store p) : Call → Answer × Store p
  | .add t => (.changed (s.add t).1, (s.add t).2)
  | .remove t =>
    match s.remove t with
    | .ok (removed, s) => (.changed (.ok removed), s)
    | .error e => (.changed (.error e), s)
  | .contains t => (.contains (s.contains t), s)
  | .find subject predicate object =>
    (.searched ((s.find subject predicate object).1.map fun _ => ()),
      (s.find subject predicate object).2)
  | .size => (.size s.size, s)
  | .isEmpty => (.isEmpty s.isEmpty, s)
  | .count => (.count s.dictionary.count, s)

theorem coordinate?_of_named {s : Store p} {node : Node} (named : node ≠ .any) :
    s.coordinate? (some node) = s.dictionary.indexOf? node := by
  cases node with
  | any => exact absurd rfl named
  | _ => rfl

end Store

/-- Whether a node can be named to a store; if not, what is said of it. -/
def Node.check (node : Node) : Except Error Unit :=
  match node.refusal? with
  | some e => .error e
  | none => .ok ()

/-- Whether all nodes of a list can be named; if not, what is said of the first that cannot. -/
def Node.checkAll : List Node → Except Error Unit
  | [] => .ok ()
  | node :: rest =>
    match node.check with
    | .error e => .error e
    | .ok _ => checkAll rest

/-- Whether a triple can be asked for; if not, what is said of it. -/
def Triple.check (t : Triple) : Except Error Unit :=
  if t.isConcrete then Node.checkAll t.nodes
  else .error (.invalidArgument (.openTriple t.toString))

theorem Node.checkAll_eq_ok {list : List Node} (storable : ∀ node ∈ list, node.Storable) :
    Node.checkAll list = .ok () := by
  induction list with
  | nil => rfl
  | cons node rest ih =>
    rw [List.forall_mem_cons] at storable
    rw [checkAll, check, storable.1]
    exact ih storable.2

theorem Triple.check_eq_ok {t : Triple} (concrete : t.isConcrete = true)
    (storable : ∀ node ∈ t.nodes, node.Storable) : t.check = .ok () := by
  rw [check, if_pos concrete]
  exact Node.checkAll_eq_ok storable

/-- Lists nodes one after the other, until one is refused. -/
def NodeList.enter (nodes : NodeList) : List Node → Except Error Unit × NodeList
  | [] => (.ok (), nodes)
  | node :: rest =>
    match nodes.resolve node with
    | (.error e, nodes) => (.error e, nodes)
    | (.ok _, nodes) => enter nodes rest

theorem NodeList.enter_append (nodes : NodeList) (first later : List Node) :
    nodes.enter (first ++ later) = match nodes.enter first with
      | (.error e, nodes) => (.error e, nodes)
      | (.ok _, nodes) => nodes.enter later := by
  induction first generalizing nodes with
  | nil => rfl
  | cons node rest ih =>
    simp only [List.cons_append, enter]
    rcases nodes.resolve node with ⟨_ | _, nodes'⟩
    · rfl
    · exact ih nodes'

/-- The nodes that were named, in the order in which they came first, and the triples. -/
structure Ledger where
  nodes : NodeList
  triples : Finset Triple

namespace Ledger

/-- What a counter of 64 bits shows of a number, nothing being shown below zero. -/
def counted (number : Nat) : Nat := (Int64.ofNat number).toInt.toNat

def add (l : Ledger) (t : Triple) : Except Error Bool × Ledger :=
  if t.isConcrete then
    match l.nodes.enter t.nodes with
    | (.error e, nodes) => (.error e, { l with nodes })
    | (.ok _, nodes) => (.ok (decide (t ∉ l.triples)), ⟨nodes, insert t l.triples⟩)
  else (.error (.invalidArgument (.wildcardTriple t.toString)), l)

def step (l : Ledger) : Store.Call → Store.Answer × Ledger
  | .add t => (.changed (l.add t).1, (l.add t).2)
  | .remove t =>
    match t.check with
    | .ok _ => (.changed (.ok (decide (t ∈ l.triples))), { l with triples := l.triples.erase t })
    | .error e => (.changed (.error e), l)
  | .contains t => (.contains (t.check.map fun _ => decide (t ∈ l.triples)), l)
  | .find subject predicate object =>
    (.searched (Node.checkAll [subject.getD .any, predicate.getD .any, object.getD .any]), l)
  | .size => (.size (counted l.triples.card), l)
  | .isEmpty => (.isEmpty (decide (l.triples = ∅)), l)
  | .count => (.count l.nodes.length, l)

/-- A triple whose object is refused leaves its subject and its predicate named. -/
theorem add_of_refusal {l : Ledger} {t : Triple} {nodes : NodeList} {e : Error}
    (concrete : t.isConcrete = true)
    (entered : l.nodes.enter [t.subject, t.predicate] = (.ok (), nodes))
    (refusal : t.object.refusal? = some e) : l.add t = (.error e, { l with nodes }) := by
  have parts : t.nodes = [t.subject, t.predicate] ++ [t.object] := rfl
  rw [add, if_pos concrete, parts, NodeList.enter_append, entered]
  simp only [NodeList.enter, NodeList.resolve_of_refusal refusal]

end Ledger

/-- A triple whose object has no key. -/
def Triple.overlong : Triple := ⟨.uri "a", .uri "b", .overlong⟩

theorem Ledger.add_overlong :
    (⟨[], ∅⟩ : Ledger).add .overlong = (.error Node.overlongError, ⟨[.uri "a", .uri "b"], ∅⟩) :=
  add_of_refusal rfl (by decide) Node.refusal?_overlong

namespace Store

variable [Compression] {p : PageSize}

/-- A store that holds the triples of a ledger, each in the cell of its nodes. -/
structure Represents (s : Store p) (l : Ledger) : Prop where
  dictionary : s.dictionary.Represents l.nodes
  listed : ∀ t ∈ l.triples, l.nodes.Lists t
  cube : s.cube.Counts (l.nodes.voxels l.triples)

variable {s : Store p} {l : Ledger}

theorem represents_empty (lossless : Compression.Lossless) (config : Config) :
    (empty config).Represents ⟨[], ∅⟩ where
  dictionary := Dictionary.represents_empty lossless config
  listed t member := by simp at member
  cube := Cube.counts_empty

/-- More nodes in the dictionary leave the cells where they are. -/
theorem Represents.grow (represents : s.Represents l) {d : Dictionary} {nodes : NodeList}
    (dictionary : d.Represents nodes) (grows : l.nodes <+: nodes) :
    Represents { s with dictionary := d } { l with nodes } where
  dictionary := dictionary
  listed t member := (represents.listed t member).of_longer grows
  cube := by
    rw [NodeList.voxels_of_longer grows represents.listed]
    exact represents.cube

end Store

/-- Resolving a node of a triple lists it. -/
theorem Dictionary.Represents.resolve_named [Compression] {d : Dictionary} {nodes : NodeList}
    (represents : d.Represents nodes) {node : Node} (named : node ≠ .any) :
    (∃ e, d.resolve node = .error e ∧ nodes.resolve node = (.error e, nodes)) ∨
      ∃ d' nodes', d.resolve node = .ok (nodes'.index node, d') ∧
        nodes.resolve node = (.ok (nodes'.index node), nodes') ∧ d'.Represents nodes' ∧
        nodes <+: nodes' ∧ node ∈ nodes' := by
  rcases represents.resolve node with refused | ⟨index, d', resolved, answered, still⟩
  · exact Or.inl refused
  · obtain ⟨listed, rfl⟩ := NodeList.index_of_resolve named answered
    exact Or.inr ⟨d', _, resolved, Prod.ext answered rfl, still, nodes.resolve_grows node, listed⟩

namespace Store

variable [Compression] {p : PageSize} {s : Store p} {l : Ledger}

/-- Resolving a triple lists its nodes, up to the first that is refused. -/
theorem resolve_of_represents {nodes : NodeList} (represents : s.dictionary.Represents nodes)
    {t : Triple} (concrete : t.isConcrete = true) :
    ∃ (d : Dictionary) (nodes' : NodeList), d.Represents nodes' ∧ nodes <+: nodes' ∧
      ((∃ e, s.resolve t = (.error e, { s with dictionary := d }) ∧
          nodes.enter t.nodes = (.error e, nodes')) ∨
        (s.resolve t = (.ok (nodes'.voxelOf t), { s with dictionary := d }) ∧
          nodes.enter t.nodes = (.ok (), nodes') ∧ nodes'.Lists t)) := by
  obtain ⟨subject, predicate, object⟩ := Triple.isConcrete_iff.mp concrete
  rw [Store.resolve, Triple.nodes, NodeList.enter]
  rcases represents.resolve_named subject with
    ⟨e, refused, unlisted⟩ | ⟨d₁, n₁, resolved, answered, still₁, grows₁, listed₁⟩
  · rw [refused, unlisted]
    exact ⟨_, _, represents, List.prefix_refl _, Or.inl ⟨e, rfl, rfl⟩⟩
  rw [resolved, answered]
  dsimp only
  rw [NodeList.enter]
  rcases still₁.resolve_named predicate with
    ⟨e, refused, unlisted⟩ | ⟨d₂, n₂, resolved, answered, still₂, grows₂, listed₂⟩
  · rw [refused, unlisted]
    exact ⟨_, _, still₁, grows₁, Or.inl ⟨e, rfl, rfl⟩⟩
  rw [resolved, answered]
  dsimp only
  rw [NodeList.enter]
  rcases still₂.resolve_named object with
    ⟨e, refused, unlisted⟩ | ⟨d₃, n₃, resolved, answered, still₃, grows₃, listed₃⟩
  · rw [refused, unlisted]
    exact ⟨_, _, still₂, grows₁.trans grows₂, Or.inl ⟨e, rfl, rfl⟩⟩
  rw [resolved, answered]
  have lists : n₃.Lists t := NodeList.lists_iff.mpr
    ⟨grows₃.mem (grows₂.mem listed₁), grows₃.mem listed₂, listed₃⟩
  refine ⟨_, _, still₃, grows₁.trans (grows₂.trans grows₃), Or.inr ⟨?_, rfl, lists⟩⟩
  rw [NodeList.voxelOf, NodeList.index_of_longer (grows₂.trans grows₃) listed₁,
    NodeList.index_of_longer grows₃ listed₂]

/-- Adding answers as the ledger does and goes on holding what the ledger holds. -/
theorem Represents.add (represents : s.Represents l) (t : Triple) :
    (s.add t).1 = (l.add t).1 ∧ (s.add t).2.Represents (l.add t).2 := by
  rw [Store.add, Ledger.add]
  by_cases concrete : t.isConcrete = true
  · rw [if_pos concrete, if_pos concrete]
    obtain ⟨d, nodes, still, grows, ⟨e, resolved, entered⟩ | ⟨resolved, entered, lists⟩⟩ :=
      resolve_of_represents represents.dictionary concrete
    · rw [resolved, entered]
      exact ⟨rfl, represents.grow still grows⟩
    · have grown := represents.grow still grows
      have small := grown.dictionary.length_le
      obtain ⟨cube, inserted, counts⟩ :=
        grown.cube.insert (NodeList.voxelOf_nonneg small lists)
      rw [resolved, entered]
      dsimp only at inserted ⊢
      rw [inserted]
      have fresh := not_congr (NodeList.mem_voxels small grown.listed lists)
      refine ⟨congrArg Except.ok (decide_eq_decide.mpr fresh), grown.dictionary, ?_, ?_⟩
      · intro other member
        rcases Finset.mem_insert.mp member with rfl | member
        · exact lists
        · exact grown.listed other member
      · rw [NodeList.voxels_insert]
        exact counts
  · rw [if_neg concrete, if_neg concrete]
    exact ⟨rfl, represents⟩

/-- A named node is refused or stands at its index, if it is listed. -/
theorem Represents.indexOf? (represents : s.Represents l) {node : Node} (named : node ≠ .any) :
    s.dictionary.indexOf? node =
      node.check.map fun _ => if node ∈ l.nodes then some (l.nodes.index node) else none := by
  rw [represents.dictionary.indexOf?, NodeList.indexOf?, if_neg named, Node.check,
    NodeList.idxOf?_eq]
  cases node.refusal? with
  | some e => rfl
  | none => by_cases listed : node ∈ l.nodes <;> simp [listed, NodeList.index, Except.map]

/-- The cell of a triple is sought by the indices of its nodes. -/
theorem Represents.cell?_eq (represents : s.Represents l) (t : Triple) :
    s.cell? t =
      t.check.map fun _ => if l.nodes.Lists t then some (l.nodes.voxelOf t) else none := by
  rw [cell?, Triple.check]
  by_cases concrete : t.isConcrete = true
  · obtain ⟨subject, predicate, object⟩ := Triple.isConcrete_iff.mp concrete
    rw [if_pos concrete, if_pos concrete, represents.indexOf? subject,
      represents.indexOf? predicate, represents.indexOf? object]
    simp only [Triple.nodes, Node.checkAll, NodeList.lists_iff]
    cases t.subject.check with
    | error e => rfl
    | ok _ =>
      cases t.predicate.check with
      | error e => rfl
      | ok _ =>
        cases t.object.check with
        | error e => rfl
        | ok _ =>
          by_cases s : t.subject ∈ l.nodes <;> by_cases p : t.predicate ∈ l.nodes <;>
            by_cases o : t.object ∈ l.nodes <;> simp [s, p, o, NodeList.voxelOf] <;> rfl
  · rw [if_neg concrete, if_neg concrete]
    rfl

/-- A triple that has no cell is not held. -/
theorem Represents.not_mem (represents : s.Represents l) {t : Triple}
    (unlisted : ¬ l.nodes.Lists t) : t ∉ l.triples :=
  fun member => unlisted (represents.listed t member)

theorem Represents.contains (represents : s.Represents l) (t : Triple) :
    s.contains t = t.check.map fun _ => decide (t ∈ l.triples) := by
  rw [Store.contains, represents.cell?_eq]
  cases t.check with
  | error e => rfl
  | ok _ =>
    by_cases lists : l.nodes.Lists t
    · have small := represents.dictionary.length_le
      have held := NodeList.mem_voxels small represents.listed lists
      simp only [Except.map, if_pos lists, bind, Except.bind]
      rw [represents.cube.represents.contains (NodeList.voxelOf_nonneg small lists)]
      exact congrArg Except.ok (decide_eq_decide.mpr held)
    · simp only [Except.map, if_neg lists, bind, Except.bind,
        decide_eq_false (represents.not_mem lists)]
      rfl

theorem Represents.remove (represents : s.Represents l) (t : Triple) :
    (∃ e, s.remove t = .error e ∧ t.check = .error e) ∨
      ∃ s', s.remove t = .ok (decide (t ∈ l.triples), s') ∧ t.check = .ok () ∧
        s'.Represents { l with triples := l.triples.erase t } := by
  rw [Store.remove, represents.cell?_eq]
  cases t.check with
  | error e => exact Or.inl ⟨e, rfl, rfl⟩
  | ok _ =>
    refine Or.inr ?_
    by_cases lists : l.nodes.Lists t
    · have small := represents.dictionary.length_le
      have held := NodeList.mem_voxels small represents.listed lists
      obtain ⟨cube, removed, counts⟩ :=
        represents.cube.remove (NodeList.voxelOf_nonneg small lists)
      simp only [Except.map, if_pos lists, bind, Except.bind]
      rw [removed]
      refine ⟨_, congrArg (fun flag => Except.ok (flag, _)) (decide_eq_decide.mpr held), trivial,
        represents.dictionary, fun other member => ?_, ?_⟩
      · exact represents.listed other (Finset.mem_of_mem_erase member)
      · dsimp only
        rw [NodeList.voxels_erase small represents.listed lists]
        exact counts
    · have absent := represents.not_mem lists
      simp only [Except.map, if_neg lists, bind, Except.bind, decide_eq_false absent,
        Finset.erase_eq_of_notMem absent]
      exact ⟨s, rfl, trivial, represents⟩

/-- Another content of the cache makes no difference to the ledger. -/
theorem Represents.recache (represents : s.Represents l) {cache : Cache Int32 Node}
    (dictionary : Dictionary.Represents { s.dictionary with cache } l.nodes) :
    Represents { s with dictionary := { s.dictionary with cache } } l :=
  represents.grow dictionary (List.prefix_refl _)

/-- The triple of a cell is looked up node by node, which changes at most the cache. -/
theorem lookup_of_represents {nodes : NodeList} (represents : s.dictionary.Represents nodes)
    (v : Voxel) :
    ∃ cache, s.lookup v =
        (nodes.tripleOf v, { s with dictionary := { s.dictionary with cache } }) ∧
      Dictionary.Represents { s.dictionary with cache } nodes := by
  obtain ⟨cache, subject, still⟩ := represents.lookup v.x
  rw [Store.lookup, NodeList.tripleOf, subject]
  cases nodes.lookup v.x with
  | error e => exact ⟨cache, rfl, still⟩
  | ok _ =>
    obtain ⟨cache, predicate, still⟩ := still.lookup v.y
    dsimp only
    rw [predicate]
    cases nodes.lookup v.y with
    | error e => exact ⟨cache, rfl, still⟩
    | ok _ =>
      obtain ⟨cache, object, still⟩ := still.lookup v.z
      dsimp only
      rw [object]
      cases nodes.lookup v.z <;> exact ⟨cache, rfl, still⟩

/-- A step of a search is a step over the cells, with what it answers looked up. -/
theorem Represents.next (represents : s.Represents l) (cells : Cube.Search) :
    ∃ cache, Traversal.next s (⟨some cells⟩ : Search) =
        ((Traversal.next s.cube cells).1.map l.nodes.tripleOf,
          { s with dictionary := { s.dictionary with cache } },
          ⟨some (Traversal.next s.cube cells).2.2⟩) ∧
      Represents { s with dictionary := { s.dictionary with cache } } l := by
  change ∃ cache, Search.next s ⟨some cells⟩ = _ ∧ _
  rw [Search.next]
  dsimp only
  obtain ⟨voxel, _, moved⟩ := Traversal.next s.cube cells
  cases voxel with
  | none => exact ⟨s.dictionary.cache, rfl, represents⟩
  | some voxel =>
    obtain ⟨cache, looked, still⟩ := lookup_of_represents represents.dictionary voxel
    dsimp only
    rw [looked]
    exact ⟨cache, rfl, represents.recache still⟩

/-- A position of a pattern is refused or has a coordinate to search for, if there is one. -/
theorem Represents.coordinate? (represents : s.Represents l) (pattern : Option Node) :
    s.coordinate? pattern = (pattern.getD .any).check.map fun _ => l.nodes.sought? pattern := by
  rw [NodeList.sought?]
  by_cases named : pattern.getD .any = .any
  · have unbound : s.coordinate? pattern = .ok (some wild) := by
      cases pattern with
      | none => rfl
      | some node =>
        rw [Option.getD_some] at named
        rw [named]
        rfl
    rw [if_pos named, named, unbound]
    rfl
  · cases pattern with
    | none => exact absurd rfl named
    | some node =>
      rw [if_neg named]
      rw [Option.getD_some] at named ⊢
      rw [coordinate?_of_named named, represents.indexOf? named]

/-- A search opens unless a node of its pattern is refused. It has no cells if there is no
coordinate to search for at some position. -/
theorem Represents.search_eq (represents : s.Represents l)
    (subject predicate object : Option Node) :
    s.search subject predicate object =
      (Node.checkAll [subject.getD .any, predicate.getD .any, object.getD .any]).bind fun _ =>
        match l.nodes.sought? subject, l.nodes.sought? predicate, l.nodes.sought? object with
        | some x, some y, some z => (s.cube.search x y z).map fun cells => ⟨some cells⟩
        | _, _, _ => .ok ⟨none⟩ := by
  rw [Store.search, represents.coordinate?, represents.coordinate?, represents.coordinate?]
  simp only [Node.checkAll]
  cases (subject.getD .any).check with
  | error e => rfl
  | ok _ =>
    cases (predicate.getD .any).check with
    | error e => rfl
    | ok _ =>
      cases (object.getD .any).check with
      | error e => rfl
      | ok _ =>
        simp only [Except.map, bind, Except.bind]
        cases l.nodes.sought? subject <;> cases l.nodes.sought? predicate <;>
          cases l.nodes.sought? object <;> rfl

theorem Represents.search (represents : s.Represents l) (subject predicate object : Option Node) :
    (s.search subject predicate object).map (fun _ => ()) =
      Node.checkAll [subject.getD .any, predicate.getD .any, object.getD .any] := by
  have valid {pattern : Option Node} {x : Int32} (sought : l.nodes.sought? pattern = some x) :
      wild ≤ x := NodeList.wild_le_of_sought? represents.dictionary.length_le sought
  rw [represents.search_eq]
  cases Node.checkAll [subject.getD .any, predicate.getD .any, object.getD .any] with
  | error e => rfl
  | ok _ =>
    rw [Except.bind]
    split
    · next x y z atX atY atZ =>
      rw [Cube.search_eq s.cube (valid atX) (valid atY) (valid atZ)]
      rfl
    · rfl

/-- Draining a search changes at most the cache. -/
theorem Represents.drain (represents : s.Represents l) (limit : Nat) (search : Search) :
    ∃ cache, (Traversal.drain limit s search).2.1 =
        { s with dictionary := { s.dictionary with cache } } ∧
      Represents { s with dictionary := { s.dictionary with cache } } l := by
  refine Traversal.drain_preserves (fun later => ∃ cache, later =
      { s with dictionary := { s.dictionary with cache } } ∧
    Represents { s with dictionary := { s.dictionary with cache } } l) ?_ limit search
    ⟨s.dictionary.cache, rfl, represents⟩
  rintro _ ⟨none | cells⟩ ⟨cache, rfl, still⟩
  · exact ⟨cache, rfl, still⟩
  · obtain ⟨cache, moved, still⟩ := still.next cells
    exact ⟨cache, congrArg (·.2.1) moved, still⟩

/-- Searching changes nothing that the ledger knows. -/
theorem Represents.find (represents : s.Represents l) (subject predicate object : Option Node) :
    (s.find subject predicate object).1.map (fun _ => ()) =
        Node.checkAll [subject.getD .any, predicate.getD .any, object.getD .any] ∧
      (s.find subject predicate object).2.Represents l := by
  rw [Store.find, ← represents.search]
  cases s.search subject predicate object with
  | error e => exact ⟨rfl, represents⟩
  | ok search =>
    obtain ⟨cache, kept, still⟩ := represents.drain s.cube.cardinality search
    refine ⟨rfl, ?_⟩
    change (Traversal.drain s.cube.cardinality s search).2.1.Represents l
    rwa [kept]

theorem Represents.size (represents : s.Represents l) :
    s.size = Ledger.counted l.triples.card := by
  rw [Store.size, represents.cube.counter,
    NodeList.card_voxels represents.dictionary.length_le represents.listed]
  rfl

theorem Represents.isEmpty (represents : s.Represents l) :
    s.isEmpty = decide (l.triples = ∅) := by
  rw [Store.isEmpty, represents.cube.represents.isEmpty, decide_eq_decide, NodeList.voxels,
    Finset.image_eq_empty]

/-- Every call is answered as by the ledger. -/
theorem Represents.step (represents : s.Represents l) (call : Call) :
    (s.step call).1 = (l.step call).1 ∧ (s.step call).2.Represents (l.step call).2 := by
  cases call with
  | add t =>
    obtain ⟨answered, still⟩ := represents.add t
    exact ⟨congrArg Answer.changed answered, still⟩
  | remove t =>
    rw [Store.step, Ledger.step]
    rcases represents.remove t with ⟨e, refused, checked⟩ | ⟨s', removed, checked, still⟩
    · rw [refused, checked]
      exact ⟨rfl, represents⟩
    · rw [removed, checked]
      exact ⟨rfl, still⟩
  | contains t => exact ⟨congrArg Answer.contains (represents.contains t), represents⟩
  | find subject predicate object =>
    obtain ⟨opened, still⟩ := represents.find subject predicate object
    exact ⟨congrArg Answer.searched opened, still⟩
  | size => exact ⟨congrArg Answer.size represents.size, represents⟩
  | isEmpty => exact ⟨congrArg Answer.isEmpty represents.isEmpty, represents⟩
  | count => exact ⟨congrArg Answer.count represents.dictionary.length, represents⟩

theorem run_refines_ledger (lossless : Compression.Lossless) (config : Config)
    (calls : List Call) :
    (Calls.run step calls (empty config)).1 = (Calls.run Ledger.step calls ⟨[], ∅⟩).1 ∧
      (Calls.run step calls (empty config)).2.Represents (Calls.run Ledger.step calls ⟨[], ∅⟩).2 :=
  Calls.run_simulates Represents (fun _ _ call related => related.step call) calls
    (represents_empty lossless config)

/-- Every history of calls on a new store is answered as by the ledger. -/
theorem answers_eq_ledger (lossless : Compression.Lossless) (config : Config)
    (calls : List Call) :
    (Calls.run step calls (empty config)).1 = (Calls.run Ledger.step calls ⟨[], ∅⟩).1 :=
  (run_refines_ledger lossless config calls).1

/-- It leaves a store that holds what the ledger holds. -/
theorem represents_run (lossless : Compression.Lossless) (config : Config)
    (calls : List Call) :
    (Calls.run step calls (empty config)).2.Represents (Calls.run Ledger.step calls ⟨[], ∅⟩).2 :=
  (run_refines_ledger lossless config calls).2

end Store

end TripleCube
