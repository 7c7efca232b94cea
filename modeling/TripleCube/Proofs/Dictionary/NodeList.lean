import TripleCube.Proofs.Calls
import TripleCube.Proofs.Dictionary.Valid
import TripleCube.Proofs.Gzip.Stored

/-! A dictionary is a list of nodes. Keys, compressed payloads and the cache cannot be seen
from outside: every history of calls is answered as by the list of the nodes that were
resolved, in the order in which they came first. -/
namespace TripleCube

namespace Dictionary

/-- The calls on an open dictionary. -/
inductive Call
  | resolve (node : Node)
  | indexOf (node : Node)
  | lookup (index : Int32)
  | record (index : Int32)
  | count

/-- What calls answer. Of a record its index counts and the node that it stores. -/
inductive Answer
  | resolved (outcome : Except Error Int32)
  | found (outcome : Except Error (Option Int32))
  | node (outcome : Except Error Node)
  | record (outcome : Except Error (Int32 × Except Error Node))
  | count (nodes : Nat)

def step [Compression] (d : Dictionary) : Call → Answer × Dictionary
  | .resolve node =>
    match d.resolve node with
    | .ok (index, d) => (.resolved (.ok index), d)
    | .error e => (.resolved (.error e), d)
  | .indexOf node => (.found (d.indexOf? node), d)
  | .lookup index => (.node (d.lookup index).1, (d.lookup index).2)
  | .record index => (.record ((d.record index).map fun r => (r.index, r.decode)), d)
  | .count => (.count d.count, d)

theorem step_of_resolve [Compression] {d d' : Dictionary} {node : Node} {index : Int32}
    (resolved : d.resolve node = .ok (index, d')) :
    d.step (.resolve node) = (.resolved (.ok index), d') := by
  rw [step, resolved]

theorem step_of_failed_resolve [Compression] {d : Dictionary} {node : Node} {e : Error}
    (failed : d.resolve node = .error e) : d.step (.resolve node) = (.resolved (.error e), d) := by
  rw [step, failed]

end Dictionary

/-- The distinct nodes of a dictionary, each at the position that is its index. -/
abbrev NodeList := List Node

namespace NodeList

/-- The index of a node. A new node goes to the end, if there is room and its fields are not
too long. -/
def resolve (nodes : NodeList) (node : Node) : Except Error Int32 × NodeList :=
  if node = .any then (.ok Dictionary.wildIndex, nodes)
  else match node.refusal? with
    | some e => (.error e, nodes)
    | none => match nodes.idxOf? node with
      | some position => (.ok (Int32.ofNat position), nodes)
      | none =>
        if nodes.length < Dictionary.maxCount then
          (.ok (Int32.ofNat nodes.length), nodes ++ [node])
        else (.error (.invalidState .full), nodes)

def indexOf? (nodes : NodeList) (node : Node) : Except Error (Option Int32) :=
  if node = .any then .ok (some Dictionary.wildIndex)
  else match node.refusal? with
    | some e => .error e
    | none => .ok ((nodes.idxOf? node).map Int32.ofNat)

/-- The node at an index. -/
def at? (nodes : NodeList) (index : Int32) : Option Node :=
  if index < 0 then none else nodes[index.toInt.toNat]?

/-- The node at an index, or the error of looking for it. -/
def lookup (nodes : NodeList) (index : Int32) : Except Error Node :=
  if index = Dictionary.wildIndex then .ok .any
  else match nodes.at? index with
    | some node => .ok node
    | none => .error (.indexNotFound index)

def step (nodes : NodeList) : Dictionary.Call → Dictionary.Answer × NodeList
  | .resolve node => (.resolved (nodes.resolve node).1, (nodes.resolve node).2)
  | .indexOf node => (.found (nodes.indexOf? node), nodes)
  | .lookup index =>
    if index = Dictionary.wildIndex then (.node (.ok .any), nodes)
    else match nodes.at? index with
      | some node => (.node (.ok node), nodes)
      | none => (.node (.error (.indexNotFound index)), nodes)
  | .record index =>
    match nodes.at? index with
    | some node => (.record (.ok (index, .ok node)), nodes)
    | none => (.record (.error (.indexNotFound index)), nodes)
  | .count => (.count nodes.length, nodes)

/-- The index of a listed node. -/
def index (nodes : NodeList) (node : Node) : Int32 := Int32.ofNat (nodes.idxOf node)

theorem idxOf?_eq (nodes : NodeList) (node : Node) :
    nodes.idxOf? node = if node ∈ nodes then some (nodes.idxOf node) else none := by
  split
  · next listed =>
    exact List.findIdx?_eq_some_iff_findIdx_eq.mpr ⟨List.idxOf_lt_length_of_mem listed, rfl⟩
  · next absent => exact List.idxOf?_eq_none_iff.mpr absent

/-- What resolving a node can come to. -/
inductive Resolution (nodes : NodeList) (node : Node) : Except Error Int32 × NodeList → Prop
  | wildcard (isAny : node = .any) : Resolution nodes node (.ok Dictionary.wildIndex, nodes)
  | refused (e : Error) (named : node ≠ .any) (refusal : node.refusal? = some e) :
    Resolution nodes node (.error e, nodes)
  | known (named : node ≠ .any) (listed : node ∈ nodes) :
    Resolution nodes node (.ok (nodes.index node), nodes)
  | full (named : node ≠ .any) (absent : node ∉ nodes)
    (full : ¬ nodes.length < Dictionary.maxCount) :
    Resolution nodes node (.error (.invalidState .full), nodes)
  | appended (named : node ≠ .any) (absent : node ∉ nodes)
    (room : nodes.length < Dictionary.maxCount) :
    Resolution nodes node (.ok (Int32.ofNat nodes.length), nodes ++ [node])

theorem resolve_of_refusal {nodes : NodeList} {node : Node} {e : Error}
    (refusal : node.refusal? = some e) : nodes.resolve node = (.error e, nodes) := by
  have named : node ≠ .any := by
    rintro rfl
    cases refusal
  rw [resolve, if_neg named, refusal]

theorem resolution (nodes : NodeList) (node : Node) :
    Resolution nodes node (nodes.resolve node) := by
  rw [resolve, idxOf?_eq]
  by_cases named : node = .any
  · rw [if_pos named]
    exact .wildcard named
  · rw [if_neg named]
    cases refusal : node.refusal? with
    | some e => exact .refused e named refusal
    | none =>
      by_cases listed : node ∈ nodes
      · rw [if_pos listed]
        exact .known named listed
      · rw [if_neg listed]
        dsimp only
        split
        · next room => exact .appended named listed room
        · next full => exact .full named listed full

end NodeList

namespace Dictionary

section

variable [Compression]

/-- An open dictionary whose records store the nodes of a list, which they do for good only
under a lossless compression. -/
structure Represents (d : Dictionary) (nodes : NodeList) : Prop where
  lossless : Compression.Lossless
  keyed : d.Keyed
  isOpen : d.closed = false
  length : d.records.size = nodes.length
  stores : ∀ (position : Nat) (r : NodeRecord) (node : Node), d.records[position]? = some r →
    nodes[position]? = some node → r.Stores node
  named : .any ∉ nodes

variable {d : Dictionary} {nodes : NodeList}

theorem represents_empty (lossless : Compression.Lossless) (config : Config) :
    (empty config).Represents [] where
  lossless := lossless
  keyed := keyed_empty config
  isOpen := rfl
  length := rfl
  stores position r node _ found := by simp at found
  named := by simp

theorem Represents.length_le (represents : d.Represents nodes) : nodes.length ≤ 2 ^ 31 :=
  represents.length ▸ represents.keyed.size

/-- Each node of the list has its record. -/
theorem Represents.exists_record (represents : d.Represents nodes) {position : Nat} {node : Node}
    (listed : nodes[position]? = some node) :
    position < 2 ^ 31 ∧ ∃ r, d.records[position]? = some r ∧ r.Stores node := by
  obtain ⟨lt, _⟩ := List.getElem?_eq_some_iff.mp listed
  have inRecords : position < d.records.size := represents.length.symm ▸ lt
  have found := Array.getElem?_eq_getElem inRecords
  exact ⟨Nat.lt_of_lt_of_le lt represents.length_le, _, found,
    represents.stores position _ node found listed⟩

/-- The content map finds the position of a node in the list. -/
theorem Represents.find?_keyOf (represents : d.Represents nodes) {node : Node}
    (storable : node.Storable) :
    d.byContent.find? (NodeRecord.keyOf node) = (nodes.idxOf? node).map Int32.ofNat := by
  cases position? : nodes.idxOf? node with
  | some position =>
    obtain ⟨lt, same, _⟩ := List.idxOf?_eq_some_iff.mp position?
    have listed : nodes[position]? = some node := by rw [List.getElem?_eq_getElem lt, same]
    obtain ⟨_, r, found, stores⟩ := represents.exists_record listed
    obtain ⟨key, hasKey, stored⟩ := represents.keyed.bound position r found
    rw [stores.key] at hasKey
    cases hasKey
    rw [stored, represents.keyed.index position r found]
    rfl
  | none =>
    have absent := List.idxOf?_eq_none_iff.mp position?
    rw [Option.map_none, Option.eq_none_iff_forall_ne_some]
    intro index stored
    obtain ⟨r, found, hasKey⟩ := represents.keyed.listed _ index stored
    obtain ⟨_, found⟩ := at?_eq_some found
    have lt : index.toInt.toNat < nodes.length := represents.length ▸ lt_size found
    have listed := List.getElem?_eq_getElem lt
    have stores := represents.stores _ r _ found listed
    rw [stores.key, Except.ok.injEq] at hasKey
    have same := NodeRecord.keyOf_injective stores.storable storable hasKey
    exact absent (same ▸ List.getElem_mem lt)

theorem Represents.push (represents : d.Represents nodes) {node : Node} {r : NodeRecord}
    (room : d.records.size < maxCount) (next : r.index = Int32.ofNat d.records.size)
    (stores : r.Stores node) (named : node ≠ .any) (absent : nodes.idxOf? node = none) :
    (d.push (NodeRecord.keyOf node) r).Represents (nodes ++ [node]) where
  lossless := represents.lossless
  keyed := by
    refine represents.keyed.push room next stores.key ?_
    rw [represents.find?_keyOf stores.storable, absent]
    rfl
  isOpen := represents.isOpen
  length := by simp [Dictionary.push, represents.length]
  stores position other listed found stands := by
    rw [Dictionary.push, Array.getElem?_push] at found
    split at found
    · next last =>
      cases found
      rw [last, represents.length, List.getElem?_append_right (Nat.le_refl _)] at stands
      simp only [Nat.sub_self, List.getElem?_cons_zero, Option.some.injEq] at stands
      exact stands ▸ stores
    · have lt : position < nodes.length := represents.length ▸ lt_size found
      rw [List.getElem?_append_left lt] at stands
      exact represents.stores position other listed found stands
  named := by
    rw [List.mem_append, List.mem_singleton]
    rintro (member | same)
    · exact represents.named member
    · exact named same.symm

/-- Records are found where the list has nodes. -/
theorem Represents.at?_eq (represents : d.Represents nodes) (index : Int32) :
    (nodes.at? index = none ∧ d.at? index = none) ∨
      ∃ node r, nodes.at? index = some node ∧ d.at? index = some r ∧ r.Stores node ∧
        r.index = index := by
  rw [NodeList.at?, at?]
  by_cases negative : index < 0
  · exact Or.inl ⟨if_pos negative, if_pos negative⟩
  · rw [if_neg negative, if_neg negative]
    cases listed : nodes[index.toInt.toNat]? with
    | none =>
      have ge := List.getElem?_eq_none_iff.mp listed
      exact Or.inl ⟨rfl, Array.getElem?_eq_none (represents.length ▸ ge)⟩
    | some node =>
      obtain ⟨_, r, found, stores⟩ := represents.exists_record listed
      refine Or.inr ⟨node, r, rfl, found, stores, ?_⟩
      rw [represents.keyed.index _ r found, ofNat_toNat (Int32.not_lt.mp negative)]

/-- Resolving answers as the list does and goes on storing what it lists. -/
theorem Represents.resolve (represents : d.Represents nodes) (node : Node) :
    (∃ e, d.resolve node = .error e ∧ nodes.resolve node = (.error e, nodes)) ∨
      ∃ index d', d.resolve node = .ok (index, d') ∧ (nodes.resolve node).1 = .ok index ∧
        d'.Represents (nodes.resolve node).2 := by
  have outcome := resolution represents.isOpen node
  generalize d.resolve node = answer at outcome ⊢
  rw [NodeList.resolve]
  cases outcome with
  | wildcard isAny =>
    rw [if_pos isAny]
    exact Or.inr ⟨_, d, rfl, rfl, represents⟩
  | refused e named refusal =>
    rw [if_neg named, refusal]
    exact Or.inl ⟨e, rfl, rfl⟩
  | known index named storable bound =>
    rw [represents.find?_keyOf storable, Option.map_eq_some_iff] at bound
    obtain ⟨position, listed, rfl⟩ := bound
    rw [if_neg named, storable, listed]
    exact Or.inr ⟨_, d, rfl, rfl, represents⟩
  | lossy e lossy => exact absurd represents.lossless lossy
  | full named storable fresh full =>
    rw [represents.find?_keyOf storable, Option.map_eq_none_iff] at fresh
    rw [if_neg named, storable, fresh, ← represents.length]
    exact Or.inl ⟨_, rfl, if_neg full⟩
  | interned r named storable kind next fresh room stores =>
    rw [represents.find?_keyOf storable, Option.map_eq_none_iff] at fresh
    rw [if_neg named, storable, fresh, ← represents.length]
    dsimp only
    rw [if_pos room]
    exact Or.inr ⟨_, _, rfl, rfl,
      represents.push room next (stores represents.lossless) named fresh⟩

theorem Represents.indexOf? (represents : d.Represents nodes) (node : Node) :
    d.indexOf? node = nodes.indexOf? node := by
  rw [NodeList.indexOf?]
  by_cases named : node = .any
  · rw [if_pos named, named]
    exact indexOf?_any represents.isOpen
  · rw [if_neg named, indexOf?_eq represents.isOpen named]
    cases refused : node.refusal? with
    | some e => rfl
    | none =>
      dsimp only
      rw [represents.find?_keyOf refused]

theorem Represents.recache (represents : d.Represents nodes) {cache : Cache Int32 Node}
    (agrees : Cache.Agrees d.Decodes cache.entries) : Represents { d with cache } nodes :=
  ⟨represents.lossless, represents.keyed.recache agrees, represents.isOpen, represents.length,
    represents.stores, represents.named⟩

/-- Looking an index up answers with the node listed there and changes at most the cache. -/
theorem Represents.lookup (represents : d.Represents nodes) (index : Int32) :
    ∃ cache, d.lookup index = (nodes.lookup index, { d with cache }) ∧
      Represents { d with cache } nodes := by
  obtain ⟨answer, cache, kept, agrees⟩ := lookup_eq represents.keyed.toValid represents.isOpen index
  refine ⟨cache, Prod.ext ?_ kept, represents.recache agrees⟩
  rw [answer, record_eq represents.isOpen, NodeList.lookup]
  split
  · rfl
  · rcases represents.at?_eq index with ⟨unlisted, missing⟩ | ⟨node, r, listed, found, stores, _⟩
    · rw [unlisted, missing]
      rfl
    · rw [listed, found]
      exact stores.decoded

/-- Every call is answered as by the list. -/
theorem Represents.step (represents : d.Represents nodes) (call : Call) :
    (d.step call).1 = (nodes.step call).1 ∧ (d.step call).2.Represents (nodes.step call).2 := by
  cases call with
  | resolve node =>
    rw [Dictionary.step, NodeList.step]
    rcases represents.resolve node with ⟨e, refused, listed⟩ | ⟨index, d', resolved, listed, still⟩
    · rw [refused, listed]
      exact ⟨rfl, represents⟩
    · rw [resolved, listed]
      exact ⟨rfl, still⟩
  | indexOf node =>
    rw [Dictionary.step, NodeList.step, represents.indexOf?]
    exact ⟨rfl, represents⟩
  | lookup index =>
    obtain ⟨cache, looked, still⟩ := represents.lookup index
    rw [Dictionary.step, NodeList.step, looked, NodeList.lookup]
    split
    · exact ⟨rfl, still⟩
    · cases nodes.at? index <;> exact ⟨rfl, still⟩
  | record index =>
    rw [Dictionary.step, NodeList.step, record_eq represents.isOpen]
    rcases represents.at?_eq index with
      ⟨unlisted, missing⟩ | ⟨node, r, listed, found, stores, stands⟩
    · rw [unlisted, missing]
      exact ⟨rfl, represents⟩
    · rw [listed, found]
      refine ⟨?_, represents⟩
      simp only [Except.map, stands, stores.decoded]
  | count =>
    rw [Dictionary.step, NodeList.step, count, represents.length]
    exact ⟨rfl, represents⟩

end

end Dictionary

namespace NodeList

/-- The nodes are distinct, and none of them is the wildcard. -/
structure Distinct (nodes : NodeList) : Prop where
  nodup : nodes.Nodup
  named : .any ∉ nodes

theorem Distinct.resolve {nodes : NodeList} (distinct : nodes.Distinct) (node : Node) :
    (nodes.resolve node).2.Distinct := by
  have outcome := nodes.resolution node
  generalize nodes.resolve node = answer at outcome ⊢
  cases outcome with
  | appended named absent room =>
    refine ⟨List.nodup_append.mpr ⟨distinct.nodup, by simp, ?_⟩, ?_⟩
    · intro old member new last same
      rw [List.mem_singleton] at last
      exact absent (last ▸ same ▸ member)
    · rw [List.mem_append, List.mem_singleton]
      rintro (member | same)
      · exact distinct.named member
      · exact named same.symm
  | _ => exact distinct

theorem Distinct.step {nodes : NodeList} (distinct : nodes.Distinct) (call : Dictionary.Call) :
    (nodes.step call).2.Distinct := by
  cases call with
  | resolve node => exact distinct.resolve node
  | lookup index =>
    rw [NodeList.step]
    split
    · exact distinct
    · cases nodes.at? index <;> exact distinct
  | record index =>
    rw [NodeList.step]
    cases nodes.at? index <;> exact distinct
  | indexOf node => exact distinct
  | count => exact distinct

end NodeList

namespace Dictionary

end Dictionary

end TripleCube
