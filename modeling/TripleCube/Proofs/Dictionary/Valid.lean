import TripleCube.Dictionary.Basic
import TripleCube.Proofs.Cache
import TripleCube.Proofs.Record.Key

/-! What ties the parts of a dictionary together: records stand at their indices, the cache only
knows what they decode to, and the content map has exactly their keys, of which the last can be
broken by a compression that loses something. Each call is described under this invariant, so
that nothing later has to look into the three parts. -/
namespace TripleCube

theorem toInt_ofNat {n : Nat} (small : n < 2 ^ 31) : (Int32.ofNat n).toInt = n :=
  Int32.toInt_ofNat_of_lt small

theorem ofNat_nonneg {n : Nat} (small : n < 2 ^ 31) : 0 ≤ Int32.ofNat n := by
  rw [Int32.le_iff_toInt_le, toInt_ofNat small]
  exact Int.natCast_nonneg n

theorem ofNat_inj {m n : Nat} (sm : m < 2 ^ 31) (sn : n < 2 ^ 31)
    (same : Int32.ofNat m = Int32.ofNat n) : m = n := by
  have ints := congrArg Int32.toInt same
  rw [toInt_ofNat sm, toInt_ofNat sn] at ints
  exact Int.ofNat_inj.mp ints

theorem ofNat_toNat {index : Int32} (nonneg : 0 ≤ index) :
    Int32.ofNat index.toInt.toNat = index := by
  have bound := index.toInt_lt
  rw [Int32.le_iff_toInt_le] at nonneg
  have zero : (0 : Int32).toInt = 0 := rfl
  apply Int32.toInt_inj.mp
  rw [toInt_ofNat (by omega)]
  omega

namespace Dictionary

/-- The record at an index, if there is one. -/
def at? (d : Dictionary) (index : Int32) : Option NodeRecord :=
  if index < 0 then none else d.records[index.toInt.toNat]?

/-- A dictionary in which the next index has a record and its key. -/
def push (d : Dictionary) (key : List UInt8) (r : NodeRecord) : Dictionary :=
  { d with records := d.records.push r, byContent := d.byContent.insert key r.index }

variable {d : Dictionary}

theorem at?_ofNat {position : Nat} (small : position < 2 ^ 31) :
    d.at? (Int32.ofNat position) = d.records[position]? := by
  rw [at?, if_neg (not_lt_zero (ofNat_nonneg small)), toInt_ofNat small, Int.toNat_natCast]

theorem at?_eq_some {index : Int32} {r : NodeRecord} (found : d.at? index = some r) :
    0 ≤ index ∧ d.records[index.toInt.toNat]? = some r := by
  rw [at?, Option.ite_none_left_eq_some] at found
  exact ⟨Int32.not_lt.mp found.1, found.2⟩

theorem lt_size {position : Nat} {r : NodeRecord} (found : d.records[position]? = some r) :
    position < d.records.size := by
  obtain ⟨lt, _⟩ := Array.getElem?_eq_some_iff.mp found
  exact lt

theorem ensureOpen_of_open (isOpen : d.closed = false) : d.ensureOpen = .ok () := by
  simp [ensureOpen, isOpen]

theorem record_eq (isOpen : d.closed = false) (index : Int32) :
    d.record index = match d.at? index with
      | some r => .ok r
      | none => .error (.indexNotFound index) := by
  rw [record, ensureOpen_of_open isOpen, at?]
  by_cases negative : index < 0
  · rw [if_pos negative, if_pos negative]
    rfl
  · rw [if_neg negative, if_neg negative]
    cases d.records[index.toInt.toNat]? <;> rfl

theorem at?_push {index : Int32} {r : NodeRecord} (found : d.at? index = some r)
    (key : List UInt8) (new : NodeRecord) : (d.push key new).at? index = some r := by
  obtain ⟨nonneg, found⟩ := at?_eq_some found
  rw [at?, if_neg (not_lt_zero nonneg), push, Array.getElem?_push_lt (lt_size found)]
  exact (Array.getElem?_eq_getElem (lt_size found)).symm.trans found

theorem isAny_eq_false {node : Node} (named : node ≠ .any) : node.isAny = false := by
  cases node <;> simp_all [Node.isAny]

theorem indexOf?_any (isOpen : d.closed = false) : d.indexOf? .any = .ok (some wildIndex) := by
  rw [indexOf?, ensureOpen_of_open isOpen]
  rfl

theorem indexOf?_eq (isOpen : d.closed = false) {node : Node} (named : node ≠ .any) :
    d.indexOf? node = match node.refusal? with
      | some e => .error e
      | none => .ok (d.byContent.find? (NodeRecord.keyOf node)) := by
  rw [indexOf?, ensureOpen_of_open isOpen, isAny_eq_false named, NodeRecord.nodeKey_eq]
  cases node.refusal? <;> rfl

/-- A record without an index takes the next one. -/
theorem setIndex_ofNat {r : NodeRecord} (unassigned : r.index = NodeRecord.unassigned) {n : Nat}
    (small : n < 2 ^ 31) :
    r.setIndex (Int32.ofNat n) = .ok { r with index := Int32.ofNat n } := by
  rw [NodeRecord.setIndex, NodeRecord.isAssigned, unassigned,
    if_neg (not_lt_zero (ofNat_nonneg small))]
  rfl

section

variable [Compression]

/-- The node that an index stands for, according to its record. -/
def Decodes (d : Dictionary) (index : Int32) (node : Node) : Prop :=
  ∃ r, d.at? index = some r ∧ r.decode = .ok node

structure Valid (d : Dictionary) : Prop where
  size : d.records.size ≤ maxCount
  index : ∀ (position : Nat) (r : NodeRecord), d.records[position]? = some r →
    r.index = Int32.ofNat position
  cache : Cache.Agrees d.Decodes d.cache.entries

structure Keyed (d : Dictionary) : Prop extends Valid d where
  bound : ∀ (position : Nat) (r : NodeRecord), d.records[position]? = some r →
    ∃ key, r.canonicalKey = .ok key ∧ d.byContent.find? key = some r.index
  listed : ∀ key index, d.byContent.find? key = some index →
    ∃ r, d.at? index = some r ∧ r.canonicalKey = .ok key

theorem keyed_empty (config : Config) : (empty config).Keyed where
  size := Nat.zero_le _
  index position r found := by simp [empty] at found
  bound position r found := by simp [empty] at found
  listed key index found := by simp [empty] at found
  cache := Cache.agrees_nil

/-- The same records with another cache. -/
theorem Valid.recache (valid : d.Valid) {cache : Cache Int32 Node}
    (agrees : Cache.Agrees d.Decodes cache.entries) : Valid { d with cache } :=
  ⟨valid.size, valid.index, agrees⟩

theorem Keyed.recache (keyed : d.Keyed) {cache : Cache Int32 Node}
    (agrees : Cache.Agrees d.Decodes cache.entries) : Keyed { d with cache } :=
  ⟨keyed.toValid.recache agrees, keyed.bound, keyed.listed⟩

theorem Valid.push (valid : d.Valid) (key : List UInt8) {r : NodeRecord}
    (room : d.records.size < maxCount) (next : r.index = Int32.ofNat d.records.size) :
    (d.push key r).Valid where
  size := by
    rw [Dictionary.push, Array.size_push]
    exact room
  index position other found := by
    rw [Dictionary.push, Array.getElem?_push] at found
    split at found
    · next last =>
      cases found
      rw [next, last]
    · exact valid.index position other found
  cache entry member := by
    obtain ⟨old, found, decoded⟩ := valid.cache entry member
    exact ⟨old, at?_push found key r, decoded⟩

theorem Keyed.push (keyed : d.Keyed) {key : List UInt8} {r : NodeRecord}
    (room : d.records.size < maxCount) (next : r.index = Int32.ofNat d.records.size)
    (hasKey : r.canonicalKey = .ok key) (fresh : d.byContent.find? key = none) :
    (d.push key r).Keyed where
  toValid := keyed.toValid.push key room next
  bound position other found := by
    rw [Dictionary.push, Array.getElem?_push] at found
    split at found
    · cases found
      exact ⟨key, hasKey, by simp [Dictionary.push]⟩
    · obtain ⟨otherKey, hasOther, stored⟩ := keyed.bound position other found
      refine ⟨otherKey, hasOther, ?_⟩
      have different : key ≠ otherKey := by
        rintro rfl
        rw [fresh] at stored
        cases stored
      rw [Dictionary.push, Assoc.find?_insert, if_neg different]
      exact stored
  listed other index found := by
    rw [Dictionary.push, Assoc.find?_insert] at found
    split at found
    · next same =>
      cases found
      refine ⟨r, ?_, same ▸ hasKey⟩
      rw [next, at?_ofNat room, Dictionary.push, Array.getElem?_push_size]
    · obtain ⟨old, found, hasOther⟩ := keyed.listed other index found
      exact ⟨old, at?_push found key r, hasOther⟩

theorem resolve_any (isOpen : d.closed = false) : d.resolve .any = .ok (wildIndex, d) := by
  rw [resolve, ensureOpen_of_open isOpen]
  rfl

/-- Resolving looks the key up and interns the node where there is none. -/
theorem resolve_eq (isOpen : d.closed = false) {node : Node} (named : node ≠ .any) :
    d.resolve node = match node.refusal? with
      | some e => .error e
      | none => match d.byContent.find? (NodeRecord.keyOf node) with
        | some index => .ok (index, d)
        | none => d.intern node (NodeRecord.keyOf node) := by
  rw [resolve, ensureOpen_of_open isOpen, isAny_eq_false named, NodeRecord.nodeKey_eq]
  cases node.refusal? with
  | some e => rfl
  | none =>
    simp only [bind, Except.bind]
    cases d.byContent.find? (NodeRecord.keyOf node) <;> rfl

/-- What interning a node can come to. -/
inductive Interning (d : Dictionary) (node : Node) (key : List UInt8) :
    Except Error (Int32 × Dictionary) → Prop
  | lossy (e : Error) (lossy : ¬ Compression.Lossless) : Interning d node key (.error e)
  | full (full : ¬ d.records.size < maxCount) :
    Interning d node key (.error (.invalidState .full))
  | interned (r : NodeRecord) (kind : r.kind = .any → node = .any)
    (next : r.index = Int32.ofNat d.records.size) (room : d.records.size < maxCount)
    (stores : Compression.Lossless → r.Stores node) :
    Interning d node key (.ok (Int32.ofNat d.records.size, d.push key r))

/-- Interning stores a record of the node at the next index, if there is one. -/
theorem interning {node : Node} (storable : node.Storable) (key : List UInt8) :
    Interning d node key (d.intern node key) := by
  have outcome := NodeRecord.encoding node NodeRecord.unassigned d.config.threshold
  rw [intern]
  generalize NodeRecord.encode node NodeRecord.unassigned d.config.threshold = result at outcome
  cases outcome with
  | refused e refusal => cases storable.symm.trans refusal
  | failed e _ lossy => exact .lossy e lossy
  | encoded r _ unassigned kind stores =>
    simp only [bind, Except.bind]
    by_cases room : d.records.size < maxCount
    · rw [if_pos room, setIndex_ofNat unassigned room]
      exact .interned _ kind rfl room fun lossless =>
        ⟨storable, (stores lossless).key, (stores lossless).decoded⟩
    · rw [if_neg room]
      exact .full room

/-- A node that is not too long for a plain record is stored as it is. -/
theorem intern_of_not_long {node : Node} (storable : node.Storable)
    (short : ¬ NodeRecord.Long node d.config.threshold) (room : d.records.size < maxCount)
    (key : List UInt8) :
    d.intern node key = .ok (Int32.ofNat d.records.size, d.push key
      ⟨Int32.ofNat d.records.size, .ofNode node, NodeRecord.plainBytes node⟩) := by
  rw [intern, NodeRecord.encode_of_storable storable, if_neg short]
  simp only [bind, Except.bind]
  rw [if_pos room, setIndex_ofNat rfl room]
  rfl

/-- What resolving a node can come to. -/
inductive Resolution (d : Dictionary) (node : Node) : Except Error (Int32 × Dictionary) → Prop
  | wildcard (isAny : node = .any) : Resolution d node (.ok (wildIndex, d))
  | refused (e : Error) (named : node ≠ .any) (refusal : node.refusal? = some e) :
    Resolution d node (.error e)
  | known (index : Int32) (named : node ≠ .any) (storable : node.Storable)
    (bound : d.byContent.find? (NodeRecord.keyOf node) = some index) :
    Resolution d node (.ok (index, d))
  | lossy (e : Error) (lossy : ¬ Compression.Lossless) : Resolution d node (.error e)
  | full (named : node ≠ .any) (storable : node.Storable)
    (fresh : d.byContent.find? (NodeRecord.keyOf node) = none)
    (full : ¬ d.records.size < maxCount) : Resolution d node (.error (.invalidState .full))
  | interned (r : NodeRecord) (named : node ≠ .any) (storable : node.Storable)
    (kind : r.kind ≠ .any) (next : r.index = Int32.ofNat d.records.size)
    (fresh : d.byContent.find? (NodeRecord.keyOf node) = none)
    (room : d.records.size < maxCount) (stores : Compression.Lossless → r.Stores node) :
    Resolution d node (.ok (Int32.ofNat d.records.size, d.push (NodeRecord.keyOf node) r))

theorem resolution (isOpen : d.closed = false) (node : Node) :
    Resolution d node (d.resolve node) := by
  by_cases named : node = .any
  · subst named
    rw [resolve_any isOpen]
    exact .wildcard rfl
  · rw [resolve_eq isOpen named]
    cases refusal : node.refusal? with
    | some e => exact .refused e named refusal
    | none =>
      cases fresh : d.byContent.find? (NodeRecord.keyOf node) with
      | some index => exact .known index named refusal fresh
      | none =>
        have outcome := interning (d := d) refusal (NodeRecord.keyOf node)
        dsimp only
        generalize d.intern node (NodeRecord.keyOf node) = result at outcome
        cases outcome with
        | lossy e lossy => exact .lossy e lossy
        | full full => exact .full named refusal fresh full
        | interned r kind next room stores =>
          exact .interned r named refusal (mt kind named) next fresh room stores

/-- A lookup answers with what the record decodes to and changes nothing but the cache. -/
theorem lookup_eq (valid : d.Valid) (isOpen : d.closed = false) (index : Int32) :
    (d.lookup index).1 =
        (if index = wildIndex then .ok .any else d.record index >>= NodeRecord.decode) ∧
      ∃ cache, (d.lookup index).2 = { d with cache } ∧ Cache.Agrees d.Decodes cache.entries := by
  rw [lookup, ensureOpen_of_open isOpen]
  dsimp only
  split
  · exact ⟨rfl, d.cache, rfl, valid.cache⟩
  · have kept := valid.cache.get? index
    have answered : ∀ node, (d.cache.get? index).1 = some node → d.Decodes index node :=
      fun _ hit => valid.cache.of_get? hit
    revert kept answered
    obtain ⟨answer, cache⟩ := d.cache.get? index
    intro kept answered
    cases answer with
    | some node =>
      obtain ⟨r, found, decoded⟩ := answered node rfl
      rw [record_eq isOpen, found]
      exact ⟨decoded.symm, cache, rfl, kept⟩
    | none =>
      have same : record { d with cache } index = d.record index := rfl
      dsimp only
      rw [same]
      cases outcome : d.record index >>= NodeRecord.decode with
      | error e => exact ⟨rfl, cache, rfl, kept⟩
      | ok node =>
        refine ⟨rfl, cache.insert index node, rfl, kept.insert ?_⟩
        obtain ⟨r, found, decoded⟩ := bind_eq_ok.mp outcome
        refine ⟨r, ?_, decoded⟩
        rw [record_eq isOpen] at found
        revert found
        cases d.at? index with
        | none => exact fun found => by cases found
        | some other =>
          intro found
          cases found
          rfl

end

end Dictionary

end TripleCube
