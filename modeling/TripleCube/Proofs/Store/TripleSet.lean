import TripleCube.Proofs.Gzip.Stored
import TripleCube.Proofs.Store.Ledger

/-! Stores as sets of triples. A ledger refuses nodes whose fields are too long, and any new
node once all indices are given away; its counter is right below the width of the counter.
Within these limits nothing is left of it but a set, and the nodes that were ever added. -/
namespace TripleCube

/-- A set of triples, and the nodes of all the triples that were ever added to it. -/
structure TripleSet where
  triples : Finset Triple
  nodes : Finset Node

namespace TripleSet

def empty : TripleSet := ⟨∅, ∅⟩

def step (s : TripleSet) : Store.Call → Store.Answer × TripleSet
  | .add t =>
    (.changed (.ok (decide (t ∉ s.triples))), ⟨insert t s.triples, s.nodes ∪ t.nodes.toFinset⟩)
  | .remove t =>
    (.changed (.ok (decide (t ∈ s.triples))), { s with triples := s.triples.erase t })
  | .contains t => (.contains (.ok (decide (t ∈ s.triples))), s)
  | .find _ _ _ => (.searched (.ok ()), s)
  | .size => (.size s.triples.card, s)
  | .isEmpty => (.isEmpty (decide (s.triples = ∅)), s)
  | .count => (.count s.nodes.card, s)

end TripleSet

/-- Whether a call is made with nodes that have a key, and with triples that are concrete. -/
def Store.Call.Permitted : Store.Call → Prop
  | .add t | .remove t | .contains t =>
    t.isConcrete = true ∧ ∀ node ∈ t.nodes, node.Storable
  | .find subject predicate object =>
    ∀ node ∈ [subject.getD .any, predicate.getD .any, object.getD .any], node.Storable
  | .size | .isEmpty | .count => True

instance (call : Store.Call) : Decidable call.Permitted := by
  cases call <;> unfold Store.Call.Permitted <;> infer_instance

/-- The limits of a history: what the calls check of their nodes, the indices there are, and
the width of the counter. -/
structure WithinLimits (calls : List Store.Call) : Prop where
  permitted : ∀ call ∈ calls, call.Permitted
  nodes : (Calls.run TripleSet.step calls .empty).2.nodes.card ≤ Dictionary.maxCount
  length : calls.length < 2 ^ 63

namespace TripleSet

theorem nodes_subset_step (s : TripleSet) (call : Store.Call) :
    s.nodes ⊆ (s.step call).2.nodes := by
  cases call with
  | add t => exact Finset.subset_union_left
  | _ => exact Finset.Subset.refl _

theorem nodes_subset_run (s : TripleSet) (calls : List Store.Call) :
    s.nodes ⊆ (Calls.run step calls s).2.nodes :=
  Calls.run_preserves (fun later : TripleSet => s.nodes ⊆ later.nodes)
    (fun later call grows => grows.trans (later.nodes_subset_step call)) calls
    (Finset.Subset.refl _)

theorem card_step_le (s : TripleSet) (call : Store.Call) :
    (s.step call).2.triples.card ≤ s.triples.card + 1 := by
  cases call with
  | add t => exact Finset.card_insert_le t s.triples
  | remove t => exact Nat.le_succ_of_le Finset.card_erase_le
  | _ => exact Nat.le_succ _

end TripleSet

namespace NodeList

variable {nodes : NodeList}

/-- A node that has a key is listed, if there is room for it. -/
theorem resolve_of_room (nodup : nodes.Nodup) {node : Node} (named : node ≠ .any)
    (storable : node.Storable)
    (room : (insert node nodes.toFinset).card ≤ Dictionary.maxCount) :
    ∃ index nodes', nodes.resolve node = (.ok index, nodes') ∧ nodes'.Nodup ∧
      nodes'.toFinset = insert node nodes.toFinset := by
  have outcome := nodes.resolution node
  generalize nodes.resolve node = answer at outcome ⊢
  cases outcome with
  | wildcard isAny => exact absurd isAny named
  | refused e _ refusal =>
    rw [storable] at refusal
    cases refusal
  | known _ listed =>
    refine ⟨_, nodes, rfl, nodup, ?_⟩
    rw [Finset.insert_eq_of_mem (List.mem_toFinset.mpr listed)]
  | full _ absent full =>
    rw [Finset.card_insert_of_notMem (mt List.mem_toFinset.mp absent),
      List.toFinset_card_of_nodup nodup] at room
    exact absurd room full
  | appended _ absent =>
    refine ⟨_, _, rfl, ?_, ?_⟩
    · exact nodup.append (List.nodup_singleton node) (List.disjoint_singleton.mpr absent)
    · rw [List.toFinset_append, Finset.union_comm]
      rfl

theorem enter_of_room (nodup : nodes.Nodup) {list : List Node} (named : ∀ node ∈ list, node ≠ .any)
    (storable : ∀ node ∈ list, node.Storable)
    (room : (nodes.toFinset ∪ list.toFinset).card ≤ Dictionary.maxCount) :
    ∃ nodes', nodes.enter list = (.ok (), nodes') ∧ nodes'.Nodup ∧
      nodes'.toFinset = nodes.toFinset ∪ list.toFinset := by
  induction list generalizing nodes with
  | nil => exact ⟨nodes, rfl, nodup, by simp⟩
  | cons node rest ih =>
    rw [List.forall_mem_cons] at named storable
    rw [List.toFinset_cons, Finset.union_insert, ← Finset.insert_union] at room ⊢
    have first := (Finset.card_le_card Finset.subset_union_left).trans room
    obtain ⟨index, grown, resolved, distinct, same⟩ :=
      resolve_of_room nodup named.1 storable.1 first
    rw [← same] at room ⊢
    rw [enter, resolved]
    exact ih distinct named.2 storable.2 room

end NodeList

theorem Triple.nodes_ne_any {t : Triple} (concrete : t.isConcrete = true) :
    ∀ node ∈ t.nodes, node ≠ .any := by
  obtain ⟨subject, predicate, object⟩ := isConcrete_iff.mp concrete
  simp [nodes, subject, predicate, object]

namespace Ledger

theorem counted_of_lt {number : Nat} (small : number < 2 ^ 63) : counted number = number := by
  rw [counted, Int64.toInt_ofNat_of_lt small, Int.toNat_natCast]

/-- A ledger with the triples of a set and its nodes, each once. -/
structure Records (l : Ledger) (s : TripleSet) : Prop where
  triples : l.triples = s.triples
  nodes : l.nodes.toFinset = s.nodes
  nodup : l.nodes.Nodup

variable {l : Ledger} {s : TripleSet}

theorem records_empty : Records ⟨[], ∅⟩ .empty := ⟨rfl, rfl, List.nodup_nil⟩

/-- Within the limits every call is answered as by the set. -/
theorem Records.step (records : l.Records s) {call : Store.Call} (permitted : call.Permitted)
    (room : (s.step call).2.nodes.card ≤ Dictionary.maxCount) (few : s.triples.card < 2 ^ 63) :
    (l.step call).1 = (s.step call).1 ∧ (l.step call).2.Records (s.step call).2 := by
  obtain ⟨triples, added⟩ := s
  obtain ⟨rfl, rfl, nodup⟩ := records
  cases call with
  | add t =>
    obtain ⟨concrete, storable⟩ := permitted
    obtain ⟨nodes', entered, nodup', grown⟩ :=
      NodeList.enter_of_room nodup (Triple.nodes_ne_any concrete) storable room
    simp only [Ledger.step, Ledger.add, TripleSet.step, if_pos concrete, entered]
    exact ⟨trivial, rfl, grown, nodup'⟩
  | remove t =>
    simp only [Ledger.step, TripleSet.step, Triple.check_eq_ok permitted.1 permitted.2]
    exact ⟨trivial, rfl, rfl, nodup⟩
  | contains t =>
    simp only [Ledger.step, TripleSet.step, Triple.check_eq_ok permitted.1 permitted.2]
    exact ⟨rfl, rfl, rfl, nodup⟩
  | find subject predicate object =>
    simp only [Ledger.step, TripleSet.step, Node.checkAll_eq_ok permitted]
    exact ⟨trivial, rfl, rfl, nodup⟩
  | size => exact ⟨congrArg Store.Answer.size (counted_of_lt few), rfl, rfl, nodup⟩
  | isEmpty => exact ⟨rfl, rfl, rfl, nodup⟩
  | count =>
    exact ⟨congrArg Store.Answer.count (List.toFinset_card_of_nodup nodup).symm, rfl, rfl, nodup⟩

/-- Within the limits every history is answered as by the set. -/
theorem Records.run (records : l.Records s) {calls : List Store.Call}
    (permitted : ∀ call ∈ calls, call.Permitted)
    (room : (Calls.run TripleSet.step calls s).2.nodes.card ≤ Dictionary.maxCount)
    (few : s.triples.card + calls.length < 2 ^ 63) :
    (Calls.run Ledger.step calls l).1 = (Calls.run TripleSet.step calls s).1 := by
  induction calls generalizing l s with
  | nil => rfl
  | cons call rest ih =>
    rw [List.forall_mem_cons] at permitted
    rw [List.length_cons] at few
    have card := s.card_step_le call
    have now := (Finset.card_le_card ((s.step call).2.nodes_subset_run rest)).trans room
    obtain ⟨answered, still⟩ := records.step permitted.1 now (by omega)
    rw [Calls.run, Calls.run, answered, ih still permitted.2 room (by omega)]

end Ledger

/-- A history over two triples that differ by an absent and an empty language. -/
def languageHistory : List Store.Call :=
  let absent : Triple := ⟨.uri "s", .uri "p", .literal ⟨"x", none, none⟩⟩
  let blank : Triple := ⟨.uri "s", .uri "p", .literal ⟨"x", some "", none⟩⟩
  [.add absent, .add absent, .add blank, .remove absent, .contains absent,
    .find (some (.blank "b")) none none, .size, .isEmpty, .count]

end TripleCube
