import TripleCube.Dictionary.Stream
import TripleCube.Proofs.Dictionary.NodeList
import TripleCube.Proofs.Gzip.Stored

/-! What reading a dictionary checks. A stream that is accepted gives a valid dictionary: the
indices count up and the keys differ. That is not yet one index for each node, since records
of the wildcard kind decode to the wildcard node, which the other calls never look up. -/
namespace TripleCube

namespace Dictionary

variable {d : Dictionary}

/-- No record is of the wildcard kind. -/
def Named (d : Dictionary) : Prop := ∀ r ∈ d.records, r.kind ≠ .any

theorem named_push (key : List UInt8) {r : NodeRecord} (kind : r.kind ≠ .any) :
    (d.push key r).Named ↔ d.Named := by
  simp only [Named, push, Array.mem_push]
  constructor
  · intro named other member
    exact named other (Or.inl member)
  · rintro named other (member | rfl)
    · exact named other member
    · exact kind

section

variable [Compression]

/-- The content map of records that stand from a position on, added to those known before. -/
structure Indexed (records : List NodeRecord) (position : Nat)
    (before after : Assoc (List UInt8) Int32) : Prop where
  stands : ∀ (i : Nat) (r : NodeRecord), records[i]? = some r → r.index.toInt = position + i ∧
    ∃ key, r.canonicalKey = .ok key ∧ after.find? key = some r.index
  kept : ∀ key index, before.find? key = some index → after.find? key = some index
  known : ∀ key index, after.find? key = some index → before.find? key = some index ∨
    ∃ (i : Nat) (r : NodeRecord), records[i]? = some r ∧ r.index = index ∧ r.canonicalKey = .ok key

theorem Indexed.cons {r : NodeRecord} {rest : List NodeRecord} {position : Nat}
    {key : List UInt8} {before after : Assoc (List UInt8) Int32}
    (stands : r.index.toInt = position) (hasKey : r.canonicalKey = .ok key)
    (fresh : before.find? key = none)
    (indexed : Indexed rest (position + 1) (before.insert key r.index) after) :
    Indexed (r :: rest) position before after where
  stands i other found := by
    cases i with
    | zero =>
      rw [List.getElem?_cons_zero, Option.some.injEq] at found
      subst found
      exact ⟨by simpa using stands, key, hasKey, indexed.kept key r.index (by simp)⟩
    | succ i =>
      rw [List.getElem?_cons_succ] at found
      obtain ⟨counts, bound⟩ := indexed.stands i other found
      exact ⟨by push_cast at counts ⊢; omega, bound⟩
  kept other index found := by
    apply indexed.kept
    have different : key ≠ other := by
      rintro rfl
      rw [fresh] at found
      cases found
    rw [Assoc.find?_insert, if_neg different]
    exact found
  known other index found := by
    rcases indexed.known other index found with earlier | ⟨i, s, listed, stored⟩
    · rw [Assoc.find?_insert] at earlier
      split at earlier
      · next same =>
        cases earlier
        exact Or.inr ⟨0, r, rfl, rfl, same ▸ hasKey⟩
      · exact Or.inl earlier
    · exact Or.inr ⟨i + 1, s, listed, stored⟩

theorem indexed_of_indexContent {records : List NodeRecord} {position : Nat}
    {before after : Assoc (List UInt8) Int32}
    (built : indexContent records position before = .ok after) :
    Indexed records position before after := by
  induction records generalizing position before with
  | nil =>
    cases built
    exact ⟨fun i r found => by simp at found, fun _ _ found => found, fun _ _ found => Or.inl found⟩
  | cons r rest ih =>
    rw [indexContent] at built
    split at built
    · next stands =>
      obtain ⟨key, hasKey, built⟩ := bind_eq_ok.mp built
      split at built
      · cases built
      · next fresh => exact (ih built).cons stands hasKey fresh
    · cases built

/-- Records that count up from zero fit the indices. -/
theorem Indexed.length_le {records : List NodeRecord} {before after : Assoc (List UInt8) Int32}
    (indexed : Indexed records 0 before after) : records.length ≤ maxCount := by
  apply Nat.le_of_not_lt
  intro long
  have listed := List.getElem?_eq_getElem long
  obtain ⟨counts, _⟩ := indexed.stands maxCount _ listed
  have bound := Int32.toInt_lt (records.get ⟨maxCount, long⟩).index
  rw [List.get_eq_getElem, counts] at bound
  simp [maxCount] at bound

theorem keyed_of_indexed {records : List NodeRecord} {byContent : Assoc (List UInt8) Int32}
    (indexed : Indexed records 0 [] byContent) (config : Config) :
    Keyed { empty config with records := records.toArray, byContent } where
  size := by simpa using indexed.length_le
  index position r found := by
    rw [List.getElem?_toArray] at found
    obtain ⟨counts, _⟩ := indexed.stands position r found
    obtain ⟨lt, _⟩ := List.getElem?_eq_some_iff.mp found
    apply Int32.toInt_inj.mp
    rw [counts, toInt_ofNat (Nat.lt_of_lt_of_le lt indexed.length_le)]
    omega
  bound position r found := by
    rw [List.getElem?_toArray] at found
    exact (indexed.stands position r found).2
  listed key index found := by
    rcases indexed.known key index found with earlier | ⟨i, r, listed, rfl, hasKey⟩
    · cases earlier
    · obtain ⟨counts, _⟩ := indexed.stands i r listed
      refine ⟨r, ?_, hasKey⟩
      rw [at?, if_neg (by rw [Int32.lt_iff_toInt_lt, counts]; simp)]
      rw [counts]
      simpa using listed
  cache := Cache.agrees_nil

/-- A stream that is accepted gives a valid dictionary. -/
theorem keyed_of_read {source : Source} {config : Config} {d : Dictionary}
    (loaded : read source config = .ok d) : d.Keyed ∧ d.closed = false := by
  obtain ⟨⟨count, source⟩, _, loaded⟩ := bind_eq_ok.mp loaded
  obtain ⟨records, _, loaded⟩ := bind_eq_ok.mp loaded
  obtain ⟨byContent, built, same⟩ := bind_eq_ok.mp loaded
  cases same
  exact ⟨keyed_of_indexed (indexed_of_indexContent built) config, rfl⟩

/-- Each node has one index: a node that can be looked up is not the wildcard, and the other
calls answer with the index at which it was found. -/
def Interns (d : Dictionary) : Prop :=
  ∀ position node, position < d.count → (d.lookup (Int32.ofNat position)).1 = .ok node →
    node ≠ .any ∧ d.indexOf? node = .ok (some (Int32.ofNat position)) ∧
      d.resolve node = .ok (Int32.ofNat position, d)

theorem Valid.lookup_ofNat (valid : d.Valid) (isOpen : d.closed = false) {position : Nat}
    {r : NodeRecord} (found : d.records[position]? = some r) :
    (d.lookup (Int32.ofNat position)).1 = r.decode := by
  have small : position < 2 ^ 31 := Nat.lt_of_lt_of_le (lt_size found) valid.size
  have concrete : Int32.ofNat position ≠ wildIndex := by
    intro wild
    have nonneg := ofNat_nonneg small
    rw [wild] at nonneg
    exact absurd nonneg (by decide)
  rw [(lookup_eq valid isOpen _).1, if_neg concrete, record_eq isOpen, at?_ofNat small, found]
  rfl

/-- A node that a record stores is found at the index of the record. -/
theorem Keyed.find?_of_stores (keyed : d.Keyed) {position : Nat} {r : NodeRecord} {node : Node}
    (found : d.records[position]? = some r) (stores : r.Stores node) :
    d.byContent.find? (NodeRecord.keyOf node) = some (Int32.ofNat position) := by
  obtain ⟨key, hasKey, bound⟩ := keyed.bound position r found
  rw [stores.key] at hasKey
  cases hasKey
  rw [bound, keyed.index position r found]

/-- Nodes have one index each exactly where no record is of the wildcard kind. -/
theorem Keyed.interns_iff (keyed : d.Keyed) (isOpen : d.closed = false) :
    d.Interns ↔ d.Named := by
  constructor
  · intro interns r member kind
    obtain ⟨position, lt, found⟩ := Array.mem_iff_getElem.mp member
    have found : d.records[position]? = some r := by rw [Array.getElem?_eq_getElem lt, found]
    have decoded : r.decode = .ok .any := by rw [NodeRecord.decode, kind]
    have answered := (keyed.toValid.lookup_ofNat isOpen found).trans decoded
    exact (interns position .any lt answered).1 rfl
  · intro named position node lt answered
    have found := Array.getElem?_eq_getElem lt
    rw [keyed.toValid.lookup_ofNat isOpen found] at answered
    obtain ⟨stores, concrete⟩ := NodeRecord.stores_of_decode answered
      (named _ (Array.getElem_mem lt))
    have bound := keyed.find?_of_stores found stores
    refine ⟨concrete, ?_, ?_⟩
    · rw [indexOf?_eq isOpen concrete, stores.storable]
      exact congrArg Except.ok bound
    · rw [resolve_eq isOpen concrete, stores.storable]
      dsimp only
      rw [bound]

/-- Resolving keeps a dictionary valid and adds no record of the wildcard kind. -/
theorem Valid.resolve (valid : d.Valid) (isOpen : d.closed = false) {node : Node} {index : Int32}
    {d' : Dictionary} (resolved : d.resolve node = .ok (index, d')) :
    d'.Valid ∧ d'.closed = false ∧ (d'.Named ↔ d.Named) := by
  have outcome := resolution isOpen node
  rw [resolved] at outcome
  cases outcome with
  | wildcard => exact ⟨valid, isOpen, Iff.rfl⟩
  | known => exact ⟨valid, isOpen, Iff.rfl⟩
  | interned r named storable kind next fresh room stores =>
    exact ⟨valid.push _ room next, isOpen, named_push _ kind⟩

/-- Under a lossless compression the new record has its key too. -/
theorem Keyed.resolve (lossless : Compression.Lossless) (keyed : d.Keyed)
    (isOpen : d.closed = false) {node : Node} {index : Int32} {d' : Dictionary}
    (resolved : d.resolve node = .ok (index, d')) : d'.Keyed := by
  have outcome := resolution isOpen node
  rw [resolved] at outcome
  cases outcome with
  | wildcard | known => exact keyed
  | interned r named storable kind next fresh room stores =>
    exact keyed.push room next (stores lossless).key fresh

/-- No call breaks a valid dictionary or makes a difference to wildcard records. -/
theorem Valid.step (valid : d.Valid) (isOpen : d.closed = false) (call : Call) :
    (d.step call).2.Valid ∧ (d.step call).2.closed = false ∧
      ((d.step call).2.Named ↔ d.Named) := by
  cases call with
  | resolve node =>
    rw [Dictionary.step]
    split
    · next resolved => exact valid.resolve isOpen resolved
    · exact ⟨valid, isOpen, Iff.rfl⟩
  | lookup index =>
    obtain ⟨_, cache, kept, agrees⟩ := lookup_eq valid isOpen index
    rw [Dictionary.step, kept]
    exact ⟨valid.recache agrees, isOpen, Iff.rfl⟩
  | indexOf node | record index | count => exact ⟨valid, isOpen, Iff.rfl⟩

theorem Keyed.step (lossless : Compression.Lossless) (keyed : d.Keyed) (isOpen : d.closed = false)
    (call : Call) : (d.step call).2.Keyed := by
  cases call with
  | resolve node =>
    rw [Dictionary.step]
    split
    · next resolved => exact keyed.resolve lossless isOpen resolved
    · exact keyed
  | lookup index =>
    obtain ⟨_, cache, kept, agrees⟩ := lookup_eq keyed.toValid isOpen index
    rw [Dictionary.step, kept]
    exact keyed.recache agrees
  | indexOf node | record index | count => exact keyed

/-- After any calls on a dictionary that was read, nodes have one index each exactly where the
stream had no record of the wildcard kind. -/
theorem interns_run_iff_of_read (lossless : Compression.Lossless) {source : Source}
    {config : Config} {d : Dictionary} (loaded : read source config = .ok d) (calls : List Call) :
    (Calls.run step calls d).2.Interns ↔ d.Named := by
  obtain ⟨keyed, isOpen⟩ := keyed_of_read loaded
  have reached := Calls.run_preserves
    (fun now : Dictionary => now.Keyed ∧ now.closed = false ∧ (now.Named ↔ d.Named))
    (fun now call holds => by
      obtain ⟨keyed, isOpen, same⟩ := holds
      obtain ⟨-, stays, kept⟩ := keyed.toValid.step isOpen call
      exact ⟨keyed.step lossless isOpen call, stays, kept.trans same⟩)
    calls ⟨keyed, isOpen, Iff.rfl⟩
  obtain ⟨keyed, isOpen, same⟩ := reached
  exact (keyed.interns_iff isOpen).trans same

end

/-- The dictionary of one record without a payload. -/
def alone (kind : RecordKind) : Dictionary :=
  { empty {} with records := #[⟨0, kind, []⟩], byContent := [([kind.tag], 0)] }

/-- A stream of the empty name reads as a dictionary that interns whatever is resolved next. -/
theorem interns_run_iff_of_read_name :
    Compression.Lossless ∧ read ⟨stream [⟨0, .uri, []⟩], none⟩ {} = .ok (alone .uri) ∧
      Interns (Calls.run step [.lookup 0, .resolve .any, .resolve (.blank "b")] (alone .uri)).2 := by
  have loaded : read ⟨stream [⟨0, .uri, []⟩], none⟩ {} = .ok (alone .uri) := by
    have counted : read ⟨stream [⟨0, .uri, []⟩], none⟩ {} = ofRecords [⟨0, .uri, []⟩] {} := rfl
    rw [counted, ofRecords, List.mergeSort_singleton]
    rfl
  refine ⟨Gzip.lossless, loaded, (interns_run_iff_of_read Gzip.lossless loaded _).mpr ?_⟩
  simp [Named, alone]

/-- A stream of one record of the wildcard kind is accepted. Its only index decodes to the
wildcard node, which both calls place at the wildcard index. -/
theorem read_wildcard_record :
    ∃ d, read ⟨stream [⟨0, .any, []⟩], none⟩ {} = .ok d ∧ d.count = 1 ∧
      (d.lookup 0).1 = .ok .any ∧ d.indexOf? .any = .ok (some (-1)) ∧
      d.resolve .any = .ok (-1, d) ∧ ¬ d.Interns := by
  have counted : read ⟨stream [⟨0, .any, []⟩], none⟩ {} = ofRecords [⟨0, .any, []⟩] {} := rfl
  have decoded : ((alone .any).lookup 0).1 = .ok .any := rfl
  refine ⟨alone .any, ?_, rfl, decoded, rfl, rfl, ?_⟩
  · rw [counted, ofRecords, List.mergeSort_singleton]
    rfl
  · intro interns
    exact (interns 0 .any (by decide) decoded).1 rfl

end Dictionary

end TripleCube
