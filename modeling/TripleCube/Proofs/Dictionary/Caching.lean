import TripleCube.Proofs.Cache.Reads
import TripleCube.Proofs.Dictionary.Framing
import TripleCube.Proofs.Dictionary.Reachable

/-! The cache decides nothing. A lookup answers as the record decodes, whatever was cached, evicted
or interned before, also where the record does not decode. -/
namespace TripleCube.Dictionary

variable {d : Dictionary} {index : Int32}

theorem record_eq_ok_iff (isOpen : d.closed = false) {r : NodeRecord} :
    d.record index = .ok r ↔ d.at? index = some r := by
  rw [record_eq isOpen]
  cases d.at? index <;> simp

section

variable [Compression]

/-- What a lookup at an index other than the wildcard's can come to. -/
inductive Lookup (d : Dictionary) (index : Int32) : Except Error Node × Dictionary → Prop
  | hit {node : Node} {cache : Cache Int32 Node} (read : d.cache.get? index = (some node, cache)) :
    Lookup d index (.ok node, d.recached cache)
  | decoded {node : Node} {cache : Cache Int32 Node} (read : d.cache.get? index = (none, cache))
    (decoded : d.record index >>= NodeRecord.decode = .ok node) :
    Lookup d index (.ok node, d.recached (cache.insert index node))
  | failed {e : Error} {cache : Cache Int32 Node} (read : d.cache.get? index = (none, cache))
    (failed : d.record index >>= NodeRecord.decode = .error e) :
    Lookup d index (.error e, d.recached cache)

theorem lookup_cases (isOpen : d.closed = false) (concrete : index ≠ wildIndex) :
    d.Lookup index (d.lookup index) := by
  rw [lookup, ensureOpen_of_open isOpen]
  simp only [if_neg concrete]
  rcases read : d.cache.get? index with ⟨_ | node, cache⟩
  · have same : record { d with cache } index = d.record index := rfl
    dsimp only
    rw [same]
    cases outcome : d.record index >>= NodeRecord.decode with
    | error e => exact .failed read outcome
    | ok node => exact .decoded read outcome
  · exact .hit read

/-- A node decodes at an index where its record does. -/
theorem decodes_iff (isOpen : d.closed = false) {node : Node} :
    d.Decodes index node ↔ d.record index >>= NodeRecord.decode = .ok node := by
  simp only [bind_eq_ok, record_eq_ok_iff isOpen, Decodes]

/-- A dictionary as a lookup leaves it that fails. -/
def missed (d : Dictionary) : Dictionary :=
  { d with cache := { d.cache with misses := d.cache.misses + 1 } }

theorem lookup_failed (isOpen : d.closed = false) (concrete : index ≠ wildIndex) {e : Error}
    (failed : (d.lookup index).1 = .error e) :
    index ∉ d.cache.keys ∧ (d.lookup index).2 = d.missed := by
  have outcome := lookup_cases isOpen concrete
  generalize d.lookup index = result at failed outcome ⊢
  cases outcome with
  | hit | decoded => cases failed
  | failed read =>
    obtain ⟨fresh, rfl⟩ := Cache.get?_eq_none_iff.mp read
    exact ⟨fresh, rfl⟩

theorem reads_lookup (isOpen : d.closed = false) (concrete : index ≠ wildIndex) :
    (d.lookup index).2.cache.reads = d.cache.reads + 1 := by
  have counted := Cache.reads_get? d.cache index
  have outcome := lookup_cases isOpen concrete
  generalize d.lookup index = result at outcome ⊢
  cases outcome with
  | hit read | failed read =>
    rw [read] at counted
    exact counted
  | decoded read =>
    rw [read] at counted
    exact (Cache.reads_insert _ _ _).trans counted

/-- What a record decodes to is looked up at its index, whatever is called meanwhile. -/
theorem Valid.lookup_run (valid : d.Valid) (isOpen : d.closed = false)
    (concrete : index ≠ wildIndex) {r : NodeRecord} (found : d.record index = .ok r)
    (calls : List Call) :
    ((Calls.run Dictionary.step calls d).2.lookup index).1 = r.decode := by
  obtain ⟨valid, isOpen, found⟩ := Calls.run_preserves
    (fun now : Dictionary => now.Valid ∧ now.closed = false ∧ now.at? index = some r)
    (fun now call holds => by
      obtain ⟨valid, isOpen, found⟩ := holds
      obtain ⟨still, stays, -⟩ := valid.step isOpen call
      exact ⟨still, stays, at?_step found call⟩)
    calls ⟨valid, isOpen, (record_eq_ok_iff isOpen).mp found⟩
  rw [(lookup_eq valid isOpen index).1, if_neg concrete, (record_eq_ok_iff isOpen).mpr found]
  rfl

/-- Whatever was called before, a lookup answers what the record at the index decodes to, and each
cached node is decoded from the record at its key. A lookup that fails leaves nothing but a miss,
and it fails for good where there is a record. -/
theorem lookup_answers_record (reached : d.Reachable) (isOpen : d.closed = false) :
    (∀ key entry, d.cache.entries.find? key = some entry →
      d.record key >>= NodeRecord.decode = .ok entry.value) ∧
    ∀ index, index ≠ wildIndex →
      (d.lookup index).1 = (d.record index >>= NodeRecord.decode) ∧
      (∀ r calls, d.record index = .ok r →
        ((Calls.run step calls d).2.lookup index).1 = r.decode) ∧
      (∀ e, (d.lookup index).1 = .error e →
        index ∉ d.cache.keys ∧ (d.lookup index).2 = d.missed) ∧
      (d.lookup index).2.cache.reads = d.cache.reads + 1 := by
  have valid := reached.valid
  refine ⟨fun key entry cached => ?_, fun index concrete => ⟨?_, fun r calls found => ?_,
    fun e => lookup_failed isOpen concrete, reads_lookup isOpen concrete⟩⟩
  · exact (decodes_iff isOpen).mp (valid.cache (key, entry) (Assoc.mem_of_find? cached))
  · rw [(lookup_eq valid isOpen index).1, if_neg concrete]
  · exact valid.lookup_run isOpen concrete found calls

end

/-- A stream whose only record is no text is read. Its lookup misses, and goes on failing whatever
else is stored and cached. -/
theorem lookup_answers_undecodable_record :
    let broken : NodeRecord := ⟨0, .uri, [255]⟩
    let d : Dictionary :=
      { empty { cacheSize := 1 } with records := #[broken], byContent := [(broken.contentKey, 0)] }
    read ⟨stream [broken], none⟩ { cacheSize := 1 } = .ok d ∧
      d.lookup 0 = (.error (.invalidRecord .notUtf8), d.missed) ∧
      ∀ calls, ((Calls.run step calls d).2.lookup 0).1 = .error (.invalidRecord .notUtf8) := by
  intro broken d
  have built : ofRecords [broken] { cacheSize := 1 } = .ok d := by
    rw [ofRecords, List.mergeSort_singleton]
    rfl
  have loaded : read ⟨stream [broken], none⟩ { cacheSize := 1 } = .ok d :=
    read_eq_ok.mpr ⟨_, _, framed_stream (by decide) (by decide) (List.prefix_refl _),
      accepted_toBytes [broken], built⟩
  have noText : Text.Utf8.decode? [255] = none := by decide
  have undecodable : broken.decode = .error (.invalidRecord .notUtf8) := by
    simp only [broken, NodeRecord.decode, NodeRecord.text, noText]
    rfl
  obtain ⟨answer, stays, failing, -⟩ := (lookup_answers_record (.read loaded) rfl).2 0 (by decide)
  have failed : (d.lookup 0).1 = .error (.invalidRecord .notUtf8) := answer.trans undecodable
  refine ⟨loaded, Prod.ext failed (failing _ failed).2, fun calls => ?_⟩
  rw [stays broken calls rfl, undecodable]

end TripleCube.Dictionary
