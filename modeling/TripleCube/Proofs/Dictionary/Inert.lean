import TripleCube.Proofs.Dictionary.NodeList

/-! What resolving does not look at, and what lookups change. A change of a dictionary that leaves
its records, its content map, its threshold and whether it is closed comes to the same before and
after nodes are resolved. Another cache is such a change, and the only one that lookups make. -/
namespace TripleCube.Dictionary

/-- A change that nothing but lookups may notice. -/
structure Inert (change : Dictionary → Dictionary) : Prop where
  closed : ∀ d, (change d).closed = d.closed
  records : ∀ d, (change d).records = d.records
  byContent : ∀ d, (change d).byContent = d.byContent
  threshold : ∀ d, (change d).config.threshold = d.config.threshold
  commutes : ∀ d records byContent,
    change { d with records, byContent } = { change d with records, byContent }

variable {change : Dictionary → Dictionary} {d d' : Dictionary} {nodes : NodeList}

theorem Inert.ensureOpen (inert : Inert change) (d : Dictionary) :
    (change d).ensureOpen = d.ensureOpen := by
  rw [Dictionary.ensureOpen, Dictionary.ensureOpen, inert.closed]

/-- The dictionary with another cache. -/
def recached (d : Dictionary) (cache : Cache Int32 Node) : Dictionary := { d with cache }

theorem inert_recached (cache : Cache Int32 Node) : Inert (recached · cache) :=
  ⟨fun _ => rfl, fun _ => rfl, fun _ => rfl, fun _ => rfl, fun _ _ _ => rfl⟩

/-- A dictionary as it would be if it had not been closed. -/
def reopened (d : Dictionary) : Dictionary := { d with closed := false }

theorem reopened_eq (isOpen : d.closed = false) : d.reopened = d := by
  obtain ⟨config, records, byContent, cache, closed⟩ := d
  cases isOpen
  rfl

theorem ensureOpen_of_closed (isClosed : d.closed = true) :
    d.ensureOpen = .error (.invalidState .closed) := by
  simp [ensureOpen, isClosed]

theorem close_recached (cache : Cache Int32 Node) :
    ∃ left, (d.recached cache).close = d.close.recached left := by
  have closed : (d.recached cache).closed = d.closed := rfl
  rw [close, close, closed]
  split
  · exact ⟨cache, rfl⟩
  · exact ⟨cache.clear, rfl⟩

variable [Compression]

theorem Inert.intern (inert : Inert change) (d : Dictionary) (node : Node) (key : List UInt8) :
    (change d).intern node key =
      (d.intern node key).map fun outcome => (outcome.1, change outcome.2) := by
  rw [Dictionary.intern, Dictionary.intern, inert.threshold, inert.records, inert.byContent]
  cases NodeRecord.encode node NodeRecord.unassigned d.config.threshold with
  | error e => rfl
  | ok r =>
    simp only [bind, Except.bind]
    split
    · cases r.setIndex (Int32.ofNat d.records.size) with
      | error e => rfl
      | ok r => exact congrArg (fun d' => Except.ok (_, d')) (inert.commutes d _ _).symm
    · rfl

theorem Inert.resolve (inert : Inert change) (d : Dictionary) (node : Node) :
    (change d).resolve node =
      (d.resolve node).map fun outcome => (outcome.1, change outcome.2) := by
  rw [Dictionary.resolve, Dictionary.resolve, inert.ensureOpen, inert.byContent]
  cases d.ensureOpen with
  | error e => rfl
  | ok _ =>
    simp only [bind, Except.bind]
    split
    · rfl
    · cases NodeRecord.nodeKey node with
      | error e => rfl
      | ok key =>
        dsimp only
        cases d.byContent.find? key with
        | some index => rfl
        | none => exact inert.intern d node key

/-- What lookups make of a dictionary. -/
inductive Looked (d : Dictionary) : Dictionary → Prop
  | refl : Looked d d
  | lookup {d' : Dictionary} (index : Int32) (looked : Looked d d') : Looked d (d'.lookup index).2

theorem exists_recached_of_lookup (index : Int32) :
    ∃ cache, (d.lookup index).2 = d.recached cache := by
  rw [lookup]
  cases d.ensureOpen with
  | error e => exact ⟨d.cache, rfl⟩
  | ok _ =>
    dsimp only
    split
    · exact ⟨d.cache, rfl⟩
    · obtain ⟨_ | node, cache⟩ := d.cache.get? index
      · dsimp only
        cases record { d with cache } index >>= NodeRecord.decode with
        | error e => exact ⟨cache, rfl⟩
        | ok node => exact ⟨cache.insert index node, rfl⟩
      · exact ⟨cache, rfl⟩

/-- Lookups leave another cache and change nothing else. -/
theorem Looked.exists_recached (looked : Looked d d') : ∃ cache, d' = d.recached cache := by
  induction looked with
  | refl => exact ⟨d.cache, rfl⟩
  | lookup index _ ih =>
    obtain ⟨cache, rfl⟩ := ih
    obtain ⟨left, same⟩ := exists_recached_of_lookup (d := d.recached cache) index
    exact ⟨left, same⟩

theorem lookup_of_closed (isClosed : d.closed = true) (index : Int32) :
    d.lookup index = (.error (.invalidState .closed), d) := by
  rw [lookup, ensureOpen_of_closed isClosed]

theorem resolve_of_closed (isClosed : d.closed = true) (node : Node) :
    d.resolve node = .error (.invalidState .closed) := by
  rw [resolve, ensureOpen_of_closed isClosed]
  rfl

theorem step_of_closed (isClosed : d.closed = true) (call : Call) : (d.step call).2 = d := by
  cases call with
  | resolve node => rw [step, resolve_of_closed isClosed]
  | lookup index => rw [step, lookup_of_closed isClosed]
  | indexOf | record | count => rfl

/-- Lookups keep the nodes, also those of a dictionary that is closed. -/
theorem Looked.represents (looked : Looked d d') (represents : d.reopened.Represents nodes) :
    d'.reopened.Represents nodes := by
  induction looked with
  | refl => exact represents
  | @lookup d' index _ ih =>
    cases closed : d'.closed with
    | true =>
      rw [lookup_of_closed closed]
      exact ih
    | false =>
      rw [reopened_eq closed] at ih
      obtain ⟨cache, looked, still⟩ := ih.lookup index
      have same : (d'.recached cache).reopened = d'.recached cache := reopened_eq closed
      rw [looked]
      exact same.symm ▸ still

theorem step_recached (cache : Cache Int32 Node) (call : Call) :
    ∃ left, ((d.recached cache).step call).2 = (d.step call).2.recached left := by
  cases call with
  | resolve node =>
    rw [step, step, (inert_recached cache).resolve]
    cases d.resolve node <;> exact ⟨cache, rfl⟩
  | lookup index =>
    obtain ⟨left, looked⟩ := exists_recached_of_lookup (d := d) index
    obtain ⟨other, otherLooked⟩ := exists_recached_of_lookup (d := d.recached cache) index
    rw [step, step, looked, otherLooked]
    exact ⟨other, rfl⟩
  | _ => exact ⟨cache, rfl⟩

end TripleCube.Dictionary
