import TripleCube.Proofs.Grid.Agreement
import TripleCube.Proofs.Session
import TripleCube.Proofs.Snapshot.Reload

/-! Matrices and cubes that differ only in their page size. Whatever led to them, they reply alike
to every session: to writes and queries, to searches that are open meanwhile and, but for the page
size that it begins with, in the snapshot that they write. -/
namespace TripleCube

variable {p q : PageSize}

namespace Matrix

instance : Interactive (Matrix p) Search Call Answer (Int32 × Int32) where
  call := Matrix.step
  start m pattern := m.search pattern.1 pattern.2

/-- Matrices that calls led to, with the same cells. -/
structure Alike (m : Matrix p) (other : Matrix q) : Prop where
  reached : ∃ writes, m = ofWrites p writes
  otherReached : ∃ writes, other = ofWrites q writes
  contains : ∀ x y, m.contains x y = other.contains x y

theorem Alike.represents {m : Matrix p} {other : Matrix q} (alike : m.Alike other) :
    ∃ cells, m.Represents cells ∧ other.Represents cells := by
  obtain ⟨writes, rfl⟩ := alike.reached
  obtain ⟨otherWrites, rfl⟩ := alike.otherReached
  have represents := represents_ofWrites (p := p) writes
  have otherRepresents := represents_ofWrites (p := q) otherWrites
  have same := represents.cells_unique otherRepresents alike.contains
  exact ⟨_, represents, same ▸ otherRepresents⟩

/-- What leads to the same cells leads to matrices alike. -/
theorem alike_ofWrites {writes otherWrites : List Write}
    (same : cellsOf writes = cellsOf otherWrites) :
    (ofWrites p writes).Alike (ofWrites q otherWrites) where
  reached := ⟨writes, rfl⟩
  otherReached := ⟨otherWrites, rfl⟩
  contains x y := by
    have represents := represents_ofWrites (p := p) writes
    have otherRepresents := represents_ofWrites (p := q) otherWrites
    rw [represents.contains_eq ⟨x, y⟩, otherRepresents.contains_eq ⟨x, y⟩, same]

theorem valid_of_search {m : Matrix p} {x y : Int32} {s : Search} (opened : m.search x y = .ok s) :
    s.place.Valid s.x s.y := by
  obtain ⟨_, _, opened⟩ := bind_eq_ok.mp opened
  obtain ⟨_, _, opened⟩ := bind_eq_ok.mp opened
  cases opened
  dsimp only
  split <;> trivial

theorem bisimulation : Session.Bisimulation
    (fun (m : Matrix p) (other : Matrix q) => ∃ cells, m.Represents cells ∧ other.Represents cells)
    (fun (s t : Search) => s = t ∧ s.place.Valid s.x s.y) where
  call := by
    rintro m other ⟨cells, represents, otherRepresents⟩ call
    obtain ⟨answers, still⟩ := represents.step call
    obtain ⟨otherAnswers, otherStill⟩ := otherRepresents.step call
    exact ⟨answers.trans otherAnswers.symm, _, still, otherStill⟩
  start := by
    rintro m other ⟨cells, represents, otherRepresents⟩ pattern
    have same := (represents.agree otherRepresents).search pattern.1 pattern.2
    change Session.Opens _ (m.search _ _) (other.search _ _)
    rw [same]
    cases opened : other.search pattern.1 pattern.2 with
    | error e => exact .error e
    | ok s => exact .ok ⟨rfl, valid_of_search opened⟩
  next := by
    rintro m other s _ ⟨cells, represents, otherRepresents⟩ ⟨rfl, valid⟩
    have stepped := (represents.agree otherRepresents).next valid
    have moved := congrArg (fun step => { s with place := step.2 }) stepped
    exact ⟨congrArg Prod.fst stepped, ⟨cells, represents, otherRepresents⟩, moved,
      Place.valid_next represents.wf valid⟩
  settle := by
    rintro m other s _ ⟨cells, represents, otherRepresents⟩ ⟨rfl, valid⟩
    have moved := (represents.agree otherRepresents).settle s.place
    exact ⟨congrArg (fun place => { s with place }) moved, Place.valid_settle m valid⟩

end Matrix

/-- What a sink has taken, but for the first bytes of it. -/
def Sink.takenPast (before : Sink) (count : Nat) (after : Sink) : Sink :=
  { after with
    accepted := before.accepted ++ after.accepted.drop (before.accepted.length + count) }

/-- Bytes that are as many and differ only at the front fill a sink alike past the front. -/
theorem Sink.write_takenPast (sink : Sink) (front otherFront rest : List UInt8)
    (length : front.length = otherFront.length) :
    (sink.write (front ++ rest)).map (sink.takenPast front.length) =
      (sink.write (otherFront ++ rest)).map (sink.takenPast front.length) := by
  have past : ∀ {bytes : List UInt8}, bytes.length = front.length →
      (sink.accepted ++ (bytes ++ rest)).drop (sink.accepted.length + front.length) = rest := by
    intro bytes same
    rw [← same, ← List.append_assoc, ← List.length_append, List.drop_left]
  rw [Sink.write, Sink.write]
  cases sink.room with
  | none => simp [Except.map, takenPast, past, length.symm]
  | some room =>
    dsimp only
    rw [List.length_append, List.length_append, length]
    split
    · simp [Except.map, takenPast, past, length.symm]
    · rfl

namespace Cube

/-- What can be asked of a cube besides a search. -/
inductive Request
  | call (call : Call)
  | counter
  | snapshot (sink : Sink)

inductive Response
  | answer (answer : Answer)
  | counter (value : Int64)
  | snapshot (outcome : Except Error Sink)

/-- Responds to a request. Of a snapshot it shows all but the page size. -/
def respond (c : Cube p) : Request → Response × Cube p
  | .call call => (.answer (c.step call).1, (c.step call).2)
  | .counter => (.counter c.counter, c)
  | .snapshot sink => (.snapshot ((c.write sink).map (sink.takenPast 4)), c)

instance : Interactive (Cube p) Search Request Response (Int32 × Int32 × Int32) where
  call := respond
  start c pattern := c.search pattern.1 pattern.2.1 pattern.2.2

/-- Cubes that calls and snapshots led to, with the same cells and the same counter. -/
structure Alike (c : Cube p) (other : Cube q) : Prop where
  reached : c.Reachable
  otherReached : other.Reachable
  contains : ∀ x y z, c.contains x y z = other.contains x y z
  counter : c.counter = other.counter

/-- Cubes with the same voxels and the same counter. -/
structure Paired (c : Cube p) (other : Cube q) (voxels : Finset Voxel) : Prop where
  represents : c.Represents voxels
  otherRepresents : other.Represents voxels
  counter : c.counter = other.counter

variable {c : Cube p} {other : Cube q} {voxels : Finset Voxel}

theorem Alike.paired (alike : c.Alike other) : ∃ voxels, c.Paired other voxels := by
  obtain ⟨voxels, represents, otherRepresents⟩ :=
    alike.reached.represents_same alike.otherReached alike.contains
  exact ⟨voxels, represents, otherRepresents, alike.counter⟩

theorem Paired.agree (paired : c.Paired other voxels) : c.Agree other :=
  paired.represents.agree paired.otherRepresents

theorem valid_of_search {x y z : Int32} {s : Search} (opened : c.search x y z = .ok s) :
    s.place.Valid s.pattern := by
  obtain ⟨_, _, opened⟩ := bind_eq_ok.mp opened
  obtain ⟨_, _, opened⟩ := bind_eq_ok.mp opened
  obtain ⟨_, _, opened⟩ := bind_eq_ok.mp opened
  cases opened
  dsimp only
  split <;> trivial

theorem Paired.apply (paired : c.Paired other voxels) (write : Write) :
    (c.apply write).Paired (other.apply write) (write.effect voxels) where
  represents := paired.represents.apply write
  otherRepresents := paired.otherRepresents.apply write
  counter := by
    rw [paired.represents.counter_apply, paired.otherRepresents.counter_apply, paired.counter]

/-- A write is refused by both cubes or changes both alike. -/
theorem Paired.change (paired : c.Paired other voxels) (write : Write) :
    (∃ e, c.change write = .error e ∧ other.change write = .error e) ∨
      ∃ changed c' other' voxels', c.change write = .ok (changed, c') ∧
        other.change write = .ok (changed, other') ∧ c'.Paired other' voxels' := by
  rw [paired.represents.change, paired.otherRepresents.change]
  cases write.voxel.refusal? with
  | some e => exact Or.inl ⟨e, rfl, rfl⟩
  | none => exact Or.inr ⟨_, _, _, _, rfl, rfl, paired.apply write⟩

theorem Paired.step (paired : c.Paired other voxels) (call : Call) :
    (c.step call).1 = (other.step call).1 ∧
      ∃ voxels', (c.step call).2.Paired (other.step call).2 voxels' := by
  have answers := (paired.represents.step call).1.trans (paired.otherRepresents.step call).1.symm
  cases call with
  | write write =>
    rw [Cube.step, Cube.step]
    obtain ⟨e, refused, otherRefused⟩ |
        ⟨changed, c', other', voxels', written, otherWritten, still⟩ := paired.change write
    · rw [refused, otherRefused]
      exact ⟨rfl, voxels, paired⟩
    · rw [written, otherWritten]
      exact ⟨rfl, voxels', still⟩
  | _ => exact ⟨answers, voxels, paired⟩

theorem Paired.contains (paired : c.Paired other voxels) (x y z : Int32) :
    c.contains x y z = other.contains x y z := by
  rw [paired.represents.contains_eq ⟨x, y, z⟩, paired.otherRepresents.contains_eq ⟨x, y, z⟩]

theorem Paired.cardinality (paired : c.Paired other voxels) :
    c.cardinality = other.cardinality := by
  rw [paired.represents.cardinality, paired.otherRepresents.cardinality]

/-- What the same calls lead to from cubes alike. -/
theorem Paired.foldl (writes : List Write) {c : Cube p} {other : Cube q} {voxels : Finset Voxel}
    (paired : c.Paired other voxels) (reached : c.Reachable) (otherReached : other.Reachable) :
    (writes.foldl Cube.apply c).Alike (writes.foldl Cube.apply other) := by
  induction writes generalizing c other voxels with
  | nil => exact ⟨reached, otherReached, paired.contains, paired.counter⟩
  | cons write rest ih =>
    exact ih (paired.apply write) (.write write reached) (.write write otherReached)

theorem alike_ofWrites (writes : List Write) : (ofWrites p writes).Alike (ofWrites q writes) :=
  Paired.foldl writes ⟨represents_empty, represents_empty, rfl⟩ .empty .empty

theorem Paired.write (paired : c.Paired other voxels) (sink : Sink) :
    (c.write sink).map (sink.takenPast 4) = (other.write sink).map (sink.takenPast 4) := by
  have listed : c.voxels = other.voxels := by
    rw [voxels_eq, voxels_eq, paired.agree.points]
  have filled := sink.write_takenPast (Snapshot.Codec.uint32.encode p.val)
    (Snapshot.Codec.uint32.encode q.val)
    ((Snapshot.Codec.pair .int64 (.list Snapshot.voxel)).encode (c.counter, c.voxels))
    ((Bytes.length_little 4 _).trans (Bytes.length_little 4 _).symm)
  have outcome : ∀ (failed : String → Error) (outcome : Except String Sink),
      (outcome.mapError failed).map (sink.takenPast 4) =
        (outcome.map (sink.takenPast 4)).mapError failed := by
    rintro failed (_ | _) <;> rfl
  have image : other.image = (q.val, c.counter, c.voxels) := by
    rw [Cube.image, paired.counter, listed]
  rw [Cube.write, Cube.write, image, Snapshot.Codec.write, Snapshot.Codec.write, outcome, outcome]
  exact congrArg (Except.mapError _) filled

theorem bisimulation : Session.Bisimulation
    (fun (c : Cube p) (other : Cube q) => ∃ voxels, c.Paired other voxels)
    (fun (s t : Search) => s = t ∧ s.place.Valid s.pattern) where
  call := by
    rintro c other ⟨voxels, paired⟩ request
    cases request with
    | call call =>
      obtain ⟨answers, still⟩ := paired.step call
      exact ⟨congrArg Response.answer answers, still⟩
    | counter => exact ⟨congrArg Response.counter paired.counter, voxels, paired⟩
    | snapshot sink => exact ⟨congrArg Response.snapshot (paired.write sink), voxels, paired⟩
  start := by
    rintro c other ⟨voxels, paired⟩ pattern
    have same := paired.agree.search pattern.1 pattern.2.1 pattern.2.2
    change Session.Opens _ (c.search _ _ _) (other.search _ _ _)
    rw [same]
    cases opened : other.search pattern.1 pattern.2.1 pattern.2.2 with
    | error e => exact .error e
    | ok s => exact .ok ⟨rfl, valid_of_search opened⟩
  next := by
    rintro c other s _ ⟨voxels, paired⟩ ⟨rfl, valid⟩
    have stepped := paired.agree.next valid
    have moved := congrArg (fun step => { s with place := step.2 }) stepped
    exact ⟨congrArg Prod.fst stepped, ⟨voxels, paired⟩, moved,
      Place.valid_next paired.agree.wf valid⟩
  settle := by
    rintro c other s _ ⟨voxels, paired⟩ ⟨rfl, valid⟩
    have moved := paired.agree.settle s.place
    exact ⟨congrArg (fun place => { s with place }) moved, Place.valid_settle c valid⟩

end Cube

end TripleCube
