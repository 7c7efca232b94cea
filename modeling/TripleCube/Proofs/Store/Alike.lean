import TripleCube.Gzip.Compression
import TripleCube.Proofs.Dictionary.Paging
import TripleCube.Proofs.Store.Caching

/-! Stores that differ only in their page size: the same dictionary but for the page size in its
settings, and cubes alike. They reply alike to every session. -/
namespace TripleCube

variable {p q : PageSize}

namespace Store

/-- Stores with the same dictionary, but for its page size, and with cubes alike. -/
structure Alike (s : Store p) (other : Store q) : Prop where
  dictionary : ∃ size, other.dictionary = s.dictionary.paged size
  cube : s.cube.Alike other.cube

/-- What sessions keep of that: the cubes have the same voxels and the same counter. -/
structure Paired (s : Store p) (other : Store q) : Prop where
  dictionary : ∃ size, other.dictionary = s.dictionary.paged size
  cube : ∃ voxels, s.cube.Paired other.cube voxels

variable {d : Dictionary} {size : UInt32} {c : Cube p} {c' : Cube q} {s : Store p} {other : Store q}

theorem paired_mk {voxels : Finset Voxel} (cubes : c.Paired c' voxels) :
    (⟨d, c⟩ : Store p).Paired (⟨d.paged size, c'⟩ : Store q) :=
  ⟨⟨size, rfl⟩, voxels, cubes⟩

theorem Alike.paired (alike : s.Alike other) : s.Paired other :=
  ⟨alike.dictionary, alike.cube.paired⟩

theorem Paired.exists_eq (paired : s.Paired other) : ∃ d size c c' voxels, s = ⟨d, c⟩ ∧
    other = ⟨d.paged size, c'⟩ ∧ c.Paired c' voxels := by
  obtain ⟨d, c⟩ := s
  obtain ⟨d', c'⟩ := other
  obtain ⟨⟨size, same⟩, voxels, cubes⟩ := paired
  exact ⟨d, size, c, c', voxels, rfl, congrArg (Store.mk · c') same, cubes⟩

/-- New stores under settings that differ only in the page size. -/
theorem alike_empty (config : Config) (size : UInt32) :
    (empty config).Alike (empty { config with pageSize := size }) :=
  ⟨⟨size, rfl⟩, Cube.alike_ofWrites []⟩

/-- A search for triples stands at a valid place of the cube. -/
def Search.Valid (search : Search) : Prop :=
  ∀ cells, search.cells = some cells → cells.place.Valid cells.pattern

theorem valid_of_search {subject predicate object : Option Node} {search : Search}
    (opened : s.search subject predicate object = .ok search) : search.Valid := by
  obtain ⟨x, _, opened⟩ := bind_eq_ok.mp opened
  obtain ⟨y, _, opened⟩ := bind_eq_ok.mp opened
  obtain ⟨z, _, opened⟩ := bind_eq_ok.mp opened
  split at opened
  · obtain ⟨cells, within, opened⟩ := bind_eq_ok.mp opened
    cases opened
    rintro _ ⟨⟩
    exact Cube.valid_of_search within
  · cases opened
    rintro _ ⟨⟩

theorem Paired.cell? (paired : s.Paired other) (t : Triple) : s.cell? t = other.cell? t := by
  obtain ⟨d, size, c, c', voxels, rfl, rfl, cubes⟩ := paired.exists_eq
  rfl

theorem Paired.search (paired : s.Paired other) (subject predicate object : Option Node) :
    s.search subject predicate object = other.search subject predicate object := by
  obtain ⟨d, size, c, c', voxels, rfl, rfl, cubes⟩ := paired.exists_eq
  have coordinate (node : Option Node) : (⟨d.paged size, c'⟩ : Store q).coordinate? node =
      (⟨d, c⟩ : Store p).coordinate? node := by
    cases node with
    | none => rfl
    | some node => cases node <;> rfl
  rw [Store.search, Store.search]
  simp only [coordinate, cubes.agree.search]

theorem Paired.contains (paired : s.Paired other) (t : Triple) :
    s.contains t = other.contains t := by
  obtain ⟨voxels, cubes⟩ := paired.cube
  rw [Store.contains, Store.contains, paired.cell?]
  simp only [cubes.contains]

theorem Paired.remove (paired : s.Paired other) (t : Triple) :
    (∃ e, s.remove t = .error e ∧ other.remove t = .error e) ∨
      ∃ removed s' other', s.remove t = .ok (removed, s') ∧
        other.remove t = .ok (removed, other') ∧ s'.Paired other' := by
  obtain ⟨voxels, cubes⟩ := paired.cube
  rw [Store.remove, Store.remove, paired.cell?]
  cases other.cell? t with
  | error e => exact Or.inl ⟨e, rfl, rfl⟩
  | ok cell =>
    cases cell with
    | none => exact Or.inr ⟨false, s, other, rfl, rfl, paired⟩
    | some v =>
      obtain ⟨e, refused, otherRefused⟩ | ⟨removed, c, c', _, erased, otherErased, still⟩ :=
        cubes.change (.remove v.x v.y v.z)
      · rw [Cube.change] at refused otherRefused
        simp only [bind, Except.bind, refused, otherRefused]
        exact Or.inl ⟨e, rfl, rfl⟩
      · rw [Cube.change] at erased otherErased
        simp only [bind, Except.bind, erased, otherErased]
        exact Or.inr ⟨removed, _, _, rfl, rfl, paired.dictionary, _, still⟩

section

variable [Compression]

/-- Looking the triple of a voxel up changes the dictionary, and that alike. -/
theorem lookup_paged (d : Dictionary) (size : UInt32) (c : Cube p) (c' : Cube q) (v : Voxel) :
    ∃ outcome d', (⟨d, c⟩ : Store p).lookup v = (outcome, ⟨d', c⟩) ∧
    (⟨d.paged size, c'⟩ : Store q).lookup v = (outcome, ⟨d'.paged size, c'⟩) := by
  rw [Store.lookup, Store.lookup, d.lookup_paged size]
  obtain ⟨subject, d₁⟩ := d.lookup v.x
  cases subject with
  | error e => exact ⟨_, _, rfl, rfl⟩
  | ok subject =>
    dsimp only
    rw [d₁.lookup_paged size]
    obtain ⟨predicate, d₂⟩ := d₁.lookup v.y
    cases predicate with
    | error e => exact ⟨_, _, rfl, rfl⟩
    | ok predicate =>
      dsimp only
      rw [d₂.lookup_paged size]
      obtain ⟨object, d₃⟩ := d₂.lookup v.z
      cases object <;> exact ⟨_, _, rfl, rfl⟩

theorem Paired.add (paired : s.Paired other) (t : Triple) :
    (s.add t).1 = (other.add t).1 ∧ (s.add t).2.Paired (other.add t).2 := by
  obtain ⟨d, size, c, c', voxels, rfl, rfl, cubes⟩ := paired.exists_eq
  obtain ⟨outcome, d', resolved, otherResolved⟩ := resolve_inert (Dictionary.inert_paged size) d c c' t
  rw [Store.add, Store.add, resolved, otherResolved]
  split
  · cases outcome with
    | error e => exact ⟨rfl, paired_mk cubes⟩
    | ok v =>
      obtain ⟨e, refused, otherRefused⟩ | ⟨added, b, b', _, inserted, otherInserted, still⟩ :=
        cubes.change (.insert v.x v.y v.z)
      · rw [Cube.change] at refused otherRefused
        dsimp only
        rw [refused, otherRefused]
        exact ⟨rfl, paired_mk cubes⟩
      · rw [Cube.change] at inserted otherInserted
        dsimp only
        rw [inserted, otherInserted]
        exact ⟨rfl, paired_mk still⟩
  · exact ⟨rfl, paired⟩

theorem Paired.next (paired : s.Paired other) {search : Search} (valid : search.Valid) :
    (Traversal.next s search).1 = (Traversal.next other search).1 ∧
      (Traversal.next s search).2.1.Paired (Traversal.next other search).2.1 ∧
        (Traversal.next s search).2.2 = (Traversal.next other search).2.2 ∧
          (Traversal.next s search).2.2.Valid := by
  obtain ⟨d, size, c, c', voxels, rfl, rfl, cubes⟩ := paired.exists_eq
  change (Search.next _ _).1 = (Search.next _ _).1 ∧ (Search.next _ _).2.1.Paired
    (Search.next _ _).2.1 ∧ (Search.next _ _).2.2 = (Search.next _ _).2.2 ∧
      (Search.next _ _).2.2.Valid
  rw [Search.next, Search.next]
  obtain ⟨cells⟩ := search
  cases cells with
  | none => exact ⟨rfl, paired, rfl, valid⟩
  | some cells =>
    have stepped := Cube.bisimulation.next ⟨voxels, cubes⟩ ⟨rfl, valid cells rfl⟩
    dsimp only
    revert stepped
    obtain ⟨voxel, b, moved⟩ := Traversal.next c cells
    obtain ⟨otherVoxel, b', otherMoved⟩ := Traversal.next c' cells
    rintro ⟨rfl, -, rfl, still⟩
    have standing : Search.Valid ⟨some moved⟩ := by
      rintro _ ⟨⟩
      exact still
    cases voxel with
    | none => exact ⟨rfl, paired, rfl, standing⟩
    | some voxel =>
      obtain ⟨outcome, d', found, otherFound⟩ := lookup_paged d size c c' voxel
      dsimp only
      rw [found, otherFound]
      exact ⟨rfl, paired_mk cubes, rfl, standing⟩

theorem Paired.find (paired : s.Paired other) (subject predicate object : Option Node) :
    (s.find subject predicate object).1 = (other.find subject predicate object).1 ∧
      (s.find subject predicate object).2.Paired (other.find subject predicate object).2 := by
  obtain ⟨voxels, cubes⟩ := paired.cube
  rw [Store.find, Store.find, paired.search, cubes.cardinality]
  cases opened : other.search subject predicate object with
  | error e => exact ⟨rfl, paired⟩
  | ok search =>
    obtain ⟨items, still⟩ := Traversal.drain_simulates Paired
      (fun search moved : Search => search = moved ∧ search.Valid)
      (by
        rintro s other search _ paired ⟨rfl, valid⟩
        exact paired.next valid)
      other.cube.cardinality paired ⟨rfl, valid_of_search opened⟩
    exact ⟨congrArg Except.ok items, still⟩

theorem Paired.step (paired : s.Paired other) (call : Call) :
    (s.step call).1 = (other.step call).1 ∧ (s.step call).2.Paired (other.step call).2 := by
  obtain ⟨voxels, cubes⟩ := paired.cube
  cases call with
  | add t =>
    obtain ⟨added, still⟩ := paired.add t
    exact ⟨congrArg Answer.changed added, still⟩
  | remove t =>
    rw [Store.step, Store.step]
    obtain ⟨e, refused, otherRefused⟩ | ⟨removed, s', other', erased, otherErased, still⟩ :=
      paired.remove t
    · rw [refused, otherRefused]
      exact ⟨rfl, paired⟩
    · rw [erased, otherErased]
      exact ⟨rfl, still⟩
  | contains t => exact ⟨congrArg Answer.contains (paired.contains t), paired⟩
  | find subject predicate object =>
    obtain ⟨found, still⟩ := paired.find subject predicate object
    rw [Store.step, Store.step, found]
    exact ⟨rfl, still⟩
  | size =>
    exact ⟨congrArg (fun counter : Int64 => Answer.size counter.toInt.toNat) cubes.counter, paired⟩
  | isEmpty => exact ⟨congrArg Answer.isEmpty cubes.agree.isEmpty, paired⟩
  | count =>
    obtain ⟨d, size, c, c', _, rfl, rfl, _⟩ := paired.exists_eq
    exact ⟨rfl, paired⟩

theorem Paired.respond (paired : s.Paired other) (request : Request) :
    (s.respond request).1 = (other.respond request).1 ∧
      (s.respond request).2.Paired (other.respond request).2 := by
  cases request with
  | call call =>
    obtain ⟨answers, still⟩ := paired.step call
    exact ⟨congrArg Response.answer answers, still⟩
  | cube request =>
    obtain ⟨answers, still⟩ := Cube.bisimulation.call paired.cube request
    exact ⟨congrArg Response.cube answers, paired.dictionary, still⟩
  | dictionary call =>
    obtain ⟨d, size, c, c', voxels, rfl, rfl, cubes⟩ := paired.exists_eq
    have stepped := d.step_paged size call
    have answers := (congrArg Prod.fst stepped).symm
    exact ⟨congrArg Response.dictionary answers, ⟨size, congrArg Prod.snd stepped⟩, voxels, cubes⟩
  | close =>
    obtain ⟨d, size, c, c', voxels, rfl, rfl, cubes⟩ := paired.exists_eq
    exact ⟨rfl, ⟨size, d.close_paged size⟩, voxels, cubes⟩
  | _ =>
    obtain ⟨d, size, c, c', voxels, rfl, rfl, cubes⟩ := paired.exists_eq
    exact ⟨rfl, paired⟩

/-- A reader stands at a valid place of the cube. -/
def Reader.Valid : Reader → Prop
  | .triples search => search.Valid
  | .voxels search => search.place.Valid search.pattern

theorem bisimulation : Session.Bisimulation (Paired (p := p) (q := q))
    (fun (reader other : Reader) => reader = other ∧ reader.Valid) where
  call paired request := paired.respond request
  start := by
    rintro s other paired (⟨subject, predicate, object⟩ | ⟨x, y, z⟩)
    · change Session.Opens _ ((s.search _ _ _).map _) ((other.search _ _ _).map _)
      rw [paired.search]
      cases opened : other.search subject predicate object with
      | error e => exact .error e
      | ok search => exact .ok ⟨rfl, valid_of_search opened⟩
    · obtain ⟨voxels, cubes⟩ := paired.cube
      change Session.Opens _ ((s.cube.search _ _ _).map _) ((other.cube.search _ _ _).map _)
      rw [cubes.agree.search]
      cases opened : other.cube.search x y z with
      | error e => exact .error e
      | ok search => exact .ok ⟨rfl, Cube.valid_of_search opened⟩
  next := by
    rintro s other reader _ paired ⟨rfl, valid⟩
    cases reader with
    | triples search =>
      obtain ⟨item, still, moved, standing⟩ := paired.next valid
      exact ⟨congrArg (Option.map Reader.Item.triple) item, still,
        congrArg Reader.triples moved, standing⟩
    | voxels search =>
      obtain ⟨item, still, moved, standing⟩ := Cube.bisimulation.next paired.cube ⟨rfl, valid⟩
      exact ⟨congrArg (Option.map Reader.Item.voxel) item, ⟨paired.dictionary, still⟩,
        congrArg Reader.voxels moved, standing⟩
  settle := by
    rintro s other reader _ paired ⟨rfl, valid⟩
    have settled : ∀ {cells : Cube.Search}, cells.place.Valid cells.pattern → _ :=
      fun valid => Cube.bisimulation.settle paired.cube ⟨rfl, valid⟩
    cases reader with
    | voxels search =>
      obtain ⟨moved, standing⟩ := settled valid
      exact ⟨congrArg Reader.voxels moved, standing⟩
    | triples search =>
      obtain ⟨cells⟩ := search
      cases cells with
      | none => exact ⟨rfl, valid⟩
      | some cells =>
        obtain ⟨moved, standing⟩ := settled (valid cells rfl)
        refine ⟨congrArg (fun cells => Reader.triples ⟨some cells⟩) moved, ?_⟩
        rintro _ ⟨⟩
        exact standing

end

end Store

/-- The page size cannot be observed. Two matrices, two cubes or two stores of any two page sizes
that otherwise are alike give the same replies to every session: to every write and query, to every
search that is opened and to every step of it, however the steps come between the writes. -/
theorem replies_of_alike [Compression] (p q : PageSize) :
    (∀ (m : Matrix p) (other : Matrix q), m.Alike other → ∀ session,
      Session.replies Matrix.Search session m = Session.replies Matrix.Search session other) ∧
    (∀ (c : Cube p) (other : Cube q), c.Alike other → ∀ session,
      Session.replies Cube.Search session c = Session.replies Cube.Search session other) ∧
    (∀ (s : Store p) (other : Store q), s.Alike other → ∀ session,
      Session.replies Store.Reader session s = Session.replies Store.Reader session other) :=
  ⟨fun _ _ alike => Matrix.bisimulation.replies alike.represents,
    fun _ _ alike => Cube.bisimulation.replies alike.paired,
    fun _ _ alike => Store.bisimulation.replies alike.paired⟩

/-- A row and a plane that are emptied and filled again under a search, and a search for triples
that goes on after the dictionary was closed. -/
theorem replies_of_alike_emptied :
    let p : PageSize := .clamp 1
    let q : PageSize := .clamp 4
    let m : Matrix p := .ofWrites p [.set 1 5]
    let m' : Matrix q := .ofWrites q [.set 0 0, .set 1 5, .clear 0 0]
    let cells : List (Session.Step Matrix.Call (Int32 × Int32)) :=
      [.openCursor 0 (wild, wild), .next 0, .call (.write (.clear 1 5)), .call (.write (.set 2 5)),
        .call .rowCount, .next 0]
    let c : Cube p := .ofWrites p [.set 1 2 3]
    let c' : Cube q := .ofWrites q [.set 1 2 3]
    let voxels : List (Session.Step Cube.Request (Int32 × Int32 × Int32)) :=
      [.openCursor 0 (wild, wild, wild), .next 0, .call (.call (.write (.clear 1 2 3))),
        .call (.call (.write (.insert 0 0 3))), .call (.call (.write (.set 7 8 9))), .next 0,
        .call (.call (.write (.remove 0 0 3))), .call (.snapshot .unlimited)]
    let triples : List (Session.Step Store.Request Store.Reader.Pattern) :=
      [.call (.call (.add ⟨.uri "s", .uri "p", .uri "o"⟩)), .openCursor 0 (.triples none none none),
        .openCursor 1 (.voxels wild wild wild), .call .close, .next 0, .next 1]
    (m.Alike m' ∧ Session.replies Matrix.Search cells m' =
      [.opened (.ok ()), .item (some (some ⟨1, 5⟩)), .answer (.told (.ok true)),
        .answer (.told (.ok true)), .answer (.number 1), .item (some none)]) ∧
    (c.Alike c' ∧ Session.replies Cube.Search voxels c' =
      [.opened (.ok ()), .item (some (some ⟨1, 2, 3⟩)), .answer (.answer (.told (.ok true))),
        .answer (.answer (.told (.ok true))), .answer (.answer (.told (.ok true))),
        .item (some (some ⟨7, 8, 9⟩)), .answer (.answer (.told (.ok true))),
        .answer (.snapshot (.ok { accepted := [1, 0, 0, 0, 0, 0, 0, 0, 1, 0, 0, 0, 0, 0, 0, 0,
          7, 0, 0, 0, 8, 0, 0, 0, 9, 0, 0, 0] }))]) ∧
    (Store.empty { pageSize := 1 }).Alike (Store.empty { pageSize := 4 }) ∧
      Session.replies Store.Reader triples (Store.empty { pageSize := 1 }) =
        Session.replies Store.Reader triples (Store.empty { pageSize := 4 }) := by
  -- The replies are computed with pages of one index each.
  obtain ⟨matrices, cubes, stores⟩ := replies_of_alike (.clamp 1) (.clamp 4)
  have matrix : (Matrix.ofWrites (.clamp 1) [.set 1 5]).Alike
      (Matrix.ofWrites (.clamp 4) [.set 0 0, .set 1 5, .clear 0 0]) :=
    Matrix.alike_ofWrites (by decide)
  have cube := Cube.alike_ofWrites (p := .clamp 1) (q := .clamp 4) [.set 1 2 3]
  have store := Store.alike_empty { pageSize := 1 } 4
  exact ⟨⟨matrix, (matrices _ _ matrix _).symm.trans rfl⟩,
    ⟨cube, (cubes _ _ cube _).symm.trans rfl⟩, store, stores _ _ store _⟩

end TripleCube
