import TripleCube.Proofs.Grid.CubeHorizon
import TripleCube.Proofs.Gzip.Stored
import TripleCube.Proofs.Store.Soundness

/-! A search for triples beside a search of the cube. Opened at the same moment and advanced at the
same moments, the one yields an item for each voxel that the other yields, whatever happens to the
store meanwhile. The item is the triple of the voxel where the dictionary is open and counts its
coordinates, and an error elsewhere, which neither ends the search nor passes over a voxel. -/
namespace TripleCube

theorem Cube.Represents.mem_of_next {p : PageSize} {c : Cube p} {voxels : Finset Voxel}
    (represents : c.Represents voxels) {cells : Cube.Search}
    (valid : cells.place.Valid cells.pattern) {v : Voxel}
    (found : (Traversal.next c cells).1 = some v) : v ∈ voxels := by
  have first : (cells.place.next c cells.pattern).1 = some v := found
  rw [Place.next_fst represents.wf valid] at first
  obtain ⟨point, remains, rfl⟩ := Option.map_eq_some_iff.mp first
  have listed := (List.mem_filter.mp (List.mem_of_head? remains)).1
  exact represents.mem_points.mp (List.mem_map_of_mem listed)

theorem lt_of_mem_coordinates {v : Voxel} {bound : Int}
    (below : v.x.toInt < bound ∧ v.y.toInt < bound ∧ v.z.toInt < bound) {index : Int32}
    (among : index ∈ [v.x, v.y, v.z]) : index.toInt < bound := by
  simp only [List.mem_cons, List.not_mem_nil, or_false] at among
  rcases among with rfl | rfl | rfl
  · exact below.1
  · exact below.2.1
  · exact below.2.2

namespace Store

section

variable [Compression] {p : PageSize} {s : Store p} {nodes : NodeList} {voxels : Finset Voxel}

/-- Whether the dictionary counts more nodes than each coordinate of a voxel. -/
def Counts (s : Store p) (v : Voxel) : Prop :=
  v.x.toInt < s.dictionary.count ∧ v.y.toInt < s.dictionary.count ∧ v.z.toInt < s.dictionary.count

/-- What a search for triples yields for a voxel of the cube. -/
structure Shows (s : Store p) (v : Voxel) (outcome : Except Error Triple) : Prop where
  stored : s.cube.contains v.x v.y v.z = .ok true
  ok_iff : (∃ t, outcome = .ok t) ↔ s.dictionary.closed = false ∧ s.Counts v
  nodes : ∀ t, outcome = .ok t → (s.dictionary.lookup v.x).1 = .ok t.subject ∧
    (s.dictionary.lookup v.y).1 = .ok t.predicate ∧ (s.dictionary.lookup v.z).1 = .ok t.object
  error : ∀ e, outcome = .error e →
    (s.dictionary.closed = true ∧ e = .invalidState .closed) ∨
      ∃ index ∈ [v.x, v.y, v.z], s.dictionary.count ≤ index.toInt ∧ e = .indexNotFound index

theorem Sound.contains_eq_ok (sound : s.Sound nodes voxels) {v : Voxel} (member : v ∈ voxels) :
    s.cube.contains v.x v.y v.z = .ok true := by
  rw [sound.cube.contains (sound.cube.nonneg member), decide_eq_true member]

theorem Sound.mem_of_contains (sound : s.Sound nodes voxels) {v : Voxel}
    (stored : s.cube.contains v.x v.y v.z = .ok true) : v ∈ voxels := by
  rw [sound.cube.contains_eq] at stored
  split at stored
  · cases stored
  · exact of_decide_eq_true (Except.ok.inj stored)

theorem Sound.count_eq (sound : s.Sound nodes voxels) : s.dictionary.count = nodes.length :=
  sound.dictionary.length

theorem Sound.counts_iff (sound : s.Sound nodes voxels) (v : Voxel) :
    s.Counts v ↔ nodes.Covers v := by
  rw [Counts, NodeList.Covers, sound.count_eq]

theorem Sound.shows_of_closed (sound : s.Sound nodes voxels) {v : Voxel} (member : v ∈ voxels)
    (closed : s.dictionary.closed = true) : s.Shows v (s.lookup v).1 := by
  have refused : (s.lookup v).1 = .error (.invalidState .closed) := by
    rw [Store.lookup, Dictionary.lookup_of_closed closed]
  rw [refused]
  exact {
    stored := sound.contains_eq_ok member
    ok_iff := by simp [closed]
    nodes := fun _ found => by cases found
    error := fun e same => Or.inl ⟨closed, (Except.error.inj same).symm⟩ }

theorem Sound.shows_of_open (sound : s.Sound nodes voxels) {v : Voxel} (member : v ∈ voxels)
    (isOpen : s.dictionary.closed = false) : s.Shows v (s.lookup v).1 := by
  have represents := sound.represents isOpen
  obtain ⟨cache, looked, _⟩ := lookup_of_represents represents v
  have answers (index : Int32) : (s.dictionary.lookup index).1 = nodes.lookup index := by
    obtain ⟨cache, looked, _⟩ := represents.lookup index
    rw [looked]
  have either := nodes.tripleOf_cases (sound.cube.nonneg member)
  rw [looked]
  refine ⟨sound.contains_eq_ok member, ?_, fun t found => ?_, fun e found => ?_⟩
  · rw [sound.counts_iff, and_iff_right isOpen]
    rcases either with ⟨covers, found⟩ | ⟨index, among, le, missing⟩
    · exact iff_of_true found covers
    · refine iff_of_false ?_ fun covers => ?_
      · rintro ⟨t, found⟩
        cases missing.symm.trans found
      · exact absurd (lt_of_mem_coordinates covers among) (Int.not_lt.mpr le)
  · rw [answers, answers, answers]
    exact NodeList.tripleOf_eq_ok_iff.mp found
  · rcases either with ⟨_, t, found'⟩ | ⟨index, among, le, missing⟩
    · cases found'.symm.trans found
    · rw [sound.count_eq]
      exact Or.inr ⟨index, among, le, Except.error.inj (found.symm.trans missing)⟩

theorem Sound.shows (sound : s.Sound nodes voxels) {v : Voxel} (member : v ∈ voxels) :
    s.Shows v (s.lookup v).1 := by
  cases closed : s.dictionary.closed with
  | true => exact sound.shows_of_closed member closed
  | false => exact sound.shows_of_open member closed

/-- A coordinate that is sought is the wildcard or an index. -/
theorem Sound.wild_le (sound : s.Sound nodes voxels) {pattern : Option Node} {x : Int32}
    (known : s.coordinate? pattern = .ok (some x)) : wild ≤ x := by
  cases pattern with
  | none =>
    cases known
    exact Int32.le_refl wild
  | some node =>
    by_cases named : node = .any
    · subst named
      cases known
      exact Int32.le_refl wild
    · rw [coordinate?_of_named named] at known
      cases closed : s.dictionary.closed with
      | true =>
        rw [Dictionary.indexOf?, Dictionary.ensureOpen_of_closed closed] at known
        cases known
      | false =>
        have represents := sound.represents closed
        rw [represents.indexOf?] at known
        exact NodeList.wild_le_of_indexOf? represents.length_le known

/-- A search whose nodes are known opens over the cells of the cube. -/
theorem Sound.opens (sound : s.Sound nodes voxels) {subject predicate object : Option Node}
    {x y z : Int32} (atX : s.coordinate? subject = .ok (some x))
    (atY : s.coordinate? predicate = .ok (some y)) (atZ : s.coordinate? object = .ok (some z)) :
    ∃ cells, s.search subject predicate object = .ok ⟨some cells⟩ ∧
      s.cube.search x y z = .ok cells := by
  have opened := Cube.search_eq s.cube (sound.wild_le atX) (sound.wild_le atY) (sound.wild_le atZ)
  refine ⟨_, ?_, opened⟩
  rw [search, atX, atY, atZ]
  simp only [bind, Except.bind, opened]
  rfl

/-- Reads of a search for triples and of one for voxels, in stores that differ only in the cache:
both have ended, or the one shows the voxel of the other. -/
inductive Reads :
    Store p × Option (Option Reader.Item) → Store p × Option (Option Reader.Item) → Prop
  | ended (s : Store p) (cache : Cache Int32 Node) :
    Reads (s, some none) (s.recached cache, some none)
  | item {s : Store p} (cache : Cache Int32 Node) {v : Voxel} {outcome : Except Error Triple}
    (shows : s.Shows v outcome) :
    Reads (s, some (some (.triple outcome))) (s.recached cache, some (some (.voxel v)))

/-- A store that sessions lead to. Where they write nothing but triples its voxels are covered. -/
def Reached (onlyTriples : Prop) (s : Store p) : Prop :=
  ∃ nodes voxels, s.Sound nodes voxels ∧ (onlyTriples → ∀ v ∈ voxels, nodes.Covers v)

variable {onlyTriples : Prop} {s' : Store p}

theorem Reached.of_looked (reached : s.Reached onlyTriples) (looked : s.Looked s') :
    s'.Reached onlyTriples := by
  obtain ⟨nodes, voxels, sound, covered⟩ := reached
  exact ⟨nodes, voxels, sound.of_looked looked, covered⟩

theorem Reached.respond (reached : s.Reached onlyTriples) {request : Request}
    (allowed : onlyTriples → ¬ request.WritesCube) : (s.respond request).2.Reached onlyTriples := by
  obtain ⟨nodes, voxels, sound, covered⟩ := reached
  obtain ⟨nodes', voxels', still, evolves⟩ := sound.respond request
  exact ⟨nodes', voxels', still, fun only => (evolves (allowed only)).covers (covered only)⟩

theorem Reached.step {live : Live (Store p) Reader} (reached : live.subject.Reached onlyTriples)
    {action : Session.Step Request Reader.Pattern}
    (only : onlyTriples → ∀ request, action = .call request → ¬ request.WritesCube) :
    (Session.step live action).2.subject.Reached onlyTriples := by
  cases action with
  | call request => exact reached.respond fun triples => only triples request rfl
  | openCursor number pattern =>
    rw [Session.step]
    cases (Interactive.start live.subject pattern : Except Error Reader) <;> exact reached
  | next number =>
    rw [Session.step, Live.next]
    cases live.cursors.find? number with
    | none => exact reached
    | some reader => exact reached.of_looked (reader.looked_next live.subject).1

/-- Whether a session writes to the cube for triples only. -/
def WritesTriples (session : List (Session.Step Request Reader.Pattern)) : Prop :=
  ∀ request, .call request ∈ session → ¬ request.WritesCube

theorem reached_after {session : List (Session.Step Request Reader.Pattern)}
    (only : onlyTriples → WritesTriples session) {live : Live (Store p) Reader}
    (reached : live.subject.Reached onlyTriples) :
    (Session.after session live).subject.Reached onlyTriples := by
  refine Session.after_preserves
    (fun live : Live (Store p) Reader => live.subject.Reached onlyTriples)
    (fun action member live still => still.step fun triples request same => ?_) reached
  exact only triples request (same ▸ member)

/-- What a search for triples answers is looked up for what the search of its cells answers. -/
theorem next_fst (s : Store p) (cells : Cube.Search) :
    (Traversal.next s (⟨some cells⟩ : Search)).1 =
      (Traversal.next s.cube cells).1.map fun v => (s.lookup v).1 := by
  change (Search.next s ⟨some cells⟩).1 = _
  rw [Search.next]
  dsimp only
  obtain ⟨_ | v, c, moved⟩ := Traversal.next s.cube cells <;> rfl

/-- Two sessions in step, in which one number stands for a search for triples and for the search of
the cube that this reads. -/
structure Linked (onlyTriples : Prop) (number : Int) (live other : Live (Store p) Reader) :
    Prop where
  reached : live.subject.Reached onlyTriples
  subject : ∃ cache, other.subject = live.subject.recached cache
  others : ∀ key, key ≠ number → other.cursors.find? key = live.cursors.find? key
  own : ∃ cells : Cube.Search, cells.place.Valid cells.pattern ∧
    live.cursors.find? number = some (.triples ⟨some cells⟩) ∧
    other.cursors.find? number = some (.voxels cells)

variable {number : Int} {live other : Live (Store p) Reader}

theorem Linked.cube (linked : Linked onlyTriples number live other) :
    other.subject.cube = live.subject.cube := by
  obtain ⟨cache, same⟩ := linked.subject
  rw [same]
  rfl

theorem Linked.call (linked : Linked onlyTriples number live other) {request : Request}
    (allowed : onlyTriples → ¬ request.WritesCube) :
    Linked onlyTriples number (live.write (live.subject.respond request).2)
      (other.write (other.subject.respond request).2) := by
  obtain ⟨cache, same⟩ := linked.subject
  obtain ⟨left, responds⟩ := live.subject.respond_recached cache request
  obtain ⟨cells, valid, standing, otherStanding⟩ := linked.own
  rw [same, responds]
  have settles : ∀ reader : Reader,
      Traversal.settle ((live.subject.respond request).2.recached left) reader =
        Traversal.settle (live.subject.respond request).2 reader := by
    rintro (search | search) <;> rfl
  constructor
  · exact linked.reached.respond allowed
  · exact ⟨left, rfl⟩
  · intro key different
    simp only [Live.write, Assoc.find?_mapValues, linked.others key different]
    exact Option.map_congr fun reader _ => settles reader
  · refine ⟨Traversal.settle (live.subject.respond request).2.cube cells,
      Cube.Place.valid_settle _ valid, ?_, ?_⟩
    · simp only [Live.write, Assoc.find?_mapValues, standing]
      rfl
    · simp only [Live.write, Assoc.find?_mapValues, otherStanding]
      rfl

theorem Linked.openCursor (linked : Linked onlyTriples number live other) {key : Int}
    (different : key ≠ number) (reader : Reader) :
    Linked onlyTriples number (live.openCursor key reader) (other.openCursor key reader) := by
  obtain ⟨cells, valid, standing, otherStanding⟩ := linked.own
  refine ⟨linked.reached, linked.subject, fun any elsewhere => ?_, cells, valid, ?_, ?_⟩
  · simp only [Live.openCursor, Assoc.find?_insert, linked.others any elsewhere]
  · simp only [Live.openCursor, Assoc.find?_insert, if_neg different, standing]
  · simp only [Live.openCursor, Assoc.find?_insert, if_neg different, otherStanding]

theorem Linked.looked (linked : Linked onlyTriples number live other) {subject other' : Store p}
    (looked : live.subject.Looked subject) (otherLooked : other.subject.Looked other') :
    Linked onlyTriples number ⟨subject, live.cursors⟩ ⟨other', other.cursors⟩ := by
  obtain ⟨cache, same⟩ := linked.subject
  obtain ⟨left, rfl⟩ := looked.exists_recached
  obtain ⟨otherLeft, rfl⟩ := otherLooked.exists_recached
  refine ⟨linked.reached.of_looked looked, ⟨otherLeft, ?_⟩, linked.others, linked.own⟩
  rw [same]
  rfl

/-- Steps of other cursors make lookups. -/
theorem Linked.next_other (linked : Linked onlyTriples number live other) {key : Int}
    (different : key ≠ number) :
    Linked onlyTriples number (live.next key).2 (other.next key).2 := by
  have standing := linked.others key different
  rw [Live.next, Live.next, standing]
  cases live.cursors.find? key with
  | none => exact linked
  | some reader =>
    obtain ⟨looked, moved⟩ := reader.looked_next live.subject
    obtain ⟨otherLooked, otherMoved⟩ := reader.looked_next other.subject
    have still := (linked.looked looked otherLooked).openCursor different
      (reader.after live.subject.cube)
    dsimp only
    rw [moved, otherMoved, linked.cube]
    exact still

/-- Steps of the two cursors keep them over the same cells. -/
theorem Linked.next_own (linked : Linked onlyTriples number live other) :
    Linked onlyTriples number (live.next number).2 (other.next number).2 := by
  obtain ⟨cells, valid, standing, otherStanding⟩ := linked.own
  obtain ⟨nodes, voxels, sound, _⟩ := linked.reached
  obtain ⟨looked, moved⟩ := (Reader.triples ⟨some cells⟩).looked_next live.subject
  obtain ⟨otherLooked, otherMoved⟩ := (Reader.voxels cells).looked_next other.subject
  have still := linked.looked looked otherLooked
  rw [Live.next, Live.next, standing, otherStanding]
  dsimp only
  rw [moved, otherMoved, linked.cube]
  refine ⟨still.reached, still.subject, fun key different => ?_,
    (Traversal.next live.subject.cube cells).2.2, Cube.Place.valid_next sound.cube.wf valid, ?_, ?_⟩
  · simp only [Assoc.find?_insert, if_neg different.symm, linked.others key different]
  · simp only [Assoc.find?_insert, if_pos]
    rfl
  · simp only [Assoc.find?_insert, if_pos]
    rfl

theorem Linked.step (linked : Linked onlyTriples number live other)
    {action : Session.Step Request Reader.Pattern}
    (kept : ∀ pattern, action ≠ .openCursor number pattern)
    (only : onlyTriples → ∀ request, action = .call request → ¬ request.WritesCube) :
    Linked onlyTriples number (Session.step live action).2 (Session.step other action).2 := by
  cases action with
  | call request => exact linked.call fun triples => only triples request rfl
  | next key =>
    by_cases same : key = number
    · subst same
      exact linked.next_own
    · exact linked.next_other same
  | openCursor key pattern =>
    have different : key ≠ number := by
      rintro rfl
      exact kept pattern rfl
    obtain ⟨cache, same⟩ := linked.subject
    have starts : (Interactive.start other.subject pattern : Except Error Reader) =
        Interactive.start live.subject pattern := by
      rw [same]
      rcases pattern with ⟨subject, predicate, object⟩ | ⟨x, y, z⟩ <;> rfl
    rw [Session.step, Session.step, starts]
    cases (Interactive.start live.subject pattern : Except Error Reader) with
    | error e => exact linked
    | ok reader => exact linked.openCursor different reader

/-- Whether all voxels of the cube are counted. -/
def CountsAll (s : Store p) : Prop :=
  ∀ v : Voxel, s.cube.contains v.x v.y v.z = .ok true → s.Counts v

theorem Reached.countsAll (reached : s.Reached onlyTriples) (only : onlyTriples) :
    s.CountsAll := by
  obtain ⟨nodes, voxels, sound, covered⟩ := reached
  intro v stored
  exact (sound.counts_iff v).mpr (covered only v (sound.mem_of_contains stored))

theorem Linked.reads (linked : Linked onlyTriples number live other) :
    Reads (live.subject, (live.next number).1) (other.subject, (other.next number).1) := by
  obtain ⟨cells, valid, standing, otherStanding⟩ := linked.own
  obtain ⟨cache, same⟩ := linked.subject
  obtain ⟨nodes, voxels, sound, _⟩ := linked.reached
  have item : (live.next number).1 = some (((Traversal.next live.subject.cube cells).1.map
      fun v => (live.subject.lookup v).1).map .triple) := by
    rw [Live.next, standing, ← next_fst]
    rfl
  have voxel : (other.next number).1 =
      some ((Traversal.next live.subject.cube cells).1.map .voxel) := by
    rw [Live.next, otherStanding, same]
    rfl
  rw [item, voxel, same]
  cases found : (Traversal.next live.subject.cube cells).1 with
  | none => exact .ended live.subject cache
  | some v => exact .item cache (sound.shows (sound.cube.mem_of_next valid found))

/-- Two sessions stay in step until the number is given to another cursor. -/
theorem Linked.follow (linked : Linked onlyTriples number live other)
    {during : List (Session.Step Request Reader.Pattern)}
    (kept : ∀ pattern, .openCursor number pattern ∉ during)
    (only : onlyTriples → WritesTriples during) :
    List.Forall₂ (fun read other => (onlyTriples → read.1.CountsAll) ∧ Reads read other)
      (Session.reads number during live) (Session.reads number during other) :=
  Session.forall₂_reads number
    (fun _ member _ _ linked =>
      linked.step (fun pattern same => kept pattern (same ▸ member))
        fun triples request same => only triples request (same ▸ member))
    (fun _ _ linked => ⟨linked.reached.countsAll, linked.reads⟩) linked

theorem Reached.linked (reached : live.subject.Reached onlyTriples) (number : Int)
    {cells : Cube.Search} (valid : cells.place.Valid cells.pattern) :
    Linked onlyTriples number (live.openCursor number (.triples ⟨some cells⟩))
      (live.openCursor number (.voxels cells)) := by
  refine ⟨reached, ⟨live.subject.dictionary.cache, rfl⟩, fun key different => ?_, cells, valid,
    ?_, ?_⟩
  · simp only [Live.openCursor, Assoc.find?_insert, if_neg different.symm]
  · simp only [Live.openCursor, Assoc.find?_insert, if_pos]
  · simp only [Live.openCursor, Assoc.find?_insert, if_pos]

/-- What a session on a new store leaves. -/
def history (config : Config) (session : List (Session.Step Request Reader.Pattern)) :
    Live (Store config.cubePageSize) Reader :=
  Session.after session (Live.of (empty config))

theorem reached_empty (lossless : Compression.Lossless) (config : Config) :
    (empty config).Reached onlyTriples :=
  ⟨[], ∅, sound_empty lossless config, fun _ v member => absurd member (Finset.notMem_empty v)⟩

/-- Where all voxels are counted, none of them has a coordinate that is not found. -/
theorem Reads.ne_notFound {read other : Store p × Option (Option Reader.Item)}
    (reads : Reads read other) (counts : read.1.CountsAll) (index : Int32) :
    read.2 ≠ some (some (.triple (.error (.indexNotFound index)))) := by
  rintro same
  cases reads with
  | ended => cases same
  | item cache shows =>
    cases same
    rcases shows.error _ rfl with ⟨_, closed⟩ | ⟨coordinate, among, le, _⟩
    · cases closed
    · exact absurd (lt_of_mem_coordinates (counts _ shows.stored) among) (Int.not_lt.mpr le)

/-- Over every session, a search for triples whose nodes are known opens, and it reads in step with
the search of the cube that has their coordinates and is opened in its place: it yields an item
where the other yields a voxel, and ends where the other ends. Where the sessions write to the cube
for triples only, all voxels are counted and none of the items is an index that is not found. -/
theorem finds_follow_cells (lossless : Compression.Lossless) (config : Config)
    (earlier during : List (Session.Step Request Reader.Pattern)) (number : Int)
    {subject predicate object : Option Node} {x y z : Int32}
    (atX : (history config earlier).subject.coordinate? subject = .ok (some x))
    (atY : (history config earlier).subject.coordinate? predicate = .ok (some y))
    (atZ : (history config earlier).subject.coordinate? object = .ok (some z))
    (kept : ∀ pattern, .openCursor number pattern ∉ during) :
    let live := history config earlier
    let triples := .openCursor number (.triples subject predicate object)
    let voxels := .openCursor number (.voxels x y z)
    (Session.step live triples).1 = .opened (.ok ()) ∧
    (Session.step live voxels).1 = .opened (.ok ()) ∧
    List.Forall₂ Reads (Session.reads number (triples :: during) live)
      (Session.reads number (voxels :: during) live) ∧
    (WritesTriples (earlier ++ during) →
      (Session.after (triples :: during) live).subject.CountsAll ∧
      ∀ read ∈ Session.reads number (triples :: during) live, ∀ index,
        read.2 ≠ some (some (.triple (.error (.indexNotFound index))))) := by
  intro live triples voxels
  have onlyEarlier (only : WritesTriples (earlier ++ during)) : WritesTriples earlier :=
    fun request member => only request (List.mem_append_left during member)
  have onlyDuring (only : WritesTriples (earlier ++ during)) : WritesTriples during :=
    fun request member => only request (List.mem_append_right earlier member)
  have reached : live.subject.Reached (WritesTriples (earlier ++ during)) :=
    reached_after onlyEarlier (reached_empty lossless config)
  have ⟨nodes, set, sound, _⟩ := reached
  obtain ⟨cells, opened, cubeOpened⟩ := sound.opens atX atY atZ
  have started : Interactive.start live.subject (Reader.Pattern.triples subject predicate object) =
      Except.ok (Reader.triples ⟨some cells⟩) := congrArg (Except.map Reader.triples) opened
  have cubeStarted : Interactive.start live.subject (Reader.Pattern.voxels x y z) =
      Except.ok (Reader.voxels cells) := congrArg (Except.map Reader.voxels) cubeOpened
  have opens : Session.step live triples = _ := Session.step_openCursor started number
  have cubeOpens : Session.step live voxels = _ := Session.step_openCursor cubeStarted number
  have linked : Linked (WritesTriples (earlier ++ during)) number (Session.step live triples).2
      (Session.step live voxels).2 := by
    rw [opens, cubeOpens]
    exact reached.linked number (Cube.valid_of_search cubeOpened)
  have follow := linked.follow kept onlyDuring
  refine ⟨congrArg Prod.fst opens, congrArg Prod.fst cubeOpens, follow.imp fun _ _ both => both.2,
    fun only => ⟨?_, ?_⟩⟩
  · have last : (Session.after (triples :: during) live).subject.Reached
        (WritesTriples (earlier ++ during)) := reached_after onlyDuring linked.reached
    exact last.countsAll only
  · have found := follow.imp fun _ _ both => And.intro (both.2.ne_notFound (both.1 only)) both.2
    exact ((List.forall₂_and_left _ _).mp found).1

end

/-- A session in which a voxel is written that stands for no triple. -/
def strayVoxel : List (Session.Step Request Reader.Pattern) :=
  [.call (.call (.add ⟨.uri "s", .uri "p", .uri "o"⟩)),
    .call (.cube (.call (.write (.insert 0 1 9))))]

/-- Steps between which the dictionary is closed and another voxel written. -/
def closedMidway : List (Session.Step Request Reader.Pattern) :=
  [.next 0, .next 0, .call .close, .call (.cube (.call (.write (.insert 0 7 11)))), .next 0,
    .next 0]

theorem finds_follow_cells_closed :
    let live := history { pageSize := 1 } strayVoxel
    let triples := .openCursor 0 (.triples (some (.uri "s")) none (some .any))
    let voxels := .openCursor 0 (.voxels 0 wild wild)
    Compression.Lossless ∧ live.subject.coordinate? (some (.uri "s")) = .ok (some 0) ∧
    (∀ pattern, .openCursor 0 pattern ∉ closedMidway) ∧
    (Session.reads 0 (triples :: closedMidway) live).map Prod.snd =
      [some (some (.triple (.ok ⟨.uri "s", .uri "p", .uri "o"⟩))),
        some (some (.triple (.error (.indexNotFound 9)))),
        some (some (.triple (.error (.invalidState .closed)))), some none] ∧
    (Session.reads 0 (voxels :: closedMidway) live).map Prod.snd =
      [some (some (.voxel ⟨0, 1, 2⟩)), some (some (.voxel ⟨0, 1, 9⟩)),
        some (some (.voxel ⟨0, 7, 11⟩)), some none] ∧
    List.Forall₂ Reads (Session.reads 0 (triples :: closedMidway) live)
      (Session.reads 0 (voxels :: closedMidway) live) := by
  have known : (history { pageSize := 1 } strayVoxel).subject.coordinate? (some (.uri "s")) =
      .ok (some 0) := rfl
  have every : (history { pageSize := 1 } strayVoxel).subject.coordinate? none =
      .ok (some wild) := rfl
  have any : (history { pageSize := 1 } strayVoxel).subject.coordinate? (some .any) =
      .ok (some wild) := rfl
  have kept : ∀ pattern, .openCursor 0 pattern ∉ closedMidway := by simp [closedMidway]
  obtain ⟨-, -, follow, -⟩ :=
    finds_follow_cells Gzip.lossless { pageSize := 1 } strayVoxel closedMidway 0 known every any kept
  exact ⟨Gzip.lossless, known, kept, by with_unfolding_all rfl, rfl, follow⟩

end Store

end TripleCube
