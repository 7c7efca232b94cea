import TripleCube.Proofs.Dictionary.Inert
import TripleCube.Proofs.Store.Session

/-! The cache of a store's dictionary. Reading makes lookups and changes nothing else, and whatever
is asked of two stores that differ only in the cache, they are left so. -/
namespace TripleCube.Store

variable {p q : PageSize}

/-- The store with another cache. -/
def recached (s : Store p) (cache : Cache Int32 Node) : Store p :=
  { s with dictionary := s.dictionary.recached cache }

theorem remove_recached (s : Store p) (cache : Cache Int32 Node) (t : Triple) : (s.recached cache).remove t =
    (s.remove t).map fun outcome => (outcome.1, outcome.2.recached cache) := by
  have cell : (s.recached cache).cell? t = s.cell? t := rfl
  have cube : (s.recached cache).cube = s.cube := rfl
  rw [remove, remove, cell, cube]
  cases s.cell? t with
  | error e => rfl
  | ok found =>
    cases found with
    | none => rfl
    | some v =>
      simp only [bind, Except.bind]
      cases s.cube.remove v.x v.y v.z <;> rfl

variable [Compression]

/-- Resolving a triple changes the dictionary, and another one likewise that differs from it in
what resolving does not look at. -/
theorem resolve_inert {change : Dictionary → Dictionary} (inert : Dictionary.Inert change)
    (d : Dictionary) (c : Cube p) (c' : Cube q) (t : Triple) : ∃ outcome d',
    (⟨d, c⟩ : Store p).resolve t = (outcome, ⟨d', c⟩) ∧
    (⟨change d, c'⟩ : Store q).resolve t = (outcome, ⟨change d', c'⟩) := by
  rw [Store.resolve, Store.resolve, inert.resolve]
  cases d.resolve t.subject with
  | error e => exact ⟨_, _, rfl, rfl⟩
  | ok resolved =>
    obtain ⟨x, d₁⟩ := resolved
    simp only [Except.map]
    rw [inert.resolve]
    cases d₁.resolve t.predicate with
    | error e => exact ⟨_, _, rfl, rfl⟩
    | ok resolved =>
      obtain ⟨y, d₂⟩ := resolved
      simp only [Except.map]
      rw [inert.resolve]
      cases d₂.resolve t.object <;> exact ⟨_, _, rfl, rfl⟩

/-- What lookups make of a store. -/
def Looked (s s' : Store p) : Prop :=
  ∃ d, s' = { s with dictionary := d } ∧ s.dictionary.Looked d

theorem Looked.refl (s : Store p) : s.Looked s := ⟨s.dictionary, rfl, .refl⟩

variable {s s' : Store p}

theorem Looked.exists_recached (looked : s.Looked s') : ∃ cache, s' = s.recached cache := by
  obtain ⟨d, rfl, looked⟩ := looked
  obtain ⟨cache, rfl⟩ := looked.exists_recached
  exact ⟨cache, rfl⟩

theorem Looked.cube (looked : s.Looked s') : s'.cube = s.cube := by
  obtain ⟨d, rfl, looked⟩ := looked
  rfl

/-- Looking a triple up comes to lookups of its nodes, as far as they are found. -/
theorem Looked.lookup (looked : s.Looked s') (v : Voxel) : s.Looked (s'.lookup v).2 := by
  obtain ⟨d, rfl, looked⟩ := looked
  have first := looked.lookup v.x
  rw [Store.lookup]
  revert first
  obtain ⟨subject | subject, d₁⟩ := d.lookup v.x
  · exact fun first => ⟨d₁, rfl, first⟩
  intro first
  have second := first.lookup v.y
  dsimp only at second ⊢
  revert second
  obtain ⟨predicate | predicate, d₂⟩ := d₁.lookup v.y
  · exact fun second => ⟨d₂, rfl, second⟩
  intro second
  have third := second.lookup v.z
  dsimp only at third ⊢
  revert third
  obtain ⟨object | object, d₃⟩ := d₂.lookup v.z
  · exact fun third => ⟨d₃, rfl, third⟩
  · exact fun third => ⟨d₃, rfl, third⟩

/-- Where a search stands after a step does not depend on the dictionary. -/
def Search.after (c : Cube p) (search : Search) : Search :=
  ⟨search.cells.map fun cells => (Traversal.next c cells).2.2⟩

/-- A step of a search makes lookups, and its cells move as on the cube by itself. -/
theorem Looked.next (looked : s.Looked s') (search : Search) :
    s.Looked (Traversal.next s' search).2.1 ∧
      (Traversal.next s' search).2.2 = search.after s.cube := by
  rw [← looked.cube]
  change s.Looked (search.next s').2.1 ∧ (search.next s').2.2 = _
  rw [Search.next]
  obtain ⟨_ | cells⟩ := search
  · exact ⟨looked, rfl⟩
  · dsimp only [Search.after, Option.map_some]
    obtain ⟨_ | v, c, moved⟩ := Traversal.next s'.cube cells
    · exact ⟨looked, rfl⟩
    · exact ⟨looked.lookup v, rfl⟩

/-- A search that is drained makes lookups. -/
theorem looked_find (s : Store p) (subject predicate object : Option Node) :
    s.Looked (s.find subject predicate object).2 := by
  rw [find]
  cases s.search subject predicate object with
  | error e => exact .refl s
  | ok search =>
    exact Traversal.drain_preserves s.Looked (fun _ search looked => (looked.next search).1)
      s.cube.cardinality search (.refl s)

/-- Where a reader stands after a step over a cube. -/
def Reader.after (c : Cube p) : Reader → Reader
  | .triples search => .triples (search.after c)
  | .voxels search => .voxels (Traversal.next c search).2.2

theorem Reader.looked_next (s : Store p) (reader : Reader) :
    s.Looked (Traversal.next s reader).2.1 ∧
      (Traversal.next s reader).2.2 = reader.after s.cube := by
  cases reader with
  | triples search =>
    obtain ⟨looked, moved⟩ := (Looked.refl s).next search
    exact ⟨looked, congrArg Reader.triples moved⟩
  | voxels search => exact ⟨.refl s, rfl⟩

variable (s) (cache : Cache Int32 Node)

theorem add_recached (t : Triple) :
    ((s.recached cache).add t).2 = (s.add t).2.recached cache := by
  obtain ⟨d, c⟩ := s
  obtain ⟨outcome, d', resolved, otherResolved⟩ :=
    resolve_inert (Dictionary.inert_recached cache) d c c t
  change (Store.add ⟨d.recached cache, c⟩ t).2 = _
  rw [add, add, resolved, otherResolved]
  split
  · cases outcome with
    | error e => rfl
    | ok v =>
      dsimp only
      cases c.insert v.x v.y v.z <;> rfl
  · rfl

theorem step_recached (call : Call) : ∃ left,
    ((s.recached cache).step call).2 = (s.step call).2.recached left := by
  cases call with
  | add t => exact ⟨cache, s.add_recached cache t⟩
  | remove t =>
    rw [step, step, remove_recached]
    cases s.remove t <;> exact ⟨cache, rfl⟩
  | find subject predicate object =>
    obtain ⟨left, found⟩ := (s.looked_find subject predicate object).exists_recached
    obtain ⟨other, otherFound⟩ :=
      ((s.recached cache).looked_find subject predicate object).exists_recached
    rw [step, step, found, otherFound]
    exact ⟨other, rfl⟩
  | _ => exact ⟨cache, rfl⟩

/-- Whatever is asked of it, a store with another cache is left with another cache. -/
theorem respond_recached (request : Request) : ∃ left,
    ((s.recached cache).respond request).2 = (s.respond request).2.recached left := by
  cases request with
  | call call => exact s.step_recached cache call
  | dictionary call =>
    obtain ⟨left, stepped⟩ := Dictionary.step_recached (d := s.dictionary) cache call
    exact ⟨left, congrArg (fun dictionary => { s with dictionary }) stepped⟩
  | close =>
    obtain ⟨left, closed⟩ := Dictionary.close_recached (d := s.dictionary) cache
    exact ⟨left, congrArg (fun dictionary => { s with dictionary }) closed⟩
  | _ => exact ⟨cache, rfl⟩

end TripleCube.Store
