import TripleCube.Proofs.Dictionary.Inert
import TripleCube.Proofs.Dictionary.Loaded

/-! The dictionaries that come about: new or read, then called, and closed at last. Their parts fit
together, also where a record stores no node, and a record stays at its index. -/
namespace TripleCube.Dictionary

variable [Compression]

inductive Reachable : Dictionary → Prop
  | empty (config : Config) : Reachable (empty config)
  | read {source : Source} {config : Config} {d : Dictionary}
    (loaded : read source config = .ok d) : Reachable d
  | step {d : Dictionary} (reached : Reachable d) (call : Call) : Reachable (d.step call).2
  | close {d : Dictionary} (reached : Reachable d) : Reachable d.close

variable {d : Dictionary}

theorem Valid.close (valid : d.Valid) : d.close.Valid := by
  rw [Dictionary.close]
  split
  · exact valid
  · exact ⟨valid.size, valid.index, Cache.agrees_nil⟩

theorem Keyed.close (keyed : d.Keyed) : d.close.Keyed := by
  rw [Dictionary.close]
  split
  · exact keyed
  · exact ⟨⟨keyed.size, keyed.index, Cache.agrees_nil⟩, keyed.bound, keyed.listed⟩

theorem Reachable.valid (reached : d.Reachable) : d.Valid := by
  induction reached with
  | empty config => exact (keyed_empty config).toValid
  | read loaded => exact (keyed_of_read loaded).1.toValid
  | @step d reached call valid =>
    cases closed : d.closed with
    | true => exact (step_of_closed closed call).symm ▸ valid
    | false => exact (valid.step closed call).1
  | close reached valid => exact valid.close

theorem Reachable.keyed (lossless : Compression.Lossless) (reached : d.Reachable) : d.Keyed := by
  induction reached with
  | empty config => exact keyed_empty config
  | read loaded => exact (keyed_of_read loaded).1
  | @step d reached call keyed =>
    cases closed : d.closed with
    | true => exact (step_of_closed closed call).symm ▸ keyed
    | false => exact keyed.step lossless closed call
  | close reached keyed => exact keyed.close

/-- A call adds a record at the next index, if any, and takes none away. -/
theorem at?_step {index : Int32} {r : NodeRecord} (found : d.at? index = some r) (call : Call) :
    (d.step call).2.at? index = some r := by
  cases closed : d.closed with
  | true => rwa [step_of_closed closed]
  | false =>
    cases call with
    | resolve node =>
      have outcome := resolution closed node
      rw [step]
      generalize d.resolve node = result at outcome
      cases outcome with
      | interned r' => exact at?_push found (NodeRecord.keyOf node) r'
      | wildcard | refused | known | lossy | full => exact found
    | lookup index' =>
      obtain ⟨cache, looked⟩ := exists_recached_of_lookup (d := d) index'
      rw [step, looked]
      exact found
    | indexOf | record | count => exact found

end TripleCube.Dictionary
