import TripleCube.Proofs.Dictionary.Inert
import TripleCube.Proofs.Dictionary.NodeList
import TripleCube.Dictionary.Stream

/-! The page size in the settings of a dictionary. A dictionary keeps it for its owner to read and
does nothing with it: under another page size every call is answered alike and leaves the same. -/
namespace TripleCube.Dictionary

/-- The dictionary with another page size in its settings. -/
def paged (d : Dictionary) (size : UInt32) : Dictionary :=
  { d with config := { d.config with pageSize := size } }

theorem inert_paged (size : UInt32) : Inert (paged · size) :=
  ⟨fun _ => rfl, fun _ => rfl, fun _ => rfl, fun _ => rfl, fun _ _ _ => rfl⟩

variable (d : Dictionary) (size : UInt32)

theorem close_paged : (d.paged size).close = d.close.paged size := by
  have closed : (d.paged size).closed = d.closed := rfl
  rw [close, close, closed]
  split <;> rfl

variable [Compression]

theorem lookup_paged (index : Int32) :
    (d.paged size).lookup index = ((d.lookup index).1, (d.lookup index).2.paged size) := by
  have isOpen : (d.paged size).ensureOpen = d.ensureOpen := rfl
  rw [lookup, lookup, isOpen]
  cases d.ensureOpen with
  | error e => rfl
  | ok _ =>
    dsimp only
    split
    · rfl
    · have cached : (d.paged size).cache = d.cache := rfl
      rw [cached]
      obtain ⟨answer, cache⟩ := d.cache.get? index
      cases answer with
      | some node => rfl
      | none =>
        have same : record { d.paged size with cache } index = record { d with cache } index := rfl
        dsimp only
        rw [same]
        cases record { d with cache } index >>= NodeRecord.decode <;> rfl

theorem step_paged (call : Call) :
    (d.paged size).step call = ((d.step call).1, (d.step call).2.paged size) := by
  cases call with
  | resolve node =>
    rw [step, step, (inert_paged size).resolve]
    cases d.resolve node <;> rfl
  | lookup index =>
    rw [step, step, lookup_paged]
  | _ => rfl

end TripleCube.Dictionary
